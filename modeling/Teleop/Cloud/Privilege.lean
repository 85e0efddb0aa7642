import Teleop.Cloud.Gate

/-!
# Least privilege for mode changes

Commanding a unit into `FullTeleop` or `Auto` needs a permission of its own.  The routes and
tools named after the mode check it; the `command` route takes the mode from the body and
checks only `SendControl`.
-/

namespace Teleop.Cloud

open Teleop.Core Teleop.Link Teleop.Lib Teleop.Sec

/-- The permission a mode needs, for the modes that hand over control. -/
def modePermission : Mode → Option Permission
  | .fullTeleop => some .takeManualControl
  | .auto => some .engageAutonomy
  | .assist => none
  | .emergencyStop => none

section Paths

variable {T R : Type}

/-- What a path looks like: nothing to do, one segment, or two by way of `assist`. -/
theorem Fleet.pathVia_cases {fleet : Fleet T R} {source target : Mode} {path : List Mode}
    (found : fleet.pathVia source target = some path) :
    (source = target ∧ path = []) ∨ (source ≠ target ∧ path = [target]) ∨
      (source ≠ target ∧ target ≠ .assist ∧ path = [.assist, target]) := by
  unfold pathVia at found
  split at found
  · rename_i same
    cases found
    exact .inl ⟨same, rfl⟩
  · rename_i different
    split at found
    · cases found
      exact .inr (.inl ⟨different, rfl⟩)
    · split at found
      · rename_i staged
        cases found
        exact .inr (.inr ⟨different, staged.2.1, rfl⟩)
      · cases found

/-- A mode that needs a permission is commanded only as the target, at the end of the path. -/
theorem target_of_visited {fleet : Fleet T R} {source target mode : Mode}
    {path segments : List Mode} {perm : Permission}
    (found : fleet.pathVia source target = some path) (initial : segments <+: path)
    (member : mode ∈ segments) (needs : modePermission mode = some perm) :
    mode = target ∧ source ≠ target ∧ segments = path := by
  have visited := initial.subset member
  rcases Fleet.pathVia_cases found with ⟨-, rfl⟩ | ⟨different, rfl⟩ | ⟨different, unassisted, rfl⟩
  · cases visited
  · have last : mode = target := List.mem_singleton.mp visited
    refine ⟨last, different, ?_⟩
    rcases List.prefix_cons_iff.mp initial with rfl | ⟨rest, rfl, empty⟩
    · cases member
    · rw [List.prefix_nil.mp empty]
  · have last : mode = target := by
      rcases List.mem_cons.mp visited with rfl | visited
      · cases needs
      · exact List.mem_singleton.mp visited
    refine ⟨last, different, ?_⟩
    subst last
    rcases List.prefix_cons_iff.mp initial with rfl | ⟨rest, rfl, remaining⟩
    · cases member
    · rcases List.prefix_cons_iff.mp remaining with rfl | ⟨others, rfl, empty⟩
      · cases List.mem_singleton.mp member
        cases needs
      · rw [List.prefix_nil.mp empty]

end Paths

section Commanding

variable {T R : Type} [UnitTransport T]

/-- The transport accepts the commands of a path, one after the other. -/
def TakesAll (clock : Nat → UInt64) (addr : SocketAddr) : List Mode → Nat → T → UInt64 → Prop
  | [], _, _, _ => True
  | next :: rest, passed, transport, seq =>
      ∃ after, UnitTransport.sendCommand transport addr (makeCommand next seq (clock passed)) =
          (after, .ok ()) ∧
        TakesAll clock addr rest (passed + 1) after (seq + 1)

/-- The loop of `set_mode` ends well exactly if the transport accepts the whole path. -/
theorem follow_ok_iff (clock : Nat → UInt64) (addr : SocketAddr) (path : List Mode)
    (passed : Nat) (transport : T) (unit : UnitState R) :
    (Fleet.follow clock addr path passed transport unit).2.2 = .ok () ↔
      TakesAll clock addr path passed transport unit.cmdSeq := by
  induction path generalizing passed transport unit with
  | nil => simp [Fleet.follow, TakesAll]
  | cons next rest inductionHypothesis =>
      rcases sent : UnitTransport.sendCommand transport addr
        (makeCommand next unit.cmdSeq (clock passed)) with ⟨after, _ | _⟩
      · simp [Fleet.follow, TakesAll, sent]
      · have remaining := inductionHypothesis (passed + 1) after (unit.advance next)
        simp only [Fleet.follow, TakesAll, sent, remaining]
        simp [UnitState.advance]

/-- Since an earlier state of the fleet the transport has accepted a command into a mode. -/
def Commanded (before after : Fleet (Observed T) R) (mode : Mode) : Prop :=
  ∃ cmd ∈ after.transport.acceptedSince before.transport, cmd.mode = mode.asU8

instance (before after : Fleet (Observed T) R) (mode : Mode) :
    Decidable (Commanded before after mode) :=
  inferInstanceAs (Decidable (∃ cmd ∈ after.transport.acceptedSince before.transport,
    cmd.mode = mode.asU8))

omit [UnitTransport T] in
theorem not_commanded_self (fleet : Fleet (Observed T) R) (mode : Mode) :
    ¬ Commanded fleet fleet mode := by
  rintro ⟨cmd, member, -⟩
  rw [acceptedSince_self] at member
  cases member

theorem asU8_injective {mode other : Mode} (same : mode.asU8 = other.asU8) : mode = other := by
  have parsed := congrArg Mode.fromU8 same
  simpa using parsed

theorem exists_issued_iff (clock : Nat → UInt64) (segments : List Mode) (passed : Nat)
    (seq : UInt64) (mode : Mode) :
    (∃ cmd ∈ issued clock segments passed seq, cmd.mode = mode.asU8) ↔ mode ∈ segments := by
  have modes := map_mode_issued clock segments passed seq
  constructor
  · rintro ⟨cmd, member, same⟩
    have listed : cmd.mode ∈ segments.map Mode.asU8 := by
      rw [← modes]
      exact List.mem_map_of_mem member
    obtain ⟨other, member, named⟩ := List.mem_map.mp listed
    rwa [← asU8_injective (named.trans same)]
  · intro member
    have listed : mode.asU8 ∈ (issued clock segments passed seq).map (·.mode) := by
      rw [modes]
      exact List.mem_map_of_mem member
    obtain ⟨cmd, issuing, same⟩ := List.mem_map.mp listed
    exact ⟨cmd, issuing, same⟩

/-- `set_mode` commands a unit into a mode that needs a permission exactly if this is its
target, the unit is in another mode and the transport accepts the whole path. -/
theorem commanded_setMode_iff {fleet : Fleet (Observed T) R} {id : UInt64} {target mode : Mode}
    {perm : Permission} (needs : modePermission mode = some perm) (clock : Nat → UInt64) :
    Commanded fleet (fleet.setMode id target clock).1 mode ↔
      mode = target ∧ ∃ unit path, fleet.get id = some unit ∧ unit.mode ≠ mode ∧
        fleet.pathVia unit.mode mode = some path ∧
        TakesAll clock unit.addr path 0 fleet.transport unit.cmdSeq := by
  unfold Fleet.setMode
  cases held : fleet.get id with
  | none => simp [not_commanded_self]
  | some unit =>
      simp only
      cases found : fleet.pathVia unit.mode target with
      | none =>
          constructor
          · intro commanded
            exact absurd commanded (not_commanded_self fleet mode)
          · rintro ⟨rfl, other, path, same, -, staged, -⟩
            cases same
            cases found.symm.trans staged
      | some path =>
          obtain ⟨segments, followed⟩ :=
            exists_followed clock unit.addr path 0 fleet.transport unit
          obtain ⟨refused, unaccepted, attempts⟩ := followed.attempts
          have accepted := acceptedSince_of_attempts unaccepted attempts
          simp only [Commanded, Fleet.transport_put, accepted, exists_issued_iff]
          constructor
          · intro visited
            obtain ⟨rfl, different, rfl⟩ :=
              target_of_visited found followed.reached visited needs
            have finished : (Fleet.follow clock unit.addr segments 0 fleet.transport unit).2.2 =
                .ok () := by
              cases result : (Fleet.follow clock unit.addr segments 0 fleet.transport unit).2.2 with
              | ok => rfl
              | error failure => exact absurd rfl (followed.failed result).1
            exact ⟨rfl, unit, segments, rfl, different, found,
              (follow_ok_iff clock unit.addr segments 0 fleet.transport unit).mp finished⟩
          · rintro ⟨rfl, other, staged, same, different, walked, taken⟩
            cases same
            cases found.symm.trans walked
            rw [followed.finished
              ((follow_ok_iff clock unit.addr path 0 fleet.transport unit).mpr taken)]
            rcases Fleet.pathVia_cases found with ⟨same, -⟩ | ⟨-, rfl⟩ | ⟨-, -, rfl⟩
            · exact absurd same different
            · simp
            · simp

/-- The tools that command a unit into a mode that needs a permission need the same one. -/
theorem dispatchPermission_of_commanded [Recorder R] {tool : String} {call : Call R}
    (runs : ToolRuns tool call) {fleet : Fleet (Observed T) R} {clock : Nat → UInt64}
    {mode : Mode} {perm : Permission} (needs : modePermission mode = some perm)
    (commanded : Commanded fleet (call.perform fleet clock).1 mode) :
    dispatchPermission tool = some perm := by
  cases runs with
  | assign =>
      rename_i id operator
      have silent : (fleet.assign id operator).1.transport = fleet.transport := by
        unfold Fleet.assign
        cases fleet.get id with
        | none => rfl
        | some unit => rfl
      rw [Call.perform, Commanded, silent] at commanded
      exact absurd commanded (not_commanded_self fleet mode)
  | engage =>
      rw [Call.perform, Fleet.engageAutonomy, commanded_setMode_iff needs] at commanded
      rw [commanded.1] at needs
      cases needs
      decide
  | take =>
      rw [Call.perform, Fleet.takeManualControl, commanded_setMode_iff needs] at commanded
      rw [commanded.1] at needs
      cases needs
      decide

end Commanding

/-- What a request asks of the fleet it asks through a tool, or on the `command` route. -/
theorem asks_cases {F : Type} [JsonNumber F] {R : Type} {req : Request} {tool : String}
    {call : Call R} (asks : Asks F req tool call) :
    ToolRuns tool call ∨ ∃ id mode, OnRoute req "command" id ∧
      requestedMode F req = some mode ∧ tool = "send_control" ∧ call = .setMode id mode := by
  cases asks with
  | assignRoute => exact .inl .assign
  | engageRoute => exact .inl .engage
  | takeRoute => exact .inl .take
  | commandRoute route named => exact .inr ⟨_, _, route, named, rfl, rfl⟩
  | tool _ runs => exact .inl runs

namespace FleetServer

variable {T R : Type} {p : Primitives} [SignatureBytes p.ed.Signature]

variable (F : Type) [JsonNumber F]

section Spec

variable [UnitTransport T] [Recorder R]

/-- If the request commands a unit into a mode that needs a permission, its caller holds it. -/
def LeastPrivilege (page : String) (gate : ZeroTrustBroker)
    (server : FleetServer (Observed T) R p) (req : Request) (around : Surroundings p) : Prop :=
  ∀ mode perm, modePermission mode = some perm →
    Commanded server.fleet (handleRequest F page server req around).1.fleet mode →
    CallerHolds p.ed gate req perm

/-- A caller with `SendControl` names in the body of a `command` request a mode whose own
permission it lacks, for a unit in another mode that can be brought there. -/
def Overreaches (gate : ZeroTrustBroker) (server : FleetServer (Observed T) R p) (req : Request)
    (around : Surroundings p) : Prop :=
  ∃ id mode perm unit path, OnRoute req "command" id ∧ requestedMode F req = some mode ∧
    modePermission mode = some perm ∧ CallerHolds p.ed gate req .sendControl ∧
    ¬ CallerHolds p.ed gate req perm ∧ server.fleet.get id = some unit ∧ unit.mode ≠ mode ∧
    server.fleet.pathVia unit.mode mode = some path ∧
    TakesAll around.clock unit.addr path 0 server.fleet.transport unit.cmdSeq

end Spec

variable {F} [UnitTransport T] [Recorder R]

/-- A `command` request that passes the gate runs `set_mode` with the mode of the body. -/
theorem handleRequest_command (page : String) {server : FleetServer T R p}
    {gate : ZeroTrustBroker} (installed : server.authz = some gate) {req : Request} {id : UInt64}
    (route : OnRoute req "command" id) {mode : Mode} (named : requestedMode F req = some mode)
    (holds : CallerHolds p.ed gate req .sendControl) (around : Surroundings p) :
    (handleRequest F page server req around).1.fleet =
      (server.fleet.setMode id mode around.clock).1 := by
  have opened : server.requireAuth req "send_control" = .ok () :=
    (requireAuth_eq_ok_iff installed req _).mpr ⟨.sendControl, by decide, holds⟩
  simp [handleRequest_addressed page route.addressed, route.plain, unitRoute, route.posted,
    route.acts, gated, opened, commandRoute, named, respond_fst]

/-- Least privilege, exactly. -/
theorem leastPrivilege_iff (page : String) {server : FleetServer (Observed T) R p}
    {gate : ZeroTrustBroker} (installed : server.authz = some gate) (req : Request)
    (around : Surroundings p) :
    LeastPrivilege F page gate server req around ↔ ¬ Overreaches F gate server req around := by
  constructor
  · rintro least ⟨id, mode, perm, unit, path, route, named, needs, holds, lacks, reachable⟩
    apply lacks
    apply least mode perm needs
    rw [handleRequest_command page installed route named holds around,
      commanded_setMode_iff needs]
    exact ⟨rfl, unit, path, reachable⟩
  · intro modest mode perm needs commanded
    have outcome : Outcome F server req around _ := outcome_handleRequest page
    generalize (handleRequest F page server req around).1 = after at outcome commanded
    cases outcome with
    | unchanged => exact absurd commanded (not_commanded_self _ _)
    | established => exact absurd commanded (not_commanded_self _ _)
    | dispatched asks admitted =>
        obtain ⟨granted, allowed, holds⟩ := admitted gate installed
        -- a tool named after a mode needs the permission of that mode; `command` does not
        rcases asks_cases asks with runs | ⟨id, target, route, named, rfl, rfl⟩
        · have same := dispatchPermission_of_commanded runs needs commanded
          cases same.symm.trans allowed
          exact holds
        · rw [Call.perform, commanded_setMode_iff needs] at commanded
          obtain ⟨rfl, unit, path, reachable⟩ := commanded
          have control : dispatchPermission "send_control" = some .sendControl := by decide
          cases control.symm.trans allowed
          by_contra lacks
          exact modest ⟨id, mode, perm, unit, path, route, named, needs, holds, lacks, reachable⟩

end FleetServer

section Instance

open Sec.Symbolic

/-- The agent asks on the `command` route for a mode. -/
def agentCommands (mode : String) : Request :=
  { postTo "command" (bearer (attests 1 .aiAgent 7)) with
    body := utf8 (Json.fieldText "mode" mode) }

theorem extractAttestation_agentCommands (mode : String) :
    extractAttestation (agentCommands mode) = some (attests 1 .aiAgent 7) :=
  extractAttestation_of_bearer (fromBytes_toBytes_sig 1 .aiAgent 7) rfl

/-- The agent holds a permission exactly if the default policy lists it. -/
theorem callerHolds_agentCommands (mode : String) (perm : Permission) :
    CallerHolds primitives.ed agentAndObserver (agentCommands mode) perm ↔
      Policy.default.roleHas .aiAgent perm = true := by
  have role : agentAndObserver.trust.roles 1 = some .aiAgent := by decide +kernel
  constructor
  · rintro ⟨attestation, extracted, -, enrolled, held, holds⟩
    cases (extractAttestation_agentCommands mode).symm.trans extracted
    cases role.symm.trans held
    exact holds
  · intro holds
    refine ⟨_, extractAttestation_agentCommands mode, ⟨by decide +kernel, ?_⟩, .aiAgent, role, holds⟩
    exact Attestation.verify_sign _ _

/-- The agent may engage the autonomy, on whichever route. -/
theorem leastPrivilege_auto :
    FleetServer.LeastPrivilege ℚ "" agentAndObserver gatedServer (agentCommands "auto")
      surroundings := by
  apply (FleetServer.leastPrivilege_iff "" rfl (agentCommands "auto") surroundings).mpr
  rintro ⟨id, mode, perm, unit, path, -, named, needs, -, lacks, -⟩
  have asked : requestedMode ℚ (agentCommands "auto") = some .auto := by decide +kernel
  cases asked.symm.trans named
  cases needs
  exact lacks ((callerHolds_agentCommands _ _).mpr (by decide))

/-- The agent may not take manual control, and yet commands its unit into teleoperation. -/
theorem agent_takes_control :
    ¬ FleetServer.LeastPrivilege ℚ "" agentAndObserver gatedServer (agentCommands "teleop")
      surroundings := by
  intro least
  have asked : requestedMode ℚ (agentCommands "teleop") = some .fullTeleop := by decide +kernel
  have route : OnRoute (agentCommands "teleop") "command" 1 :=
    ⟨rfl, by decide +kernel, by decide +kernel, by decide +kernel⟩
  have control := (callerHolds_agentCommands "teleop" .sendControl).mpr (by decide)
  have installed : gatedServer.authz = some agentAndObserver := rfl
  have moved := FleetServer.handleRequest_command "" installed route asked control surroundings
  have commanded : Commanded gatedServer.fleet
      (gatedServer.fleet.setMode 1 .fullTeleop surroundings.clock).1 .fullTeleop := by
    decide +kernel
  rw [← moved] at commanded
  have holds := (callerHolds_agentCommands _ _).mp (least .fullTeleop _ rfl commanded)
  exact absurd holds (by decide)

end Instance

end Teleop.Cloud
