import Mathlib.Data.List.Range
import Teleop.Cloud.Fleet
import Teleop.Lib.TransitionSystem
import Teleop.Lib.Walk

/-!
# The command stream of a unit

The fleet with a history: for each unit, the commands the transport accepted in the calls
made for it.  In every run the commands of a unit are numbered from 0 and their modes walk
along the transition table, to the mode the fleet has recorded.
-/

namespace Teleop.Cloud

open Teleop.Core Teleop.Link Teleop.Lib

/-- A command handed to the transport and what became of it. -/
structure Attempt where
  addr : SocketAddr
  cmd : Command
  accepted : Bool
  deriving DecidableEq

/-- A transport with everything it was asked to send. -/
structure Observed (T : Type) where
  inner : T
  attempts : List Attempt

instance {T : Type} [UnitTransport T] : UnitTransport (Observed T) where
  sendCommand transport addr cmd :=
    match UnitTransport.sendCommand transport.inner addr cmd with
    | (inner, .error failure) =>
        (⟨inner, transport.attempts ++ [⟨addr, cmd, false⟩]⟩, .error failure)
    | (inner, .ok ()) => (⟨inner, transport.attempts ++ [⟨addr, cmd, true⟩]⟩, .ok ())

/-- The commands a later state of the transport has accepted since an earlier one. -/
def Observed.acceptedSince {T : Type} (later earlier : Observed T) : List Command :=
  ((later.attempts.drop earlier.attempts.length).filter (·.accepted)).map (·.cmd)

/-- Calls of the fleet. -/
inductive Call (R : Type) where
  | registerUnit (id : UInt64) (addr : SocketAddr) (recorder : R)
  | ingest (id : UInt64) (addr : SocketAddr) (channel : UInt8) (seq : UInt64)
      (payload : List UInt8)
  | assign (id : UInt64) (operator : String)
  | setMode (id : UInt64) (target : Mode)
  | engageAutonomy (id : UInt64)
  | takeManualControl (id : UInt64)

namespace Call

variable {T R : Type}

/-- The unit a call is for. -/
def unit : Call R → UInt64
  | registerUnit id _ _ | ingest id _ _ _ _ | assign id _ | setMode id _ | engageAutonomy id
  | takeManualControl id => id

def perform [UnitTransport T] [Recorder R] (fleet : Fleet T R) (clock : Nat → UInt64) :
    Call R → Fleet T R × Except CloudError Unit
  | registerUnit id addr recorder => fleet.registerUnit id addr recorder clock
  | ingest id addr channel seq payload => fleet.ingest id addr channel seq payload clock
  | assign id operator => fleet.assign id operator
  | setMode id target => fleet.setMode id target clock
  | engageAutonomy id => fleet.engageAutonomy id clock
  | takeManualControl id => fleet.takeManualControl id clock

end Call

/-- A fleet and what the transport has accepted for each unit. -/
structure History (T R : Type) where
  fleet : Fleet (Observed T) R
  stream : UInt64 → List Command

namespace History

variable {T R : Type}

/-- A new fleet, with or without a directory for recordings. -/
def Initial (history : History T R) : Prop :=
  ∃ inner recordDir, history =
    ⟨{ Fleet.new ⟨inner, []⟩ with recordDir }, fun _ => []⟩

variable [UnitTransport T] [Recorder R]

/-- One call, and the readings of the clock during it. -/
def next (history : History T R) (action : Call R × (Nat → UInt64)) : Option (History T R) :=
  let id := action.1.unit
  let fleet := (action.1.perform history.fleet action.2).1
  let sent := fleet.transport.acceptedSince history.fleet.transport
  some ⟨fleet, Function.update history.stream id (history.stream id ++ sent)⟩

variable (T R) in
def system : TransitionSystem (History T R) (Call R × (Nat → UInt64)) := .ofNext Initial next

end History

section Table

/-- The edges of a transition table. -/
def Edge (table : TransitionTable) (source target : Mode) : Prop :=
  table.allows source target = true

variable {T R : Type}

/-- A path is a walk along the table. -/
theorem Fleet.walk_of_pathVia {fleet : Fleet T R} {source target : Mode} {path : List Mode}
    (found : fleet.pathVia source target = some path) :
    Walk (Edge fleet.table) source path target := by
  unfold pathVia at found
  split at found
  · rename_i same
    cases found
    rw [same]
    exact .nil target
  · split at found
    · rename_i direct
      cases found
      exact .single direct
    · split at found
      · rename_i staged
        cases found
        exact .cons staged.2.2.1 (.single staged.2.2.2)
      · cases found

end Table

section Following

variable {T R : Type}

/-- The commands of some segments, from the counter of the unit before them. -/
def issued (clock : Nat → UInt64) : List Mode → Nat → UInt64 → List Command
  | [], _, _ => []
  | next :: rest, passed, seq =>
      makeCommand next seq (clock passed) :: issued clock rest (passed + 1) (seq + 1)

/-- A unit after some accepted segments. -/
def UnitState.afterSegments (unit : UnitState R) (segments : List Mode) : UnitState R :=
  segments.foldl UnitState.advance unit

theorem map_seq_issued (clock : Nat → UInt64) (segments : List Mode) (passed start : Nat) :
    (issued clock segments passed (.ofNat start)).map (·.seq) =
      (List.range' start segments.length).map UInt64.ofNat := by
  induction segments generalizing passed start with
  | nil => rfl
  | cons next rest inductionHypothesis =>
      have following := inductionHypothesis (passed + 1) (start + 1)
      rw [UInt64.ofNat_add] at following
      simp only [issued, List.map_cons, List.length_cons, List.range'_succ]
      exact congrArg _ following

theorem map_mode_issued (clock : Nat → UInt64) (segments : List Mode) (passed : Nat)
    (seq : UInt64) :
    (issued clock segments passed seq).map (·.mode) = segments.map Mode.asU8 := by
  induction segments generalizing passed seq with
  | nil => rfl
  | cons next rest inductionHypothesis =>
      simp only [issued, List.map_cons, inductionHypothesis]
      rfl

theorem length_issued (clock : Nat → UInt64) (segments : List Mode) (passed : Nat)
    (seq : UInt64) : (issued clock segments passed seq).length = segments.length := by
  have modes := congrArg List.length (map_mode_issued clock segments passed seq)
  simpa using modes

theorem cmdSeq_afterSegments (unit : UnitState R) (segments : List Mode) (start : Nat)
    (counter : unit.cmdSeq = .ofNat start) :
    (unit.afterSegments segments).cmdSeq = .ofNat (start + segments.length) := by
  induction segments generalizing unit start with
  | nil => exact counter
  | cons next rest inductionHypothesis =>
      have stepped : (unit.advance next).cmdSeq = .ofNat (start + 1) := by
        simp [UnitState.advance, counter, UInt64.ofNat_add]
      have following := inductionHypothesis (unit.advance next) (start + 1) stepped
      rw [List.length_cons, Nat.add_comm rest.length, ← Nat.add_assoc]
      exact following

/-- Only the mode and the counter change, to the last accepted segment and by their number. -/
theorem afterSegments_eq (unit : UnitState R) (segments : List Mode) :
    unit.afterSegments segments = { unit with
      mode := segments.getLast?.getD unit.mode
      cmdSeq := unit.cmdSeq + .ofNat segments.length } := by
  induction segments generalizing unit with
  | nil => simp [UnitState.afterSegments]
  | cons next rest inductionHypothesis =>
      have following := inductionHypothesis (unit.advance next)
      have counter : unit.cmdSeq + 1 + UInt64.ofNat rest.length =
          unit.cmdSeq + UInt64.ofNat (rest.length + 1) := by
        rw [UInt64.ofNat_add, UInt64.add_assoc, UInt64.add_comm (.ofNat rest.length)]
        rfl
      have last : (next :: rest).getLast? = some (rest.getLast?.getD next) :=
        List.getLast?_cons
      simp only [UnitState.afterSegments, List.foldl_cons] at following ⊢
      rw [following, last]
      simp [UnitState.advance, counter]

theorem walk_afterSegments {edge : Mode → Mode → Prop} {unit : UnitState R}
    {segments : List Mode} {finish : Mode} (walk : Walk edge unit.mode segments finish) :
    (unit.afterSegments segments).mode = finish := by
  induction segments generalizing unit with
  | nil =>
      cases walk
      rfl
  | cons next rest inductionHypothesis =>
      cases walk with
      | cons _ remaining =>
          have advanced : Walk edge (unit.advance next).mode rest finish := remaining
          exact inductionHypothesis advanced

/-- What the loop of `set_mode` has done when it ends: the transport accepted one command for
each of `segments`, and perhaps refused one more. -/
structure Followed (clock : Nat → UInt64) (addr : SocketAddr) (path : List Mode) (passed : Nat)
    (before : Observed T) (unit : UnitState R)
    (outcome : Observed T × UnitState R × Except CloudError Unit) (segments : List Mode) :
    Prop where
  reached : segments <+: path
  unit_eq : outcome.2.1 = unit.afterSegments segments
  attempts : ∃ refused : List Attempt, (∀ attempt ∈ refused, attempt.accepted = false) ∧
    outcome.1.attempts = before.attempts ++
      (issued clock segments passed unit.cmdSeq).map (⟨addr, ·, true⟩) ++ refused
  finished : outcome.2.2 = .ok () → segments = path
  failed : ∀ {error}, outcome.2.2 = .error error →
    segments ≠ path ∧ ∃ text, error = .transport text

theorem exists_followed [UnitTransport T] (clock : Nat → UInt64) (addr : SocketAddr)
    (path : List Mode) (passed : Nat) (before : Observed T) (unit : UnitState R) :
    ∃ segments, Followed clock addr path passed before unit
      (Fleet.follow clock addr path passed before unit) segments := by
  induction path generalizing passed before unit with
  | nil =>
      refine ⟨[], List.nil_prefix, rfl, ⟨[], by simp, by simp [issued, Fleet.follow]⟩, fun _ => rfl,
        ?_⟩
      intro error failing
      cases failing
  | cons next rest inductionHypothesis =>
      let cmd := makeCommand next unit.cmdSeq (clock passed)
      rcases sent : UnitTransport.sendCommand before.inner addr cmd with ⟨inner, _ | _⟩
      · rename_i failure
        have refusal : Fleet.follow clock addr (next :: rest) passed before unit =
            (⟨inner, before.attempts ++ [⟨addr, cmd, false⟩]⟩, unit,
              .error (transportErr addr failure)) := by
          simp only [Fleet.follow, UnitTransport.sendCommand, cmd] at sent ⊢
          simp only [sent]
        rw [refusal]
        refine ⟨[], List.nil_prefix, rfl, ⟨[⟨addr, cmd, false⟩], by simp, by simp [issued]⟩,
          ?_, ?_⟩
        · intro success
          cases success
        · intro error failing
          cases failing
          exact ⟨(List.cons_ne_nil next rest).symm, _, rfl⟩
      · have acceptance : Fleet.follow clock addr (next :: rest) passed before unit =
            Fleet.follow clock addr rest (passed + 1)
              ⟨inner, before.attempts ++ [⟨addr, cmd, true⟩]⟩ (unit.advance next) := by
          simp only [Fleet.follow, UnitTransport.sendCommand, cmd] at sent ⊢
          simp only [sent]
        rw [acceptance]
        obtain ⟨segments, followed⟩ := inductionHypothesis (passed + 1)
          ⟨inner, before.attempts ++ [⟨addr, cmd, true⟩]⟩ (unit.advance next)
        obtain ⟨refused, unaccepted, attempts⟩ := followed.attempts
        refine ⟨next :: segments, List.cons_prefix_cons.mpr ⟨rfl, followed.reached⟩,
          followed.unit_eq, ⟨refused, unaccepted, ?_⟩, ?_, ?_⟩
        · rw [attempts, issued, List.map_cons]
          simp [cmd, UnitState.advance]
        · intro success
          rw [followed.finished success]
        · intro error failing
          obtain ⟨short, text⟩ := followed.failed failing
          exact ⟨fun whole => short (List.cons.inj whole).2, text⟩

theorem acceptedSince_of_attempts {before after : Observed T} {addr : SocketAddr}
    {commands : List Command} {refused : List Attempt}
    (unaccepted : ∀ attempt ∈ refused, attempt.accepted = false)
    (attempts : after.attempts = before.attempts ++ commands.map (⟨addr, ·, true⟩) ++ refused) :
    after.acceptedSince before = commands := by
  have dropped : refused.filter (·.accepted) = [] := by
    apply List.filter_eq_nil_iff.mpr
    intro attempt member
    simp [unaccepted attempt member]
  simp [Observed.acceptedSince, attempts, List.filter_append, dropped, List.filter_map,
    Function.comp_def]

@[simp] theorem acceptedSince_self (transport : Observed T) : transport.acceptedSince transport = [] := by
  simp [Observed.acceptedSince]

end Following

section Effects

variable {T R : Type}

/-- What a call does to the unit it is for, and the commands accepted on the way. -/
inductive UnitEffect (table : TransitionTable) :
    Option (UnitState R) → Option (UnitState R) → List Command → Prop
  | absent : UnitEffect table none none []
  | created {unit : UnitState R} :
      unit.mode = .assist → unit.cmdSeq = 0 → UnitEffect table none (some unit) []
  | moved {unit after : UnitState R} (clock : Nat → UInt64) (segments : List Mode) :
      Walk (Edge table) unit.mode segments after.mode →
      after.cmdSeq = (unit.afterSegments segments).cmdSeq →
      UnitEffect table (some unit) (some after) (issued clock segments 0 unit.cmdSeq)

/-- A unit whose mode and counter stay. -/
theorem UnitEffect.kept {table : TransitionTable} {unit after : UnitState R}
    (mode : after.mode = unit.mode) (cmdSeq : after.cmdSeq = unit.cmdSeq) :
    UnitEffect table (some unit) (some after) [] := by
  refine .moved (fun _ => 0) [] ?_ cmdSeq
  rw [mode]
  exact .nil unit.mode

/-- What a call does to the fleet. -/
structure Effect (id : UInt64) (before after : Fleet (Observed T) R) : Prop where
  table : after.table = before.table
  others : ∀ other, other ≠ id → after.get other = before.get other
  unit : UnitEffect before.table (before.get id) (after.get id)
    (after.transport.acceptedSince before.transport)

/-- A call that fails before it does anything. -/
theorem Effect.refused (id : UInt64) (fleet : Fleet (Observed T) R) : Effect id fleet fleet := by
  refine ⟨rfl, fun _ _ => rfl, ?_⟩
  rw [acceptedSince_self]
  cases fleet.get id with
  | none => exact .absent
  | some unit => exact .kept rfl rfl

/-- A call that writes the entry of its unit and sends nothing. -/
theorem Effect.put {id : UInt64} {fleet : Fleet (Observed T) R} {after : UnitState R}
    (unit : UnitEffect fleet.table (fleet.get id) (some after) []) :
    Effect id fleet (fleet.put id after) := by
  refine ⟨rfl, fun other different => fleet.get_put_of_ne after different, ?_⟩
  rw [Fleet.get_put, Fleet.transport_put, acceptedSince_self]
  exact unit

theorem effect_registerUnit (fleet : Fleet (Observed T) R) (id : UInt64) (addr : SocketAddr)
    (recorder : R) (clock : Nat → UInt64) :
    Effect id fleet (fleet.registerUnit id addr recorder clock).1 := by
  unfold Fleet.registerUnit
  cases held : fleet.get id with
  | some unit => exact .refused id fleet
  | none =>
      apply Effect.put
      rw [held]
      exact .created rfl rfl

theorem effect_assign (fleet : Fleet (Observed T) R) (id : UInt64) (operator : String) :
    Effect id fleet (fleet.assign id operator).1 := by
  unfold Fleet.assign
  cases held : fleet.get id with
  | none => exact .refused id fleet
  | some unit =>
      apply Effect.put
      rw [held]
      exact .kept rfl rfl

/-- Writing an entry twice is writing it once. -/
theorem Fleet.put_put (fleet : Fleet T R) (id : UInt64) (first second : UnitState R) :
    (fleet.put id first).put id second = fleet.put id second := by
  simp [Fleet.put, AList.insert_insert]

theorem effect_ingest [Recorder R] (fleet : Fleet (Observed T) R) (id : UInt64)
    (addr : SocketAddr) (channel : UInt8) (seq : UInt64) (payload : List UInt8)
    (clock : Nat → UInt64) :
    Effect id fleet (fleet.ingest id addr channel seq payload clock).1 := by
  have contact : ∀ after : UnitState R,
      after.mode = (fleet.provision id addr (clock 0)).2.mode →
      after.cmdSeq = (fleet.provision id addr (clock 0)).2.cmdSeq →
      Effect id fleet ((fleet.provision id addr (clock 0)).1.put id after) := by
    intro after mode cmdSeq
    unfold Fleet.provision at mode cmdSeq ⊢
    rw [Fleet.put_put]
    apply Effect.put
    cases held : fleet.get id with
    | none =>
        rw [held] at mode cmdSeq
        exact .created mode cmdSeq
    | some unit =>
        rw [held] at mode cmdSeq
        exact .kept mode cmdSeq
  unfold Fleet.ingest
  split
  rename_i provisioned unit contacted
  rw [contacted] at contact
  dsimp only
  split
  · exact contact _ rfl rfl
  · exact contact _ rfl rfl

theorem effect_setMode [UnitTransport T] (fleet : Fleet (Observed T) R) (id : UInt64)
    (target : Mode) (clock : Nat → UInt64) :
    Effect id fleet (fleet.setMode id target clock).1 := by
  unfold Fleet.setMode
  cases held : fleet.get id with
  | none => exact .refused id fleet
  | some unit =>
      simp only
      cases found : fleet.pathVia unit.mode target with
      | none => exact .refused id fleet
      | some path =>
          obtain ⟨segments, followed⟩ :=
            exists_followed clock unit.addr path 0 fleet.transport unit
          obtain ⟨refused, unaccepted, attempts⟩ := followed.attempts
          obtain ⟨finish, walk⟩ := (Fleet.walk_of_pathVia found).initialPart followed.reached
          refine ⟨rfl, ?_, ?_⟩
          · intro other different
            exact Fleet.get_put_of_ne _ _ different
          · rw [held, Fleet.get_put, Fleet.transport_put,
              acceptedSince_of_attempts unaccepted attempts, followed.unit_eq]
            refine .moved clock segments ?_ rfl
            rw [walk_afterSegments walk]
            exact walk

/-- The effect of every call. -/
theorem effect_perform [UnitTransport T] [Recorder R] (call : Call R)
    (fleet : Fleet (Observed T) R) (clock : Nat → UInt64) :
    Effect call.unit fleet (call.perform fleet clock).1 := by
  cases call with
  | registerUnit id addr recorder => exact effect_registerUnit fleet id addr recorder clock
  | ingest id addr channel seq payload =>
      exact effect_ingest fleet id addr channel seq payload clock
  | assign id operator => exact effect_assign fleet id operator
  | setMode id target => exact effect_setMode fleet id target clock
  | engageAutonomy id => exact effect_setMode fleet id .auto clock
  | takeManualControl id => exact effect_setMode fleet id .fullTeleop clock

end Effects

section Streams

variable {T R : Type}

/-- The accepted commands of a unit are numbered from 0, their modes walk from `assist` to the
recorded mode, and the counter is their number. -/
structure InStep (table : TransitionTable) (stream : List Command) (unit : UnitState R) :
    Prop where
  numbered : stream.map (·.seq) = (List.range stream.length).map UInt64.ofNat
  walk : ∃ modes, stream.map (·.mode) = modes.map Mode.asU8 ∧
    Walk (Edge table) .assist modes unit.mode
  counter : unit.cmdSeq = .ofNat stream.length

/-- A registered unit is in step with its stream; nothing was sent for any other id. -/
def Sound (table : TransitionTable) (stream : List Command) : Option (UnitState R) → Prop
  | none => stream = []
  | some unit => InStep table stream unit

theorem InStep.created (table : TransitionTable) {unit : UnitState R}
    (mode : unit.mode = .assist) (cmdSeq : unit.cmdSeq = 0) : InStep table [] unit := by
  refine ⟨rfl, ⟨[], rfl, ?_⟩, cmdSeq⟩
  rw [mode]
  exact .nil Mode.assist

theorem InStep.moved {table : TransitionTable} {stream : List Command} {unit after : UnitState R}
    (inStep : InStep table stream unit) (clock : Nat → UInt64) {segments : List Mode}
    (walk : Walk (Edge table) unit.mode segments after.mode)
    (counter : after.cmdSeq = (unit.afterSegments segments).cmdSeq) :
    InStep table (stream ++ issued clock segments 0 unit.cmdSeq) after := by
  obtain ⟨modes, streamed, walked⟩ := inStep.walk
  refine ⟨?_, ⟨modes ++ segments, ?_, walked.append walk⟩, ?_⟩
  · rw [List.map_append, inStep.numbered, inStep.counter, map_seq_issued, ← List.map_append,
      List.length_append, length_issued]
    congr 1
    have joined := List.range'_append_1 (s := 0) (m := stream.length) (n := segments.length)
    simpa [List.range_eq_range'] using joined
  · rw [List.map_append, streamed, map_mode_issued, List.map_append]
  · rw [counter, cmdSeq_afterSegments unit segments stream.length inStep.counter,
      List.length_append, length_issued]

theorem Sound.after {table : TransitionTable} {stream sent : List Command}
    {before after : Option (UnitState R)} (sound : Sound table stream before)
    (effect : UnitEffect table before after sent) : Sound table (stream ++ sent) after := by
  cases effect with
  | absent =>
      rw [List.append_nil]
      exact sound
  | created mode cmdSeq =>
      rw [List.append_nil, show stream = [] from sound]
      exact .created table mode cmdSeq
  | moved clock segments walk counter =>
      exact InStep.moved sound clock walk counter

variable [UnitTransport T] [Recorder R]

/-- Every unit of a reachable fleet is in step with its stream. -/
theorem sound_of_reachable {history : History T R}
    (reached : (History.system T R).Reachable history) :
    history.fleet.table = .specDefault ∧
      ∀ id, Sound .specDefault (history.stream id) (history.fleet.get id) := by
  apply reached.invariant (P := fun history => history.fleet.table = .specDefault ∧
    ∀ id, Sound .specDefault (history.stream id) (history.fleet.get id))
  · rintro history ⟨inner, recordDir, rfl⟩
    exact ⟨rfl, fun id => rfl⟩
  · rintro history ⟨call, clock⟩ after ⟨table, sound⟩ step
    have effect := effect_perform call history.fleet clock
    cases step
    refine ⟨effect.table.trans table, ?_⟩
    intro id
    dsimp only
    by_cases same : id = call.unit
    · subst same
      rw [Function.update_self]
      have moved := effect.unit
      rw [table] at moved
      exact (sound call.unit).after moved
    · rw [Function.update_of_ne same]
      have kept := effect.others id same
      exact kept ▸ sound id

end Streams

section Refusals

variable {T R : Type} [UnitTransport T]

/-- A mode change the transport ends midway: the commands of some first segments of the path
were accepted, and the unit is left at the last of them. -/
structure EndedMidway (id : UInt64) (target : Mode) (clock : Nat → UInt64)
    (before after : Fleet (Observed T) R) : Prop where
  unit : ∃ unit path segments, before.get id = some unit ∧
    before.pathVia unit.mode target = some path ∧ segments <+: path ∧ segments ≠ path ∧
    after.transport.acceptedSince before.transport = issued clock segments 0 unit.cmdSeq ∧
    after.get id = some { unit with
      mode := segments.getLast?.getD unit.mode
      cmdSeq := unit.cmdSeq + .ofNat segments.length }
  others : ∀ other, other ≠ id → after.get other = before.get other

theorem setMode_refused {fleet : Fleet (Observed T) R} {id : UInt64} {target : Mode}
    {clock : Nat → UInt64} {error : CloudError}
    (refused : (fleet.setMode id target clock).2 = .error error)
    (untransported : ∀ text, error ≠ .transport text) :
    (fleet.setMode id target clock).1 = fleet := by
  unfold Fleet.setMode at refused ⊢
  cases held : fleet.get id with
  | none => rfl
  | some unit =>
      simp only [held] at refused ⊢
      cases found : fleet.pathVia unit.mode target with
      | none => rfl
      | some path =>
          simp only [found] at refused
          obtain ⟨segments, followed⟩ :=
            exists_followed clock unit.addr path 0 fleet.transport unit
          obtain ⟨-, text, transported⟩ := followed.failed refused
          exact absurd transported (untransported text)

theorem setMode_endedMidway {fleet : Fleet (Observed T) R} {id : UInt64} {target : Mode}
    {clock : Nat → UInt64} {text : String}
    (failed : (fleet.setMode id target clock).2 = .error (.transport text)) :
    EndedMidway id target clock fleet (fleet.setMode id target clock).1 := by
  refine ⟨?_, (effect_setMode fleet id target clock).others⟩
  unfold Fleet.setMode at failed ⊢
  cases held : fleet.get id with
  | none =>
      rw [held] at failed
      cases failed
  | some unit =>
      simp only [held] at failed ⊢
      cases found : fleet.pathVia unit.mode target with
      | none =>
          rw [found] at failed
          cases failed
      | some path =>
          simp only [found] at failed ⊢
          obtain ⟨segments, followed⟩ :=
            exists_followed clock unit.addr path 0 fleet.transport unit
          obtain ⟨refused, unaccepted, attempts⟩ := followed.attempts
          refine ⟨unit, path, segments, rfl, found, followed.reached, (followed.failed failed).1,
            ?_, ?_⟩
          · exact acceptedSince_of_attempts unaccepted attempts
          · rw [Fleet.get_put, followed.unit_eq, afterSegments_eq]

variable [Recorder R]

/-- In every run, whatever the transport refuses: the stream of each unit is sound, a mode
change refused by the fleet does nothing, and one the transport ends leaves the unit at the
last accepted segment. -/
theorem commandStream_of_reachable {history : History T R}
    (reached : (History.system T R).Reachable history) (id : UInt64) :
    Sound .specDefault (history.stream id) (history.fleet.get id) ∧
      ∀ target clock,
        ((history.fleet.setMode id target clock).2 = .error (.notFound id) ∨
            (∃ source, (history.fleet.setMode id target clock).2 =
              .error (.modeDisallowed source target)) →
          (history.fleet.setMode id target clock).1 = history.fleet) ∧
        ∀ text, (history.fleet.setMode id target clock).2 = .error (.transport text) →
          EndedMidway id target clock history.fleet
            (history.fleet.setMode id target clock).1 := by
  refine ⟨(sound_of_reachable reached).2 id, fun target clock => ⟨?_, ?_⟩⟩
  · rintro (refused | ⟨source, refused⟩)
    · exact setMode_refused refused nofun
    · exact setMode_refused refused nofun
  · intro text failed
    exact setMode_endedMidway failed

end Refusals

section Witness

/-- A transport that refuses by a list; past its end it accepts. -/
structure Scripted where
  outcomes : List Bool

instance : UnitTransport Scripted where
  sendCommand transport _ _ :=
    (⟨transport.outcomes.tail⟩,
      if transport.outcomes.head?.getD true then .ok () else .error "unreachable")

/-- `Auto`, then `FullTeleop`, ended after its first segment, from a new address. -/
def interruptedCalls : List (Call NullRecorder × (Nat → UInt64)) :=
  [(.registerUnit 1 ⟨.v4 0x7F000001, 5000⟩ ⟨0⟩, fun _ => 1),
    (.engageAutonomy 1, fun _ => 2),
    (.ingest 1 ⟨.v4 0x7F000001, 5001⟩ 2 9 [], fun _ => 3),
    (.takeManualControl 1, fun _ => 4),
    (.takeManualControl 1, fun _ => 5)]

def scriptedStart : History Scripted NullRecorder :=
  ⟨Fleet.new ⟨⟨[true, true, false]⟩, []⟩, fun _ => []⟩

def interrupted : History Scripted NullRecorder :=
  interruptedCalls.foldl (fun history action => (history.next action).getD history)
    scriptedStart

theorem interrupted_commandStream :
    (interrupted.stream 1).map (·.mode) =
        [Mode.auto, Mode.assist, Mode.fullTeleop].map Mode.asU8 ∧
      Sound .specDefault (interrupted.stream 1) (interrupted.fleet.get 1) := by
  have start : History.Initial scriptedStart := ⟨_, none, rfl⟩
  have performed : TransitionSystem.perform History.next scriptedStart interruptedCalls =
      some interrupted := rfl
  have reached : (History.system Scripted NullRecorder).Reachable interrupted :=
    TransitionSystem.reachable_of_perform start performed
  exact ⟨by decide +kernel, (commandStream_of_reachable reached 1).1⟩

end Witness

end Teleop.Cloud
