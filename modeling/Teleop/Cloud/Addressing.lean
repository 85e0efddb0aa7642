import Teleop.Cloud.CommandStream
import Teleop.Cloud.UnitNumbers

/-!
# Which unit a dispatch reaches

A tool call names its unit by a number.  It acts on the unit whose id the number is
converted to, so on the unit that was meant only if the number is an id that is kept, or if
the call comes to nothing anyway.
-/

namespace Teleop.Cloud

open Teleop.Core Teleop.Lib Teleop.Link Teleop.Sec

/-- What a call comes to for the unit it is made for. -/
inductive Reach where
  | refused
  | idle
  | acts
  deriving DecidableEq

namespace Reach

variable {T R : Type}

/-- An operator is assigned to a unit there is, and has none of that name yet. -/
def ofAssign (fleet : Fleet T R) (id : UInt64) (operator : Option String) : Reach :=
  match operator, fleet.get id with
  | some operator, some unit => if unit.assignedOperator = some operator then idle else acts
  | _, _ => refused

/-- A unit moves once the transport takes the first command of a path. -/
def ofCommand [UnitTransport T] (fleet : Fleet T R) (id : UInt64) (target : Mode)
    (clock : Nat → UInt64) : Reach :=
  match fleet.get id with
  | none => refused
  | some unit =>
      match fleet.pathVia unit.mode target with
      | none => refused
      | some [] => idle
      | some (next :: _) =>
          match (UnitTransport.sendCommand fleet.transport unit.addr
            (makeCommand next unit.cmdSeq (clock 0))).2 with
          | .error _ => refused
          | .ok () => acts

/-- What a tool comes to after the gate. -/
def ofTool [UnitTransport T] (name : String) (fleet : Fleet T R) (id : UInt64)
    (operator : Option String) (clock : Nat → UInt64) : Reach :=
  if name = "assign_unit" then ofAssign fleet id operator
  else if name = "engage_autonomy" then ofCommand fleet id .auto clock
  else ofCommand fleet id .fullTeleop clock

def ofCall [UnitTransport T] (name : String) (fleet : Fleet T R) (id : UInt64)
    (operator : Option String) (auth : Option (ZeroTrustBroker × Principal))
    (clock : Nat → UInt64) : Reach :=
  match auth with
  | none => ofTool name fleet id operator clock
  | some (gate, principal) =>
      if gate.authorizeTool principal name then ofTool name fleet id operator clock else refused

/-- The outcome for the fleet, with or without an error, is that of a call for unit `id`. -/
def Describes (reach : Reach) (id : UInt64) (fleet after : Fleet T R) (failed : Bool) : Prop :=
  (∀ other, other ≠ id → after.get other = fleet.get other) ∧
    match reach with
    | refused => failed = true ∧ after.get id = fleet.get id
    | idle => failed = false ∧ after.get id = fleet.get id
    | acts => after.get id ≠ fleet.get id

end Reach

section Fleet

variable {T R : Type}

theorem Fleet.get_put_same (fleet : Fleet T R) {id : UInt64} {unit : UnitState R}
    (present : fleet.get id = some unit) (other : UInt64) :
    (fleet.put id unit).get other = fleet.get other := by
  by_cases same : other = id
  · rw [same, Fleet.get_put, present]
  · exact Fleet.get_put_of_ne fleet unit same

theorem describes_assign (fleet : Fleet T R) (id : UInt64) (operator : String) :
    (Reach.ofAssign fleet id (some operator)).Describes id fleet (fleet.assign id operator).1
      (!(fleet.assign id operator).2.isOk) := by
  unfold Reach.ofAssign Fleet.assign
  cases present : fleet.get id with
  | none => exact ⟨fun _ _ => rfl, rfl, rfl⟩
  | some unit =>
      refine ⟨fun other different => Fleet.get_put_of_ne fleet _ different, ?_⟩
      dsimp only
      by_cases assigned : unit.assignedOperator = some operator
      · rw [if_pos assigned, ← assigned]
        exact ⟨rfl, Fleet.get_put_same fleet present id⟩
      · rw [if_neg assigned, Fleet.get_put, present]
        intro same
        injection same with same
        exact assigned (congrArg UnitState.assignedOperator same).symm

theorem Fleet.length_pathVia {fleet : Fleet T R} {source target : Mode} {path : List Mode}
    (found : fleet.pathVia source target = some path) : path.length ≤ 2 := by
  unfold pathVia at found
  split_ifs at found <;> cases found <;> simp

variable [UnitTransport T]

/-- The unit has moved along the segments the transport took. -/
theorem Fleet.follow_unit (clock : Nat → UInt64) (addr : SocketAddr) (path : List Mode)
    (passed : Nat) (transport : T) (unit : UnitState R) :
    ∃ segments, segments.length ≤ path.length ∧
      (follow clock addr path passed transport unit).2.1 = unit.afterSegments segments := by
  induction path generalizing passed transport unit with
  | nil => exact ⟨[], Nat.le_refl _, rfl⟩
  | cons next rest inductionHypothesis =>
      rw [follow]
      rcases UnitTransport.sendCommand transport addr
        (makeCommand next unit.cmdSeq (clock passed)) with ⟨after, failure | success⟩
      · exact ⟨[], Nat.zero_le _, rfl⟩
      · obtain ⟨segments, short, moved⟩ :=
          inductionHypothesis (passed + 1) after (unit.advance next)
        exact ⟨next :: segments, Nat.succ_le_succ short, moved⟩

/-- One or two accepted commands leave a mark on the counter. -/
theorem Fleet.follow_moves {clock : Nat → UInt64} {addr : SocketAddr} {next : Mode}
    {rest : List Mode} {transport : T} {unit : UnitState R}
    (sent : (UnitTransport.sendCommand transport addr
      (makeCommand next unit.cmdSeq (clock 0))).2 = .ok ()) (short : rest.length ≤ 1) :
    (follow clock addr (next :: rest) 0 transport unit).2.1 ≠ unit := by
  rcases accepted : UnitTransport.sendCommand transport addr
    (makeCommand next unit.cmdSeq (clock 0)) with ⟨after, result⟩
  rw [accepted] at sent
  cases sent
  have first : follow clock addr (next :: rest) 0 transport unit =
      follow clock addr rest 1 after (unit.advance next) := by
    rw [follow, accepted]
  obtain ⟨segments, few, moved⟩ := follow_unit clock addr rest 1 after (unit.advance next)
  intro same
  rw [first, moved, afterSegments_eq] at same
  have counter : unit.cmdSeq + 1 + UInt64.ofNat segments.length = unit.cmdSeq :=
    congrArg UnitState.cmdSeq same
  have value := congrArg UInt64.toNat counter
  simp only [UInt64.toNat_add, UInt64.toNat_ofNat', UInt64.toNat_one] at value
  omega

theorem describes_setMode (fleet : Fleet T R) (id : UInt64) (target : Mode)
    (clock : Nat → UInt64) :
    (Reach.ofCommand fleet id target clock).Describes id fleet (fleet.setMode id target clock).1
      (!(fleet.setMode id target clock).2.isOk) := by
  unfold Reach.ofCommand Fleet.setMode
  cases present : fleet.get id with
  | none => exact ⟨fun _ _ => rfl, rfl, rfl⟩
  | some unit =>
      dsimp only
      cases found : fleet.pathVia unit.mode target with
      | none => exact ⟨fun _ _ => rfl, rfl, present ▸ rfl⟩
      | some path =>
          refine ⟨fun other different => Fleet.get_put_of_ne _ _ different, ?_⟩
          rw [Fleet.get_put, present]
          cases path with
          | nil => exact ⟨rfl, rfl⟩
          | cons next rest =>
              have short := Fleet.length_pathVia found
              cases sent : (UnitTransport.sendCommand fleet.transport unit.addr
                (makeCommand next unit.cmdSeq (clock 0))).2 with
              | error failure =>
                  rcases refused : UnitTransport.sendCommand fleet.transport unit.addr
                    (makeCommand next unit.cmdSeq (clock 0)) with ⟨after, result⟩
                  rw [refused] at sent
                  cases sent
                  simp only [Fleet.follow, refused]
                  exact ⟨rfl, trivial⟩
              | ok success =>
                  simp only [sent]
                  intro same
                  injection same with same
                  exact Fleet.follow_moves sent (Nat.le_of_succ_le_succ short) same

end Fleet

section Call

variable {T R : Type}

/-- The arguments of a call, as `handle` takes them. -/
def callArguments {F : Type} (request : Json F) : Json F :=
  (((request.get "params").getD .null).get "arguments").getD .null

/-- A call to act on the unit that the exact number `number` stands for. -/
structure Dispatches (request : Json ℚ) (number : ℚ) : Prop where
  method : (request.get "method").bind Json.asStr = some "tools/call"
  tool : McpServer.toolName request ∈ ["assign_unit", "engage_autonomy", "take_manual_control"]
  unitId : (callArguments request).get "unit_id" = some (.num number)

/-- The operator a call names. -/
def namedOperator (request : Json ℚ) : Option String :=
  ((callArguments request).get "operator").bind Json.asStr

def IsFailure {F : Type} (response : Json F) : Bool := (response.get "error").isSome

/-- The answer to a call about `number` touches no other unit, and a number that is no id is
refused. -/
structure OnlyAddressed {F : Type} (number : ℚ) (fleet : Fleet T R)
    (answered : Fleet T R × Json F) : Prop where
  addressee : ∀ id, answered.1.get id ≠ fleet.get id → (id.toNat : ℚ) = number
  rejected : (∀ id : UInt64, (id.toNat : ℚ) ≠ number) →
    IsFailure answered.2 = true ∧ ∀ id, answered.1.get id = fleet.get id

/-- A call is right if it reaches the unit that was meant, or comes to nothing. -/
theorem Reach.Describes.onlyAddressed_iff {F : Type} {reach : Reach} {number : ℚ}
    {fleet : Fleet T R} {answered : Fleet T R × Json F}
    (described : reach.Describes (addressed number) fleet answered.1 (IsFailure answered.2)) :
    OnlyAddressed number fleet answered ↔ (∃ id : UInt64, (id.toNat : ℚ) = number ∧ KeptId id) ∨
      reach = .refused ∨ reach = .idle ∧ ∃ id : UInt64, (id.toNat : ℚ) = number := by
  obtain ⟨others, own⟩ := described
  rw [← addressed_eq_iff]
  constructor
  · rintro ⟨addressee, rejected⟩
    cases reach with
    | refused => exact .inr (.inl rfl)
    | idle =>
        refine .inr (.inr ⟨rfl, ?_⟩)
        by_contra none
        push Not at none
        rw [(rejected none).1] at own
        exact Bool.noConfusion own.1
    | acts => exact .inl (addressee _ own)
  · intro right
    have unmoved : reach ≠ .acts → ∀ id, answered.1.get id = fleet.get id := by
      intro nothing id
      by_cases same : id = addressed number
      · rw [same]
        cases reach with
        | refused => exact own.2
        | idle => exact own.2
        | acts => exact absurd rfl nothing
      · exact others id same
    refine ⟨?_, ?_⟩
    · intro id changed
      rcases right with exact | rfl | ⟨rfl, _⟩
      · have same : id = addressed number := by
          by_contra other
          exact changed (others id other)
        rw [same, exact]
      · exact absurd (unmoved (by decide) id) changed
      · exact absurd (unmoved (by decide) id) changed
    · intro none
      rcases right with exact | rfl | ⟨rfl, id, exact⟩
      · exact absurd exact (none _)
      · exact ⟨own.1, unmoved (by decide)⟩
      · exact absurd exact (none id)

section Rounded

variable {F G : Type} (f : F → G)

theorem getD_map (json : Option (Json F)) :
    (json.map (Json.map f)).getD .null = (json.getD .null).map f := by
  cases json <;> rfl

theorem callArguments_map (request : Json F) :
    callArguments (request.map f) = (callArguments request).map f := by
  simp only [callArguments, Json.get_map, getD_map]

theorem asStr_bind_map (json : Option (Json F)) :
    (json.map (Json.map f)).bind Json.asStr = json.bind Json.asStr := by
  cases json <;> simp

theorem toolName_map [JsonNumber F] [JsonNumber G] (request : Json F) :
    McpServer.toolName (request.map f) = McpServer.toolName request := by
  have named : ((request.map f).get "params").bind (Json.get · "name") =
      ((request.get "params").bind (Json.get · "name")).map (Json.map f) := by
    rw [Json.get_map]
    cases request.get "params" <;> simp
  rw [McpServer.toolName, McpServer.toolName, named, asStr_bind_map]

end Rounded

theorem describes_assignUnit {args id : Json Binary64} {fleet : Fleet T R} {unitId : UInt64}
    (given : (args.get "unit_id").bind Json.asU64 = some unitId) :
    (Reach.ofAssign fleet unitId ((args.get "operator").bind Json.asStr)).Describes unitId fleet
      (McpServer.assignUnit args id fleet).1 (IsFailure (McpServer.assignUnit args id fleet).2) := by
  unfold McpServer.assignUnit
  rw [given]
  cases (args.get "operator").bind Json.asStr with
  | none => exact ⟨fun _ _ => rfl, rfl, rfl⟩
  | some operator =>
      have described := describes_assign fleet unitId operator
      dsimp only
      generalize fleet.assign unitId operator = outcome at described ⊢
      obtain ⟨after, failure | success⟩ := outcome
      · exact described
      · exact described

variable [UnitTransport T]

theorem describes_changeMode {args id : Json Binary64} {fleet : Fleet T R} {unitId : UInt64}
    {name : String} {target : Mode} (given : (args.get "unit_id").bind Json.asU64 = some unitId)
    (named : (name = "engage_autonomy" ∧ target = .auto) ∨
      (name = "take_manual_control" ∧ target = .fullTeleop)) (clock : Nat → UInt64) :
    (Reach.ofCommand fleet unitId target clock).Describes unitId fleet
      (McpServer.changeMode name args id fleet clock).1
      (IsFailure (McpServer.changeMode name args id fleet clock).2) := by
  have described := describes_setMode fleet unitId target clock
  have call : (if name = "engage_autonomy" then fleet.engageAutonomy unitId clock
      else fleet.takeManualControl unitId clock) = fleet.setMode unitId target clock := by
    rcases named with ⟨rfl, rfl⟩ | ⟨rfl, rfl⟩
    · rfl
    · rfl
  unfold McpServer.changeMode
  rw [given]
  simp only [call]
  generalize fleet.setMode unitId target clock = outcome at described ⊢
  obtain ⟨after, failure | success⟩ := outcome
  · exact described
  · exact described

variable [Recorder R]

theorem describes_handle {request : Json ℚ} {number : ℚ} (dispatches : Dispatches request number)
    (fleet : Fleet T R) (auth : Option (ZeroTrustBroker × Principal)) (clock : Nat → UInt64) :
    (Reach.ofCall (McpServer.toolName request) fleet (addressed number) (namedOperator request)
      auth clock).Describes (addressed number) fleet
      (McpServer.handle (request.map Binary64.round) fleet auth clock).1
      (IsFailure (McpServer.handle (request.map Binary64.round) fleet auth clock).2) := by
  have method : (((request.map Binary64.round).get "method").bind Json.asStr).getD "" =
      "tools/call" := by
    rw [Json.get_map, asStr_bind_map, dispatches.method, Option.getD_some]
  have unitId : (((callArguments request).map Binary64.round).get "unit_id").bind Json.asU64 =
      some (addressed number) := by
    rw [Json.get_map, dispatches.unitId]
    rfl
  have operator : (((callArguments request).map Binary64.round).get "operator").bind Json.asStr =
      namedOperator request := by
    rw [Json.get_map, asStr_bind_map, namedOperator]
  have handled : McpServer.handle (request.map Binary64.round) fleet auth clock =
      McpServer.callTool (McpServer.toolName request)
        ((callArguments request).map Binary64.round) fleet
        (((request.map Binary64.round).get "id").getD .null) auth clock := by
    simp only [McpServer.handle, method, toolName_map, ← callArguments_map]
    rfl
  rw [handled]
  generalize ((request.map Binary64.round).get "id").getD .null = id
  generalize (callArguments request).map Binary64.round = args at unitId operator
  have ran : (Reach.ofTool (McpServer.toolName request) fleet (addressed number)
      (namedOperator request) clock).Describes (addressed number) fleet
      (McpServer.runTool (McpServer.toolName request) args id fleet clock).1
      (IsFailure (McpServer.runTool (McpServer.toolName request) args id fleet clock).2) := by
    have tool := dispatches.tool
    simp only [List.mem_cons, List.not_mem_nil, or_false] at tool
    rcases tool with assign | engage | take
    · rw [assign, ← operator]
      exact describes_assignUnit unitId
    · rw [engage]
      exact describes_changeMode unitId (.inl ⟨rfl, rfl⟩) clock
    · rw [take]
      exact describes_changeMode unitId (.inr ⟨rfl, rfl⟩) clock
  unfold Reach.ofCall McpServer.callTool
  cases auth with
  | none => exact ran
  | some auth =>
      obtain ⟨gate, principal⟩ := auth
      dsimp only
      split
      · exact ran
      · exact ⟨fun _ _ => rfl, rfl, rfl⟩

/-- A call reaches only the unit whose id its number is, exactly if the number is an id that is
kept, or the call comes to nothing; and the number of a listed unit, sent back, addresses the
unit exactly if its id is kept. -/
theorem dispatch_addresses_iff :
    (∀ (body : List UInt8) (request : Json ℚ) (number : ℚ) (fleet : Fleet T R)
      (auth : Option (ZeroTrustBroker × Principal)) (clock : Nat → UInt64),
      Json.parse body = .ok request → Dispatches request number →
      ∃ parsed : Json Binary64, Json.parse body = .ok parsed ∧
        (OnlyAddressed number fleet (McpServer.handle parsed fleet auth clock) ↔
          (∃ id : UInt64, (id.toNat : ℚ) = number ∧ KeptId id) ∨
          let reach := Reach.ofCall (McpServer.toolName request) fleet (addressed number)
            (namedOperator request) auth clock
          reach = .refused ∨ reach = .idle ∧ ∃ id : UInt64, (id.toNat : ℚ) = number)) ∧
    ∀ (info : UnitInfo) (operator : String),
      returned info operator = some info.id ↔ KeptId info.id := by
  constructor
  · intro body request number fleet auth clock written dispatches
    have parsed := Json.parse_round body
    rw [written] at parsed
    exact ⟨_, parsed, (describes_handle dispatches fleet auth clock).onlyAddressed_iff⟩
  · intro info operator
    rw [returned_eq, Option.some.injEq]
    exact addressed_id_iff info.id

end Call

section Assigning

/-- A call that assigns an operator to the unit of a number. -/
def assignText (number : String) : String :=
  "\x7b\"method\":\"tools/call\",\"params\":\x7b\"name\":\"assign_unit\"," ++
    "\"arguments\":\x7b\"unit_id\":" ++ number ++ ",\"operator\":\"op\"\x7d\x7d\x7d"

def assignBody (number : String) : List UInt8 := utf8 (assignText number)

/-- The exact reading of a body. -/
def requestOf (body : List UInt8) : Json ℚ :=
  match (Json.parse body : Except String (Json ℚ)) with
  | .ok request => request
  | .error _ => .null

def numberOf : Option (Json ℚ) → Option ℚ
  | some (.num number) => some number
  | _ => none

/-- A body is read as a call about `number`. -/
def CallsAbout (body : List UInt8) (number : ℚ) : Prop :=
  (Json.parse body : Except String (Json ℚ)).isOk = true ∧
    ((requestOf body).get "method").bind Json.asStr = some "tools/call" ∧
    McpServer.toolName (requestOf body) ∈
      ["assign_unit", "engage_autonomy", "take_manual_control"] ∧
    numberOf ((callArguments (requestOf body)).get "unit_id") = some number

instance (body : List UInt8) (number : ℚ) : Decidable (CallsAbout body number) := by
  unfold CallsAbout
  infer_instance

theorem CallsAbout.written {body : List UInt8} {number : ℚ} (about : CallsAbout body number) :
    Json.parse body = .ok (requestOf body) := by
  have ok := about.1
  unfold requestOf
  cases read : (Json.parse body : Except String (Json ℚ)) with
  | error text =>
      rw [read] at ok
      cases ok
  | ok request => rfl

theorem CallsAbout.dispatches {body : List UInt8} {number : ℚ} (about : CallsAbout body number) :
    Dispatches (requestOf body) number := by
  obtain ⟨-, method, tool, given⟩ := about
  refine ⟨method, tool, ?_⟩
  unfold numberOf at given
  split at given
  · rename_i number found
    cases given
    exact found
  · cases given

/-- A fleet of one unit. -/
def fleetOf (id : UInt64) : Fleet NullTransport NullRecorder :=
  ((Fleet.new ⟨⟩).registerUnit id ⟨.v4 0, 0⟩ ⟨0⟩ fun _ => 0).1

theorem dispatch_addresses_small :
    ∃ parsed : Json Binary64, Json.parse (assignBody "4") = .ok parsed ∧
      OnlyAddressed 4 (fleetOf 4) (McpServer.handle parsed (fleetOf 4) none fun _ => 0) := by
  have about : CallsAbout (assignBody "4") 4 := by decide +kernel
  have kept : KeptId 4 := .inl (Binary64.representable_intCast (n := 4) (by norm_num))
  obtain ⟨parsed, read, right⟩ := dispatch_addresses_iff.1 (assignBody "4") _ 4 (fleetOf 4) none
    (fun _ => 0) about.written about.dispatches
  exact ⟨parsed, read, right.mpr (.inl ⟨4, by simp, kept⟩)⟩

/-- A call about `2 ^ 53 + 1` assigns the operator to its neighbour. -/
theorem dispatch_addresses_neighbour :
    ¬ ∀ (body : List UInt8) (request : Json ℚ) (number : ℚ)
      (fleet : Fleet NullTransport NullRecorder) (auth : Option (ZeroTrustBroker × Principal))
      (clock : Nat → UInt64), Json.parse body = .ok request → Dispatches request number →
      ∃ parsed : Json Binary64, Json.parse body = .ok parsed ∧
        OnlyAddressed number fleet (McpServer.handle parsed fleet auth clock) := by
  intro all
  have about : CallsAbout (assignBody "9007199254740993") 9007199254740993 := by decide +kernel
  obtain ⟨parsed, read, only⟩ := all (assignBody "9007199254740993") _ 9007199254740993
    (fleetOf 9007199254740992) none (fun _ => 0) about.written about.dispatches
  rw [Json.parse_round, about.written] at read
  have rounded : (requestOf (assignBody "9007199254740993")).map Binary64.round = parsed :=
    Except.ok.inj read
  rw [← rounded] at only
  have described := describes_handle about.dispatches (fleetOf 9007199254740992) none fun _ => 0
  have acts : Reach.ofCall (McpServer.toolName (requestOf (assignBody "9007199254740993")))
      (fleetOf 9007199254740992) (addressed 9007199254740993)
      (namedOperator (requestOf (assignBody "9007199254740993"))) none (fun _ => 0) = .acts := by
    decide +kernel
  rw [acts] at described
  have neighbour : addressed 9007199254740993 = 9007199254740992 := by decide +kernel
  rcases described.onlyAddressed_iff.mp only with kept | refused | ⟨idle, -⟩
  · have exact := (addressed_eq_iff _).mpr kept
    rw [neighbour] at exact
    exact absurd exact (by decide +kernel)
  · cases refused
  · cases idle

end Assigning

end Teleop.Cloud
