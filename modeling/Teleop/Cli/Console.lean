import Teleop.Cloud.Gate
import Teleop.Cloud.Reply
import Teleop.Cloud.UnitNumbers
import Teleop.Lib.Checked

/-!
# The co-pilot console

An operator's lines become tool calls to the fleet server, each over a connection of its own, and
the console shows what it is answered.  The connection carries the request in whatever parts, but
the server writes its answer without waiting, so that a part of it may be lost.
-/

namespace Teleop.Cli

open Teleop.Cloud Teleop.Lib Teleop.Sec

/-- The tool calls of the console. -/
inductive Command where
  | list
  | assign (uid : UInt64) (operator : String)
  | auto (uid : UInt64)
  | manual (uid : UInt64)
  deriving DecidableEq

def Command.tool : Command → String
  | .list => "list_units"
  | .assign _ _ => "assign_unit"
  | .auto _ => "engage_autonomy"
  | .manual _ => "take_manual_control"

section Calls

variable {F : Type} [JsonNumber F]

def Command.args : Command → Json F
  | .list => .obj []
  | .assign uid operator => .obj [("unit_id", .uint uid), ("operator", .str operator)]
  | .auto uid => .obj [("unit_id", .uint uid)]
  | .manual uid => .obj [("unit_id", .uint uid)]

/-- The body of a call. -/
def callJson (id : UInt64) (tool : String) (args : Json F) : Json F :=
  .obj [("jsonrpc", .str "2.0"), ("id", .uint id), ("method", .str "tools/call"),
    ("params", .obj [("name", .str tool), ("arguments", args)])]

end Calls

/-- What one line asks for. -/
inductive Entry where
  | blank
  | quit
  | help
  | command (cmd : Command)
  | notAnInteger
  | unrecognized
  deriving DecidableEq

/-- A command whose unit is the number in the text. -/
def onUnit (unit : List Char) (command : UInt64 → Command) : Entry :=
  match parseU64 unit with
  | some uid => .command (command uid)
  | none => .notAnInteger

def Entry.read (line : String) : Entry :=
  match splitWhitespace line.toList with
  | [] => .blank
  | first :: rest =>
      if first = "quit".toList ∨ first = "exit".toList then .quit
      else if first = "help".toList then .help
      else
        match String.ofList first, rest with
        | "list", [] => .command .list
        | "assign", [unit, operator] => onUnit unit (.assign · (.ofList operator))
        | "auto", [unit] => onUnit unit .auto
        | "manual", [unit] => onUnit unit .manual
        | _, _ => .unrecognized

/-- What is shown of an answer. -/
inductive Shown (F : Type) where
  | error (failure : Json F)
  | result (value : Json F)
  | whole (value : Json F)
  | invalid (status : UInt16) (failure body : String)

section Answers

variable {F : Type} [JsonNumber F]

def shownValue (value : Json F) : Shown F :=
  match value.get "error" with
  | some failure => .error failure
  | none =>
      match value.get "result" with
      | some result => .result result
      | none => .whole value

def shownReply (reply : UInt16 × String) : Shown F :=
  match (Json.parse (utf8 reply.2) : Except String (Json F)) with
  | .ok value => shownValue value
  | .error failure => .invalid reply.1 failure reply.2

end Answers

/-- A console that has connected to its host; its attestation file is read without the white space
around it. -/
structure Console where
  host : String
  auth : Option String
  connected : '\n' ∉ host.toList
  trimmed : ∀ hex ∈ auth, trim hex.toList = hex.toList

/-- How one request arrives, what the server finds when it does, and how many bytes of the answer
the socket takes before it would block. -/
structure Delivery (p : Primitives) where
  cut : List UInt8 → List (List UInt8)
  whole : ∀ bytes, (cut bytes).flatten = bytes
  around : Surroundings p
  taken : List UInt8 → Nat

def Delivery.Takes {p : Primitives} (delivery : Delivery p) (bytes : List UInt8) : Prop :=
  bytes.length ≤ delivery.taken bytes

/-- One line at the prompt, and the delivery of a request it leads to. -/
structure Input (p : Primitives) where
  line : String
  delivery : Delivery p

/-- How a command is carried out. -/
abbrev Caller (T R : Type) (p : Primitives) (F : Type) : Type :=
  UInt64 → FleetServer T R p → Command → Delivery p → FleetServer T R p × Shown F

section Run

variable {T R F : Type} {p : Primitives}

/-- The loop of the console over its lines, with the number of the next call; `none` where that
overflows. -/
def run (call : Caller T R p F) : UInt64 → FleetServer T R p → List (Input p) →
    Option (FleetServer T R p × List (Shown F))
  | _, server, [] => some (server, [])
  | nextId, server, input :: rest =>
      match Entry.read input.line with
      | .quit => some (server, [])
      | .command cmd =>
          (checkedAdd nextId 1).bind fun following =>
            let (server, shown) := call nextId server cmd input.delivery
            (run call following server rest).map fun (server, others) => (server, shown :: others)
      | .blank | .help | .notAnInteger | .unrecognized => run call nextId server rest

end Run

section Remote

variable {T R : Type} {p : Primitives} [SignatureBytes p.ed.Signature] [UnitTransport T]
  [Recorder R] (F : Type) [JsonNumber F] (toLowercase : String → String) (page : String)

/-- The server's part; a request it does not dispatch is answered by the end of the stream. -/
def exchange (server : FleetServer T R p) (delivery : Delivery p) (bytes : List UInt8) :
    FleetServer T R p × List UInt8 :=
  match serve toLowercase [] (delivery.cut bytes) with
  | .dispatched req =>
      let (server, resp) := FleetServer.handleRequest F page server req delivery.around
      (server, resp.toBytes)
  | .closed | .buffering _ | .panicked => (server, [])

/-- The server's part in a call of the console. -/
def Console.answered (console : Console) (id : UInt64) (server : FleetServer T R p)
    (cmd : Command) (delivery : Delivery p) : FleetServer T R p × List UInt8 :=
  let body := (callJson id cmd.tool cmd.args : Json F).write
  exchange F toLowercase page server delivery (sendRequest console.host console.auth body)

/-- A command as the console carries it out.  The server does not look at how `write_all` ends: the
console reads to the end of what the socket has taken. -/
def Console.remote (console : Console) : Caller T R p F := fun id server cmd delivery =>
  let (server, bytes) := console.answered F toLowercase page id server cmd delivery
  (server, shownReply (readReply (bytes.take (delivery.taken bytes))))

/-- The sockets take all answers of a session whole. -/
def Console.AllHeard (console : Console) : UInt64 → FleetServer T R p → List (Input p) → Prop
  | _, _, [] => True
  | nextId, server, input :: rest =>
      match Entry.read input.line with
      | .quit => True
      | .command cmd =>
          let (server, bytes) := console.answered F toLowercase page nextId server cmd input.delivery
          input.delivery.Takes bytes ∧ console.AllHeard (nextId + 1) server rest
      | .blank | .help | .notAnInteger | .unrecognized => console.AllHeard nextId server rest

end Remote

section Wire

variable {toLowercase : String → String}

/-- The header line of an attestation. -/
def authLines (auth : Option String) : List String :=
  (auth.map ("Authorization: TPT-Attestation " ++ ·)).toList

/-- The header lines of a call with a body of some length. -/
def callLines (host : String) (auth : Option String) (length : Nat) : List String :=
  ["Host: " ++ host, "Content-Type: application/json", "Content-Length: " ++ toString length] ++
    (authLines auth ++ ["Connection: close"])

/-- The attestation as the server reads it. -/
def authFields (auth : Option String) : List (String × String) :=
  (auth.map fun hex => ("authorization", String.ofList (trim (SCHEME ++ hex).toList))).toList

/-- The header fields of a call as the server reads them. -/
def callFields (host : String) (auth : Option String) (length : Nat) : List (String × String) :=
  [("host", .ofList (trim host.toList)), ("content-type", "application/json"),
    ("content-length", toString length)] ++ (authFields auth ++ [("connection", "close")])

/-- The request of a call as the server reads it. -/
def callRequest (host : String) (auth : Option String) (body : String) : Request where
  method := .post
  path := "/mcp"
  query := ""
  headers := callFields host auth (utf8 body).length
  body := utf8 body

/-- The text of a call is a message. -/
theorem sendRequest_eq_messageBytes (host : String) (auth : Option String) (body : String) :
    sendRequest host auth body =
      messageBytes ("POST /mcp HTTP/1.1" :: callLines host auth (utf8 body).length)
        (utf8 body) := by
  have start : "POST /mcp HTTP/1.1\r\nHost: " = "POST /mcp HTTP/1.1" ++ "\r\n" ++ "Host: " := by
    decide
  have kind : "\r\nContent-Type: application/json\r\nContent-Length: " =
      "\r\n" ++ "Content-Type: application/json" ++ "\r\n" ++ "Content-Length: " := by
    decide
  have finish : "Connection: close\r\n\r\n" = "Connection: close" ++ "\r\n\r\n" := by decide
  unfold sendRequest callLines authLines
  dsimp only
  rw [start, kind, finish]
  generalize toString (utf8 body).length = length
  cases auth with
  | none =>
      simp only [Option.map_none, Option.toList_none, List.nil_append, List.cons_append,
        messageBytes, headText, String.intercalate_cons_cons, String.intercalate_singleton,
        terminator, utf8_append, List.append_assoc]
  | some hex =>
      simp only [Option.map_some, Option.toList_some, List.nil_append, List.cons_append,
        messageBytes, headText, String.intercalate_cons_cons, String.intercalate_singleton,
        terminator, utf8_append, List.append_assoc]

theorem fieldsOf_authLines (lowers : LowersAscii toLowercase) (auth : Option String) :
    fieldsOf toLowercase (authLines auth) = authFields auth := by
  cases auth with
  | none => rfl
  | some hex =>
      have name : toLowercase (.ofList (trim "Authorization".toList)) = "authorization" :=
        lowers.lowered (by decide) (by decide) (by decide)
      have line : "Authorization: TPT-Attestation " ++ hex =
          "Authorization" ++ ": " ++ (SCHEME ++ hex) := by
        rw [scheme_lead, String.append_assoc]
      have read := readHeader_line toLowercase (SCHEME ++ hex)
        (show ':' ∉ "Authorization".toList by decide)
      rw [← line, name] at read
      simp only [authLines, authFields, Option.map_some, Option.toList_some, fieldsOf,
        List.filterMap_cons, List.filterMap_nil, read]

theorem fieldsOf_callLines (lowers : LowersAscii toLowercase) (host : String)
    (auth : Option String) (length : Nat) :
    fieldsOf toLowercase (callLines host auth length) = callFields host auth length := by
  have hostLine : readHeader toLowercase ("Host: " ++ host).toList =
      some ("host", .ofList (trim host.toList)) :=
    lowers.readHeader host (show "Host: " = "Host" ++ ": " by decide) (by decide) (by decide)
      (by decide) (by decide)
  have kind : readHeader toLowercase "Content-Type: application/json".toList =
      some ("content-type", "application/json") :=
    lowers.readHeader "application/json" (show "Content-Type: " = "Content-Type" ++ ": " by decide)
      (by decide) (by decide) (by decide) (by decide)
  have lengthLine : readHeader toLowercase ("Content-Length: " ++ toString length).toList =
      some ("content-length", toString length) := by
    have read := lowers.readHeader (toString length)
      (show "Content-Length: " = "Content-Length" ++ ": " by decide) (by decide) (by decide)
      (by decide) (show _ = "content-length" by decide)
    rwa [trim_repr, String.ofList_toList] at read
  have finish : readHeader toLowercase "Connection: close".toList = some ("connection", "close") :=
    lowers.readHeader "close" (show "Connection: " = "Connection" ++ ": " by decide)
      (by decide) (by decide) (by decide) (by decide)
  rw [callLines, callFields, fieldsOf_append, fieldsOf_append, fieldsOf_authLines lowers]
  simp only [fieldsOf, List.filterMap_cons, List.filterMap_nil, hostLine, kind, lengthLine, finish]

theorem oneLine_callLines {host : String} {auth : Option String} (connected : '\n' ∉ host.toList)
    (unbroken : ∀ hex ∈ auth, '\n' ∉ hex.toList) (length : Nat) :
    ∀ line ∈ callLines host auth length, OneLine line := by
  intro line among
  simp only [callLines, authLines, List.mem_append, List.mem_cons, List.not_mem_nil, or_false,
    Option.mem_toList, Option.map_eq_some_iff] at among
  rcases among with (rfl | rfl | rfl) | ⟨hex, given, rfl⟩ | rfl
  · exact oneLine_append ⟨by decide, by decide⟩ connected
  · exact ⟨by decide, by decide⟩
  · exact oneLine_append ⟨by decide, by decide⟩ (lineFeed_not_mem_repr length)
  · exact oneLine_append ⟨by decide, by decide⟩ (unbroken hex given)
  · exact ⟨by decide, by decide⟩

/-- The server parses exactly what was called. -/
theorem parse_sendRequest (lowers : LowersAscii toLowercase) {host : String}
    {auth : Option String} (connected : '\n' ∉ host.toList)
    (unbroken : ∀ hex ∈ auth, '\n' ∉ hex.toList) {body : String}
    (fits : (sendRequest host auth body).length ≤ 2 ^ 20) :
    Request.parse toLowercase (sendRequest host auth body) =
      .ok (some (callRequest host auth body, (sendRequest host auth body).length)) := by
  rw [sendRequest_eq_messageBytes] at fits ⊢
  have small : (utf8 body).length < 2 ^ 64 := by
    rw [messageBytes, List.length_append, List.length_append] at fits
    omega
  have length : (fieldsOf toLowercase (callLines host auth (utf8 body).length)).foldl
      nextLength 0 = (utf8 body).length := by
    have others : ∀ field ∈ authFields auth ++ [("connection", "close")],
        field.1 ≠ "content-length" := by
      intro field among
      simp only [authFields, List.mem_append, Option.mem_toList, Option.map_eq_some_iff,
        List.mem_cons, List.not_mem_nil, or_false] at among
      rcases among with ⟨hex, -, rfl⟩ | rfl
      · exact show "authorization" ≠ "content-length" by decide
      · decide
    rw [fieldsOf_callLines lowers, callFields, List.foldl_append, foldl_nextLength others]
    simp only [List.foldl_cons, List.foldl_nil, nextLength, String.reduceEq, if_true, if_false,
      parseU64_repr small, Option.map_some, Option.getD_some]
    exact UInt64.toNat_ofNat_of_lt' small
  have tokens : splitWhitespace "POST /mcp HTTP/1.1".toList =
      ["POST".toList, "/mcp".toList, "HTTP/1.1".toList] := by decide
  have oneLine : ∀ line ∈ "POST /mcp HTTP/1.1" :: callLines host auth (utf8 body).length,
      OneLine line := by
    rintro line (_ | ⟨_, among⟩)
    · exact ⟨by decide, by decide⟩
    · exact oneLine_callLines connected unbroken _ line among
  have parsed := parse_messageBytes toLowercase oneLine tokens length (by omega)
  rw [fieldsOf_callLines lowers] at parsed
  exact parsed

end Wire

section Admission

variable {ed : Ed25519} [SignatureBytes ed.Signature]

/-- The attestation in the text of a file. -/
def attestationOf (auth : Option String) : Option (Attestation ed) :=
  auth.bind attestationFromHex

/-- A trimmed text does not end in white space. -/
theorem last_of_trimmed {text : List Char} (trimmed : trim text = text) :
    ∀ c ∈ text.getLast?, isWhitespace c = false := by
  have once : text.rdropWhile isWhitespace = text := by
    rw [trim_eq_strip, strip] at trimmed
    rw [← trimmed, List.rdropWhile_idempotent]
  intro c last
  have nonempty := List.ne_nil_of_mem (List.mem_of_getLast? last)
  have visible := List.rdropWhile_eq_self_iff.mp once nonempty
  rw [List.getLast?_eq_some_getLast nonempty, Option.mem_some_iff] at last
  rw [← last]
  exact Bool.eq_false_iff.mpr visible

/-- A bearer is not trimmed if its text is not. -/
theorem trim_scheme {hex : List Char} (trimmed : trim hex = hex) (filled : hex ≠ []) :
    trim (SCHEME.toList ++ hex) = SCHEME.toList ++ hex := by
  apply trim_of_ends
  · intro c head
    cases head
    decide
  · rw [List.getLast?_append_of_ne_nil _ filled]
    exact last_of_trimmed trimmed

/-- The empty text and the scheme without a text are no attestations. -/
theorem attestationFromHex_empty :
    (attestationFromHex "" : Option (Attestation ed)) = none ∧
      (attestationFromHex "TPT-Attestation" : Option (Attestation ed)) = none := by
  have none : hexDecode (utf8 "") = some [] := rfl
  have scheme : hexDecode (utf8 "TPT-Attestation") = Option.none := by decide
  constructor
  · rw [attestationFromHex, none]
    rfl
  · rw [attestationFromHex, scheme]

/-- The server takes the attestation of the file from the request. -/
theorem extractAttestation_callRequest {host : String} {auth : Option String}
    (trimmed : ∀ hex ∈ auth, trim hex.toList = hex.toList) (body : String) :
    extractAttestation (callRequest host auth body) =
      (attestationOf auth : Option (Attestation ed)) := by
  have found : (callFields host auth (utf8 body).length).find?
      (fun header => header.1 = "authorization" || header.1 = "x-tpt-attestation") =
        auth.map fun hex => ("authorization", String.ofList (trim (SCHEME ++ hex).toList)) := by
    cases auth <;> simp [callFields, authFields]
  rw [extractAttestation, callRequest]
  dsimp only
  rw [found]
  cases auth with
  | none => rfl
  | some hex =>
      simp only [Option.map_some, attestationOf, Option.bind_some, String.toList_ofList,
        String.toList_append]
      by_cases filled : hex.toList = []
      · have bare : withoutPrefix SCHEME.toList (trim (trim (SCHEME.toList ++ []))) =
            "TPT-Attestation".toList := by decide
        rw [filled, bare, String.toList_eq_nil_iff.mp filled, String.ofList_toList,
          attestationFromHex_empty.1, attestationFromHex_empty.2]
      · have whole := trim_scheme (trimmed hex rfl) filled
        rw [whole, whole, withoutPrefix, if_pos (List.prefix_append _ _), List.drop_left,
          String.ofList_toList]

end Admission

section Direct

variable {T R F : Type} {p : Primitives} [SignatureBytes p.ed.Signature] [UnitTransport T]
  [Recorder R] [JsonNumber F]

/-- Whom a server takes a console for, if it admits it. -/
def admission (server : FleetServer T R p) (auth : Option String) :
    Option (Option (ZeroTrustBroker × Principal)) :=
  match server.authz with
  | none => some none
  | some authz =>
      ((attestationOf auth : Option (Attestation p.ed)).bind fun attestation =>
        (authz.authenticate attestation).toOption).map fun principal => some (authz, principal)

/-- A command with its text as the server reads it. -/
def Command.heard : Command → Command
  | .assign uid operator => .assign uid (JsonParser.rawText operator)
  | cmd => cmd

/-- An answer with its text as the console reads it. -/
def Shown.raw : Shown F → Shown F
  | .error failure => .error failure.raw
  | .result value => .result value.raw
  | .whole value => .whole value.raw
  | .invalid status failure body => .invalid status failure body

/-- The refusal is no JSON, and is shown so. -/
def refused : Shown F := shownReply (401, "missing or invalid attestation")

/-- A command carried out on the fleet itself, without a connection. -/
def Console.direct (console : Console) : Caller T R p F := fun id server cmd delivery =>
  match admission server console.auth with
  | none => (server, refused)
  | some auth =>
      let (fleet, answer) := McpServer.callTool cmd.tool cmd.heard.args server.fleet (.uint id) auth
        delivery.around.clock
      ({ server with fleet }, (shownValue answer).raw)

end Direct

section Admitted

variable {T R : Type} {p : Primitives} [SignatureBytes p.ed.Signature]

/-- A console is admitted with what its file holds, whatever it calls. -/
theorem mcpAuth_callRequest (server : FleetServer T R p) {console : Console} (body : String) :
    server.mcpAuth (callRequest console.host console.auth body) =
      match admission server console.auth with
      | some auth => .ok auth
      | none => .error (.error 401 "missing or invalid attestation") := by
  have extracted : extractAttestation (callRequest console.host console.auth body) =
      (attestationOf console.auth : Option (Attestation p.ed)) :=
    extractAttestation_callRequest console.trimmed body
  unfold FleetServer.mcpAuth admission authenticateRequest
  cases server.authz with
  | none => rfl
  | some authz =>
      dsimp only
      rw [extracted]
      cases (attestationOf console.auth : Option (Attestation p.ed)) with
      | none => rfl
      | some attestation =>
          dsimp only [Option.bind_some]
          cases authz.authenticate attestation with
          | error failure => rfl
          | ok principal => rfl

end Admitted

section Codec

open JsonParser

variable {F : Type} [JsonNumber F]

theorem rawText_of_all (text : String) (ascii : (text.toList.all fun c => c.toNat < 0x80) = true) :
    rawText text = text := rawText_eq_iff.mpr (ascii_iff_all.mpr ascii)

theorem rawText_tool (cmd : Command) : rawText cmd.tool = cmd.tool := by
  cases cmd with
  | list => exact rawText_of_all "list_units" (by decide)
  | assign => exact rawText_of_all "assign_unit" (by decide)
  | auto => exact rawText_of_all "engage_autonomy" (by decide)
  | manual => exact rawText_of_all "take_manual_control" (by decide)

theorem raw_args (cmd : Command) : (cmd.args : Json F).raw = cmd.heard.args := by
  have unit := rawText_of_all "unit_id" (by decide)
  have operator := rawText_of_all "operator" (by decide)
  cases cmd <;> simp only [Command.args, Command.heard, Json.raw, Json.rawFields, Json.uint, unit,
    operator]

theorem raw_callJson (id : UInt64) (cmd : Command) :
    (callJson id cmd.tool cmd.args : Json F).raw = callJson id cmd.tool cmd.heard.args := by
  simp only [callJson, Json.raw, Json.rawFields, Json.uint, raw_args, rawText_tool,
    rawText_of_all "jsonrpc" (by decide), rawText_of_all "2.0" (by decide),
    rawText_of_all "id" (by decide), rawText_of_all "method" (by decide),
    rawText_of_all "tools/call" (by decide), rawText_of_all "params" (by decide),
    rawText_of_all "name" (by decide), rawText_of_all "arguments" (by decide)]

/-- The server hands a call to its tool. -/
theorem handle_callJson {T R : Type} [UnitTransport T] [Recorder R] (id : UInt64) (tool : String)
    (args : Json F) (fleet : Fleet T R) (auth : Option (ZeroTrustBroker × Principal))
    (clock : Nat → UInt64) :
    McpServer.handle (callJson id tool args) fleet auth clock =
      McpServer.callTool tool args fleet (.uint id) auth clock := by
  simp [McpServer.handle, McpServer.toolName, callJson, Json.get, Json.asStr]

end Codec

section Transparency

open JsonParser

/-- The answers to a call: of a tool, or of an error. -/
inductive Answered (id : Json Binary64) : Json Binary64 → Prop
  | ok (result : Json Binary64) (readable : result.All Readable fun _ => True) :
      Answered id (jsonRpcOk id result)
  | err (code : Int) (message : String) (small : |code| < 10 ^ 15) :
      Answered id (jsonRpcErr id code message)

theorem readable_uint (n : UInt64) : (Json.uint n : Json Binary64).All Readable fun _ => True :=
  readsBack_uint n

theorem readable_toJson (info : UnitInfo) :
    (info.toJson : Json Binary64).All Readable fun _ => True := by
  refine ⟨trivial, readable_uint _, trivial, trivial, trivial, trivial, trivial, ?_, trivial, readable_uint _,
    trivial, readable_uint _, trivial, readable_uint _, trivial, readable_uint _, trivial⟩
  split <;> trivial

theorem readable_items (infos : List UnitInfo) :
    Json.AllItems Readable (fun _ => True) (infos.map (UnitInfo.toJson : _ → Json Binary64)) := by
  induction infos with
  | nil => trivial
  | cons info rest inductionHypothesis => exact ⟨readable_toJson info, inductionHypothesis⟩

theorem readable_callJson (id : UInt64) (cmd : Command) :
    (callJson id cmd.tool cmd.args : Json Binary64).All Readable fun _ => True := by
  have args : (cmd.args : Json Binary64).All Readable fun _ => True := by
    cases cmd with
    | list => trivial
    | assign => exact ⟨trivial, readable_uint _, trivial, trivial, trivial⟩
    | auto => exact ⟨trivial, readable_uint _, trivial⟩
    | manual => exact ⟨trivial, readable_uint _, trivial⟩
  exact ⟨trivial, trivial, trivial, readable_uint id, trivial, trivial, trivial,
    ⟨trivial, trivial, trivial, args, trivial⟩, trivial⟩

variable {T R : Type} [UnitTransport T] [Recorder R]

theorem answered_callTool (id : Json Binary64) (name : String) (args : Json Binary64)
    (fleet : Fleet T R) (auth : Option (ZeroTrustBroker × Principal)) (clock : Nat → UInt64) :
    Answered id (McpServer.callTool name args fleet id auth clock).2 := by
  have assigned : Answered id (McpServer.assignUnit args id fleet).2 := by
    unfold McpServer.assignUnit
    split
    · split
      · exact .ok _ ⟨trivial, readable_uint _, trivial, trivial, trivial⟩
      · exact .err _ _ (by decide)
    · exact .err _ _ (by decide)
  have changed : Answered id (McpServer.changeMode name args id fleet clock).2 := by
    unfold McpServer.changeMode
    split
    · exact .err _ _ (by decide)
    · dsimp only
      split
      · exact .ok _ ⟨trivial, readable_uint _, trivial, trivial, trivial, trivial, trivial⟩
      · exact .err _ _ (by decide)
  have ran : Answered id (McpServer.runTool name args id fleet clock).2 := by
    unfold McpServer.runTool
    split
    · exact .ok _ ⟨trivial, readable_items _, trivial, readable_uint _, trivial⟩
    · split
      · exact assigned
      · split
        · exact changed
        · exact .err _ _ (by decide)
  unfold McpServer.callTool
  split
  · exact ran
  · split
    · exact ran
    · exact .err _ _ (by decide)

variable {id : UInt64} {answer : Json Binary64}

theorem Answered.readable (answered : Answered (.uint id) answer) :
    answer.All Readable fun _ => True := by
  cases answered with
  | ok result readable =>
      exact ⟨trivial, trivial, trivial, readable_uint id, trivial, readable, trivial⟩
  | err code message small =>
      have coded : Readable (.round code) := readsBack_num ⟨code, small, rfl⟩
      exact ⟨trivial, trivial, trivial, readable_uint id, trivial,
        ⟨trivial, coded, trivial, trivial, trivial⟩, trivial⟩

/-- What is shown of an answer as it is read, is the answer as it is read. -/
theorem Answered.shown (answered : Answered (.uint id) answer) :
    shownValue answer.raw = (shownValue answer).raw := by
  have protocol := rawText_of_all "jsonrpc" (by decide)
  have key := rawText_of_all "id" (by decide)
  have success := rawText_of_all "result" (by decide)
  have failure := rawText_of_all "error" (by decide)
  cases answered <;>
    simp [jsonRpcOk, jsonRpcErr, shownValue, Json.raw, Json.rawFields, Json.get, Shown.raw, protocol,
      key, success, failure]

end Transparency

section Sessions

variable {T R : Type} {p : Primitives} [SignatureBytes p.ed.Signature] [UnitTransport T]
  [Recorder R] {toLowercase : String → String} {page : String}

/-- What the server does with a call, and how it is shown. -/
theorem mcpRoute_callRequest (server : FleetServer T R p) (console : Console) (id : UInt64)
    (cmd : Command) (delivery : Delivery p) {after : FleetServer T R p} {resp : Response}
    (routed : FleetServer.mcpRoute Binary64 server (callRequest console.host console.auth
      (callJson id cmd.tool cmd.args : Json Binary64).write) delivery.around.clock =
        (after, resp)) :
    (after, (shownReply (readReply resp.toBytes) : Shown Binary64)) =
      console.direct id server cmd delivery := by
  have parsed := (JsonParser.valueReadsBack _ (readable_callJson id cmd)).parse
  rw [raw_callJson] at parsed
  have admitted : server.mcpAuth (callRequest console.host console.auth
      (callJson id cmd.tool cmd.args : Json Binary64).write) = _ :=
    mcpAuth_callRequest server _
  rw [FleetServer.mcpRoute, admitted, callRequest] at routed
  dsimp only at routed
  rw [parsed] at routed
  rw [Console.direct]
  cases admitting : admission server console.auth with
  | none =>
      rw [admitting] at routed
      cases routed
      have read := readReply_withBody 401 (show '\n' ∉ "text/plain; charset=utf-8".toList by decide)
        "missing or invalid attestation"
      rw [Response.error, read]
      rfl
  | some auth =>
      rw [admitting] at routed
      dsimp only at routed ⊢
      rw [handle_callJson] at routed
      have answered := answered_callTool (.uint id) cmd.tool cmd.heard.args server.fleet auth
        delivery.around.clock
      obtain ⟨rfl, rfl⟩ := Prod.mk.inj routed
      have read (answer : Json Binary64) :=
        readReply_withBody 200 (show '\n' ∉ "application/json".toList by decide) answer.write
      have heard := (JsonParser.valueReadsBack _ answered.readable).parse
      rw [Response.json, read, shownReply, heard]
      dsimp only
      rw [answered.shown]

/-- The request of a command is one that a server still buffers as a whole. -/
def Console.Fits (console : Console) (id : UInt64) (cmd : Command) : Prop :=
  (sendRequest console.host console.auth
    (callJson id cmd.tool cmd.args : Json Binary64).write).length ≤ 2 ^ 20

/-- The server comes to what a command does on the fleet, and its whole answer shows the same. -/
theorem answered_eq_direct (lowers : LowersAscii toLowercase) {console : Console}
    (unbroken : ∀ hex ∈ console.auth, '\n' ∉ hex.toList) {id : UInt64} {cmd : Command}
    (fits : console.Fits id cmd) {server after : FleetServer T R p} {delivery : Delivery p}
    {bytes : List UInt8}
    (answered : console.answered Binary64 toLowercase page id server cmd delivery =
      (after, bytes)) :
    (after, (shownReply (readReply bytes) : Shown Binary64)) =
      console.direct id server cmd delivery := by
  have parsed := parse_sendRequest lowers console.connected unbroken fits
  obtain ⟨-, -, -, chunked⟩ := parse_chunked toLowercase parsed
  have dispatched := (chunked _ (delivery.whole _)).2 fits
  rw [Console.answered, exchange, dispatched] at answered
  dsimp only at answered
  rw [FleetServer.handleRequest, if_neg (by simp [callRequest]), if_pos (by simp [callRequest])]
    at answered
  cases routed : FleetServer.mcpRoute Binary64 server (callRequest console.host console.auth
      (callJson id cmd.tool cmd.args : Json Binary64).write) delivery.around.clock with
  | mk handled resp =>
      rw [routed] at answered
      obtain ⟨rfl, rfl⟩ := Prod.mk.inj answered
      exact mcpRoute_callRequest server console id cmd delivery routed

/-- All requests of a session fit. -/
def Console.AllFit (console : Console) : UInt64 → List (Input p) → Prop
  | _, [] => True
  | nextId, input :: rest =>
      match Entry.read input.line with
      | .quit => True
      | .command cmd => console.Fits nextId cmd ∧ console.AllFit (nextId + 1) rest
      | .blank | .help | .notAnInteger | .unrecognized => console.AllFit nextId rest

/-- Sockets that take whatever they are given take the answers of a session. -/
theorem allHeard_of_takes (console : Console) (nextId : UInt64) (server : FleetServer T R p)
    {inputs : List (Input p)} (takes : ∀ input ∈ inputs, ∀ bytes, input.delivery.Takes bytes) :
    console.AllHeard Binary64 toLowercase page nextId server inputs := by
  induction inputs generalizing nextId server with
  | nil => exact trivial
  | cons input rest inductionHypothesis =>
      have following := fun nextId server =>
        inductionHypothesis nextId server fun other among => takes other (.tail _ among)
      rw [Console.AllHeard]
      cases Entry.read input.line with
      | quit => exact trivial
      | blank | help | notAnInteger | unrecognized => exact following nextId server
      | command cmd => exact ⟨takes input (.head _) _, following _ _⟩

/-- In every session, whatever its lines are and in whatever parts its requests arrive, the console
leaves the fleet as its commands do on the fleet itself and shows as much; and what it shows is what
they come to, if the sockets take the answers whole. -/
theorem run_remote_eq_direct (lowers : LowersAscii toLowercase) {console : Console}
    (unbroken : ∀ hex ∈ console.auth, '\n' ∉ hex.toList) (nextId : UInt64)
    (server : FleetServer T R p) (inputs : List (Input p)) (fit : console.AllFit nextId inputs) :
    (run (console.remote Binary64 toLowercase page) nextId server inputs).map
        (fun (after, shown) => (after, shown.length)) =
      (run (F := Binary64) console.direct nextId server inputs).map
        (fun (after, shown) => (after, shown.length)) ∧
    (console.AllHeard Binary64 toLowercase page nextId server inputs →
      run (console.remote Binary64 toLowercase page) nextId server inputs =
        run console.direct nextId server inputs) := by
  induction inputs generalizing nextId server with
  | nil => exact ⟨rfl, fun _ => rfl⟩
  | cons input rest inductionHypothesis =>
      rw [Console.AllFit] at fit
      rw [run, run, Console.AllHeard]
      cases entry : Entry.read input.line with
      | quit => exact ⟨rfl, fun _ => rfl⟩
      | blank | help | notAnInteger | unrecognized =>
          rw [entry] at fit
          exact inductionHypothesis nextId server fit
      | command cmd =>
          rw [entry] at fit
          obtain ⟨first, others⟩ := fit
          dsimp only
          cases answered : console.answered Binary64 toLowercase page nextId server cmd
              input.delivery with
          | mk after bytes =>
              obtain ⟨counted, equal⟩ := inductionHypothesis (nextId + 1) after others
              rw [← answered_eq_direct lowers unbroken first answered, Console.remote, answered]
              dsimp only
              unfold checkedAdd
              split
              · constructor
                · have longer := congrArg (Option.map fun (after, n) => (after, n + 1)) counted
                  simpa only [Option.bind_some, Option.map_map, Function.comp_def,
                    List.length_cons] using longer
                · rintro ⟨heard, following⟩
                  have whole : bytes.take (input.delivery.taken bytes) = bytes :=
                    List.take_of_length_le heard
                  simp only [Option.bind_some, equal following, whole]
              · simp only [Option.bind_none, Option.map_none, implies_true, and_self]

end Sessions

section Instance

/-- The console of the agent that is enrolled for unit 1. -/
def agentConsole : Console where
  host := "127.0.0.1:8080"
  auth := some (hexEncode (attests 1 .aiAgent 7).toBytes)
  connected := by decide
  trimmed := by
    intro hex given
    obtain rfl := Option.mem_some_iff.mp given
    exact trim_of_visible (isWhitespace_hexEncode _)

/-- A request that arrives in two parts, and an answer that the socket takes whole. -/
def inTwoParts : Delivery Symbolic.primitives where
  cut bytes := [bytes.take 100, bytes.drop 100]
  whole bytes := by simp
  around := surroundings
  taken := List.length

/-- The agent lists the units and engages unit 1; there is no unit 2. -/
def agentSession : List (Input Symbolic.primitives) :=
  [⟨"list", inTwoParts⟩, ⟨"auto 1", inTwoParts⟩, ⟨"auto 2", inTwoParts⟩, ⟨"quit", inTwoParts⟩]

theorem read_agentSession : agentSession.map (fun input => Entry.read input.line) =
    [.command .list, .command (.auto 1), .command (.auto 2), .quit] := by
  decide

theorem fits_agentSession : agentConsole.Fits 1 .list ∧ agentConsole.Fits 2 (.auto 1) ∧
    agentConsole.Fits 3 (.auto 2) := by
  have hex := length_utf8_hexEncode (attests 1 .aiAgent 7).toBytes
  rw [length_utf8, (attests 1 .aiAgent 7).length_toBytes] at hex
  simp only [Console.Fits, agentConsole, sendRequest, length_utf8]
  generalize hexEncode (attests 1 .aiAgent 7).toBytes = text at hex
  simp only [String.utf8ByteSize_append, hex]
  decide +kernel

theorem run_remote_eq_direct_agentSession :
    run (agentConsole.remote Binary64 asciiLowercase "") 1 gatedServer agentSession =
      run agentConsole.direct 1 gatedServer agentSession := by
  obtain ⟨list, first, second, quit⟩ : Entry.read "list" = .command .list ∧
      Entry.read "auto 1" = .command (.auto 1) ∧ Entry.read "auto 2" = .command (.auto 2) ∧
      Entry.read "quit" = .quit := by
    simpa [agentSession] using read_agentSession
  have fit : agentConsole.AllFit 1 agentSession := by
    simp only [agentSession, Console.AllFit, list, first, second, quit, and_true]
    exact fits_agentSession
  have takesAll : ∀ bytes, inTwoParts.Takes bytes := fun bytes => le_refl bytes.length
  have takes : ∀ input ∈ agentSession, ∀ bytes, input.delivery.Takes bytes := by
    simp only [agentSession, List.forall_mem_cons]
    exact ⟨takesAll, takesAll, takesAll, takesAll, nofun⟩
  have unbroken : ∀ hex ∈ agentConsole.auth, '\n' ∉ hex.toList := by
    intro hex given among
    obtain rfl := Option.mem_some_iff.mp given
    have visible : isWhitespace '\n' = false := isWhitespace_hexEncode _ _ among
    exact absurd visible (by decide)
  have whole (session) (fit : agentConsole.AllFit 1 session)
      (takes : ∀ input ∈ session, ∀ bytes, input.delivery.Takes bytes) :
      run (agentConsole.remote Binary64 asciiLowercase "") 1 gatedServer session =
        run agentConsole.direct 1 gatedServer session :=
    (run_remote_eq_direct lowersAscii_asciiLowercase unbroken 1 gatedServer session fit).2
      (allHeard_of_takes agentConsole 1 gatedServer takes)
  exact whole agentSession fit takes

end Instance

end Teleop.Cli
