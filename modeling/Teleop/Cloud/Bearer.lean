import Teleop.Cloud.Gate
import Teleop.Cloud.RequestText

/-!
# How clients present an attestation

Three encoders of one header: the helper of the library, the console and the script of the
dashboard.  The server reads the first two back; the name under which the dashboard sends
the attestation is none of those the server looks for.
-/

namespace Teleop.Cloud

open Teleop.Lib Teleop.Sec

section Names

/-- On ASCII text lower-casing goes letter by letter. -/
def LowersAscii (toLowercase : String → String) : Prop :=
  ∀ text : String, (text.toList.all fun c => c.toNat < 0x80) = true →
    toLowercase text = .ofList (text.toList.map Char.toLower)

theorem LowersAscii.lowered {toLowercase : String → String} (lowers : LowersAscii toLowercase)
    {name lowered : String} (ascii : (name.toList.all fun c => c.toNat < 0x80) = true)
    (visible : String.ofList (trim name.toList) = name)
    (letters : String.ofList (name.toList.map Char.toLower) = lowered) :
    toLowercase (.ofList (trim name.toList)) = lowered := by
  rw [visible, lowers name ascii, letters]

theorem trim_space (text : List Char) : trim (' ' :: text) = trim text := by
  have space : isWhitespace ' ' = true := by decide
  simp [trim, space]

/-- A header line with one blank after the colon. -/
theorem readHeader_line (toLowercase : String → String) {name : String} (value : String)
    (plain : ':' ∉ name.toList) :
    readHeader toLowercase (name ++ ": " ++ value).toList =
      some (toLowercase (.ofList (trim name.toList)), .ofList (trim value.toList)) := by
  have text : (name ++ ": " ++ value).toList = name.toList ++ ':' :: ' ' :: value.toList := by
    simp
  have split : splitOnce ':' (name ++ ": " ++ value).toList =
      some (name.toList, ' ' :: value.toList) := by
    rw [text, splitOnce_append_cons plain]
  rw [readHeader, split, Option.map_some]
  dsimp only
  rw [trim_space]

/-- A line as a client writes it, with the name and the blank in one text. -/
theorem LowersAscii.readHeader {toLowercase : String → String} (lowers : LowersAscii toLowercase)
    {lead name lowered : String} (value : String) (split : lead = name ++ ": ")
    (plain : ':' ∉ name.toList) (ascii : (name.toList.all fun c => c.toNat < 0x80) = true)
    (visible : String.ofList (trim name.toList) = name)
    (letters : String.ofList (name.toList.map Char.toLower) = lowered) :
    readHeader toLowercase (lead ++ value).toList = some (lowered, .ofList (trim value.toList)) := by
  rw [split, readHeader_line toLowercase value plain, lowers.lowered ascii visible letters]

theorem trim_of_visible {text : List Char} (visible : ∀ c ∈ text, isWhitespace c = false) :
    trim text = text :=
  (trim_eq_strip text).trans (strip_of_visible visible)

theorem isWhitespace_repr (n : Nat) : ∀ c ∈ (toString n).toList, isWhitespace c = false := by
  intro c among
  have digits : (toString n).toList = Nat.toDigits 10 n := Nat.toList_repr
  rw [digits] at among
  have digit := Nat.isDigit_of_mem_toDigits (by decide) (by decide) among
  simp only [Char.isDigit, Bool.and_eq_true, decide_eq_true_eq] at digit
  have low : 48 ≤ c.toNat := digit.1
  have high : c.toNat ≤ 57 := digit.2
  simp [isWhitespace]
  omega

theorem trim_repr (n : Nat) : trim (toString n).toList = (toString n).toList :=
  trim_of_visible (isWhitespace_repr n)

/-- The length a client writes is the length the server reads. -/
theorem parseU64_repr {n : Nat} (small : n < 2 ^ 64) :
    parseU64 (toString n).toList = some (.ofNat n) := by
  have digits : (toString n).toList = Nat.toDigits 10 n := Nat.toList_repr
  have all : (Nat.toDigits 10 n).all Char.isDigit = true := by
    simpa using fun c among => Nat.isDigit_of_mem_toDigits (by decide) (by decide) among
  have unsigned : (Nat.toDigits 10 n).head? ≠ some '+' := by
    intro head
    have digit := List.all_eq_true.mp all _ (List.mem_of_head? head)
    exact absurd digit (by decide)
  have value : (Nat.toDigits 10 n).foldl (fun value c => value * 10 + (c.toNat - 0x30)) 0 = n := by
    calc (Nat.toDigits 10 n).foldl (fun value c => value * 10 + (c.toNat - 0x30)) 0
      _ = Nat.ofDigitChars 10 (Nat.toDigits 10 n) 0 := by
        congr 1
        funext value c
        rw [Nat.mul_comm]
        rfl
      _ = n := Nat.ofDigitChars_ten_toDigits
  simp only [parseU64, digits, if_neg unsigned, all, value, Nat.toDigits_ne_nil, not_true_eq_false,
    or_self, if_false, if_pos small]

end Names

section Clients

variable {ed : Ed25519} [SignatureBytes ed.Signature]

/-- Builds the header line for a verified attestation. -/
def attestationHeader (att : Attestation ed) : String :=
  "Authorization: TPT-Attestation " ++ hexEncode att.toBytes

/-- The bytes of a request of the console; `auth` is the text of its attestation file. -/
def sendRequest (host : String) (auth : Option String) (jsonBody : String) : List UInt8 :=
  let req := "POST /mcp HTTP/1.1\r\nHost: " ++ host ++
    "\r\nContent-Type: application/json\r\nContent-Length: " ++
    toString (utf8 jsonBody).length ++ "\r\n"
  let req :=
    match auth with
    | none => req
    | some h => req ++ "Authorization: TPT-Attestation " ++ h ++ "\r\n"
  utf8 (req ++ "Connection: close\r\n\r\n" ++ jsonBody)

/-- White space in a script, which is not quite that of Unicode. -/
def isJsWhitespace (c : Char) : Bool :=
  isWhitespace c && c.toNat ≠ 0x85 || c.toNat = 0xFEFF

/-- `String.prototype.trim`. -/
def trimJs (text : List Char) : List Char :=
  ((text.dropWhile isJsWhitespace).reverse.dropWhile isJsWhitespace).reverse

/-- The headers of the dashboard, for the text of its input field. -/
def headers (field : String) : List (String × String) :=
  let a := String.ofList (trimJs field.toList)
  [("Content-Type", "application/json")] ++ if a = "" then [] else [("TPT-Attestation", a)]

/-- What stands around the lines of a client: a request with a body of the length it says, and
without an attestation of its own. -/
structure Carrier (toLowercase : String → String) where
  start : String
  before : List String
  after : List String
  body : List UInt8
  tokens : (splitWhitespace start.toList).length = 3
  oneLine : ∀ line ∈ start :: (before ++ after), OneLine line
  framed : (fieldsOf toLowercase (before ++ after)).foldl nextLength 0 = body.length
  unattested : ∀ field ∈ fieldsOf toLowercase (before ++ after),
    field.1 ≠ "authorization" ∧ field.1 ≠ "x-tpt-attestation"

/-- The request around some lines. -/
def Carrier.around {toLowercase : String → String} (carrier : Carrier toLowercase)
    (lines : List String) : List UInt8 :=
  messageBytes (carrier.start :: (carrier.before ++ lines ++ carrier.after)) carrier.body

/-- The ways to present an attestation.  The console has connected to its host. -/
inductive Client (toLowercase : String → String) where
  | library (carrier : Carrier toLowercase)
  | console (host jsonBody : String) (connected : '\n' ∉ host.toList)
  | dashboard (carrier : Carrier toLowercase)

/-- The bytes of a request that carries an attestation. -/
def Client.request {toLowercase : String → String} (client : Client toLowercase)
    (att : Attestation ed) : List UInt8 :=
  match client with
  | library carrier => carrier.around [attestationHeader att]
  | console host jsonBody _ => sendRequest host (some (hexEncode att.toBytes)) jsonBody
  | dashboard carrier =>
      carrier.around ((headers (hexEncode att.toBytes)).map fun header =>
        header.1 ++ ": " ++ header.2)

/-- The server takes the attestation from the request it parses. -/
def Client.Delivers {toLowercase : String → String} (client : Client toLowercase)
    (att : Attestation ed) : Prop :=
  ∃ req, Request.parse toLowercase (client.request att) =
      .ok (some (req, (client.request att).length)) ∧
    extractAttestation req = some att

end Clients

section Carried

variable {toLowercase : String → String}

theorem foldl_nextLength {fields : List (String × String)}
    (unframed : ∀ field ∈ fields, field.1 ≠ "content-length") (length : Nat) :
    fields.foldl nextLength length = length := by
  induction fields generalizing length with
  | nil => rfl
  | cons field rest inductionHypothesis =>
      rw [List.foldl_cons, nextLength, if_neg (unframed field List.mem_cons_self)]
      exact inductionHypothesis (fun field among => unframed field (List.mem_cons_of_mem _ among)) _

/-- The lines of a client come back as header fields between those around them. -/
theorem Carrier.parse_around (carrier : Carrier toLowercase) {lines : List String}
    (oneLine : ∀ line ∈ lines, OneLine line)
    (unframed : ∀ field ∈ fieldsOf toLowercase lines, field.1 ≠ "content-length")
    (bounded : (carrier.around lines).length < 2 ^ 64) :
    ∃ req, Request.parse toLowercase (carrier.around lines) =
        .ok (some (req, (carrier.around lines).length)) ∧
      req.headers = fieldsOf toLowercase carrier.before ++ (fieldsOf toLowercase lines ++
        fieldsOf toLowercase carrier.after) := by
  obtain ⟨method, target, version, tokens⟩ := List.length_eq_three.mp carrier.tokens
  have fields : fieldsOf toLowercase (carrier.before ++ lines ++ carrier.after) =
      fieldsOf toLowercase carrier.before ++ (fieldsOf toLowercase lines ++
        fieldsOf toLowercase carrier.after) := by
    simp [fieldsOf, List.filterMap_append]
  have whole : ∀ line ∈ carrier.start :: (carrier.before ++ lines ++ carrier.after),
      OneLine line := by
    intro line among
    simp only [List.mem_cons, List.mem_append] at among
    rcases among with first | (before | own) | after
    · exact carrier.oneLine line (by simp [first])
    · exact carrier.oneLine line (by simp [before])
    · exact oneLine line own
    · exact carrier.oneLine line (by simp [after])
  have length : (fieldsOf toLowercase (carrier.before ++ lines ++ carrier.after)).foldl
      nextLength 0 = carrier.body.length := by
    rw [← carrier.framed, fields, fieldsOf_append, List.foldl_append, List.foldl_append, List.foldl_append,
      foldl_nextLength unframed]
  refine ⟨_, parse_messageBytes toLowercase whole tokens length bounded, fields⟩

/-- The attestation of a request is found before or among the lines of a client. -/
theorem Carrier.find_headers (carrier : Carrier toLowercase)
    (own : List (String × String)) :
    (fieldsOf toLowercase carrier.before ++ (own ++ fieldsOf toLowercase carrier.after)).find?
        (fun header => header.1 = "authorization" || header.1 = "x-tpt-attestation") =
      own.find? fun header => header.1 = "authorization" || header.1 = "x-tpt-attestation" := by
  have unattested := carrier.unattested
  rw [fieldsOf_append] at unattested
  have none : ∀ fields : List (String × String),
      (∀ field ∈ fields, field ∈ fieldsOf toLowercase carrier.before ++
        fieldsOf toLowercase carrier.after) →
      fields.find? (fun header => header.1 = "authorization" ||
        header.1 = "x-tpt-attestation") = none := by
    intro fields among
    apply List.find?_eq_none.mpr
    intro field member
    simpa using unattested field (among field member)
  rw [List.find?_append, List.find?_append, none _ fun field => List.mem_append_left _,
    none _ fun field => List.mem_append_right _]
  simp

end Carried

section Delivery

variable {ed : Ed25519} [SignatureBytes ed.Signature] {toLowercase : String → String}

theorem lineFeed_not_mem_hexEncode (data : List UInt8) : '\n' ∉ (hexEncode data).toList :=
  fun among => absurd (isWhitespace_hexEncode data '\n' among) (by decide)

theorem scheme_lead :
    "Authorization: TPT-Attestation " = "Authorization" ++ ": " ++ SCHEME := by decide

theorem attestationHeader_eq (att : Attestation ed) :
    attestationHeader att = "Authorization" ++ ": " ++ (SCHEME ++ hexEncode att.toBytes) := by
  unfold attestationHeader
  rw [scheme_lead]
  generalize hexEncode att.toBytes = text
  exact String.append_assoc

/-- The line of the library and of the console, as the server reads it. -/
theorem readHeader_attestationHeader (lowers : LowersAscii toLowercase) (att : Attestation ed) :
    readHeader toLowercase (attestationHeader att).toList =
      some ("authorization", SCHEME ++ hexEncode att.toBytes) := by
  have name : toLowercase (.ofList (trim "Authorization".toList)) = "authorization" :=
    lowers.lowered (by decide) (by decide) (by decide)
  rw [attestationHeader_eq, readHeader_line toLowercase _ (by decide), name, String.toList_append,
    trim_bearer, ← String.toList_append, String.ofList_toList]

theorem oneLine_append {lead text : String} (oneLine : OneLine lead)
    (absent : '\n' ∉ text.toList) : OneLine (lead ++ text) := by
  constructor
  · intro empty
    exact oneLine.1 (String.append_eq_empty_iff.mp empty).1
  · rw [String.toList_append, List.mem_append]
    rintro (lead | text)
    · exact oneLine.2 lead
    · exact absent text

theorem oneLine_attestationHeader (att : Attestation ed) : OneLine (attestationHeader att) := by
  have lead : OneLine "Authorization: TPT-Attestation " := ⟨by decide, by decide⟩
  unfold attestationHeader
  exact oneLine_append lead (lineFeed_not_mem_hexEncode att.toBytes)

theorem delivers_library (lowers : LowersAscii toLowercase) (carrier : Carrier toLowercase)
    {att : Attestation ed}
    (signature : SignatureBytes.fromBytes (SignatureBytes.toBytes att.sig) = att.sig)
    (bounded : ((Client.library carrier).request att).length < 2 ^ 64) :
    (Client.library carrier).Delivers att := by
  have fields : fieldsOf toLowercase [attestationHeader att] =
      [("authorization", SCHEME ++ hexEncode att.toBytes)] := by
    simp [fieldsOf, readHeader_attestationHeader lowers]
  obtain ⟨req, parsed, headers⟩ := carrier.parse_around
    (by simpa using oneLine_attestationHeader att) (by simp [fields]) bounded
  have found : (req.headers.find? fun header =>
      header.1 = "authorization" || header.1 = "x-tpt-attestation") =
        some ("authorization", SCHEME ++ hexEncode att.toBytes) := by
    rw [headers, carrier.find_headers, fields]
    simp
  exact ⟨req, parsed, extractAttestation_of_bearer signature found⟩

/-- The header lines of the console. -/
def consoleLines (host : String) (length : Nat) (att : Attestation ed) : List String :=
  ["Host: " ++ host, "Content-Type: application/json", "Content-Length: " ++ toString length,
    attestationHeader att, "Connection: close"]

/-- The text of a request of the console is a message. -/
theorem sendRequest_eq (host jsonBody : String) (att : Attestation ed) :
    sendRequest host (some (hexEncode att.toBytes)) jsonBody =
      messageBytes ("POST /mcp HTTP/1.1" :: consoleLines host (utf8 jsonBody).length att)
        (utf8 jsonBody) := by
  have start : "POST /mcp HTTP/1.1\r\nHost: " = "POST /mcp HTTP/1.1" ++ "\r\n" ++ "Host: " := by
    decide
  have kind : "\r\nContent-Type: application/json\r\nContent-Length: " =
      "\r\n" ++ "Content-Type: application/json" ++ "\r\n" ++ "Content-Length: " := by
    decide
  have finish : "Connection: close\r\n\r\n" = "Connection: close" ++ "\r\n\r\n" := by decide
  unfold sendRequest consoleLines attestationHeader
  dsimp only
  rw [start, kind, finish]
  generalize hexEncode att.toBytes = hex
  generalize toString (utf8 jsonBody).length = length
  simp only [messageBytes, headText, String.intercalate_cons_cons, String.intercalate_singleton,
    terminator, utf8_append, List.append_assoc]

theorem fieldsOf_consoleLines (lowers : LowersAscii toLowercase) (host : String) (length : Nat)
    (att : Attestation ed) :
    fieldsOf toLowercase (consoleLines host length att) =
      [("host", .ofList (trim host.toList)), ("content-type", "application/json"),
        ("content-length", toString length), ("authorization", SCHEME ++ hexEncode att.toBytes),
        ("connection", "close")] := by
  have hostLine : readHeader toLowercase ("Host: " ++ host).toList =
      some ("host", .ofList (trim host.toList)) :=
    lowers.readHeader host (show "Host: " = "Host" ++ ": " by decide) (by decide) (by decide)
      (by decide) (by decide)
  have kind : readHeader toLowercase "Content-Type: application/json".toList =
      some ("content-type", "application/json") :=
    lowers.readHeader "application/json" (show "Content-Type: " = "Content-Type" ++ ": " by decide)
      (by decide) (by decide) (by decide) (by decide)
  have lengthLine : readHeader toLowercase ("Content-Length: " ++ toString length).toList =
      some ("content-length", toString length) := by
    have read := lowers.readHeader (toString length)
      (show "Content-Length: " = "Content-Length" ++ ": " by decide) (by decide) (by decide)
      (by decide) (show _ = "content-length" by decide)
    rwa [trim_repr, String.ofList_toList] at read
  have finish : readHeader toLowercase "Connection: close".toList = some ("connection", "close") :=
    lowers.readHeader "close" (show "Connection: " = "Connection" ++ ": " by decide)
      (by decide) (by decide) (by decide) (by decide)
  simp only [fieldsOf, consoleLines, List.filterMap_cons, List.filterMap_nil, hostLine, kind,
    lengthLine, readHeader_attestationHeader lowers, finish]

theorem oneLine_consoleLines {host : String} (connected : '\n' ∉ host.toList) (length : Nat)
    (att : Attestation ed) : ∀ line ∈ consoleLines host length att, OneLine line := by
  have digits : '\n' ∉ (toString length).toList := fun among =>
    absurd (isWhitespace_repr length '\n' among) (by decide)
  intro line among
  simp only [consoleLines, List.mem_cons, List.not_mem_nil, or_false] at among
  rcases among with rfl | rfl | rfl | rfl | rfl
  · exact oneLine_append ⟨by decide, by decide⟩ connected
  · exact ⟨by decide, by decide⟩
  · exact oneLine_append ⟨by decide, by decide⟩ digits
  · exact oneLine_attestationHeader att
  · exact ⟨by decide, by decide⟩

theorem delivers_console (lowers : LowersAscii toLowercase) {host : String} (jsonBody : String)
    (connected : '\n' ∉ host.toList) {att : Attestation ed}
    (signature : SignatureBytes.fromBytes (SignatureBytes.toBytes att.sig) = att.sig)
    (bounded : ((Client.console host jsonBody connected : Client toLowercase).request att).length <
      2 ^ 64) :
    (Client.console host jsonBody connected : Client toLowercase).Delivers att := by
  have request : (Client.console host jsonBody connected : Client toLowercase).request att =
      messageBytes ("POST /mcp HTTP/1.1" :: consoleLines host (utf8 jsonBody).length att)
        (utf8 jsonBody) := sendRequest_eq host jsonBody att
  have fields := fieldsOf_consoleLines lowers host (utf8 jsonBody).length att
  rw [request] at bounded
  have small : (utf8 jsonBody).length < 2 ^ 64 := by
    rw [messageBytes, List.length_append, List.length_append] at bounded
    omega
  have length : (fieldsOf toLowercase (consoleLines host (utf8 jsonBody).length att)).foldl
      nextLength 0 = (utf8 jsonBody).length := by
    simp only [fields, List.foldl_cons, List.foldl_nil, nextLength, String.reduceEq, if_true,
      if_false, parseU64_repr small, Option.map_some, Option.getD_some]
    exact UInt64.toNat_ofNat_of_lt' small
  have tokens : splitWhitespace "POST /mcp HTTP/1.1".toList =
      ["POST".toList, "/mcp".toList, "HTTP/1.1".toList] := by decide
  have oneLine : ∀ line ∈ "POST /mcp HTTP/1.1" :: consoleLines host (utf8 jsonBody).length att,
      OneLine line := by
    rintro line (_ | ⟨_, among⟩)
    · exact ⟨by decide, by decide⟩
    · exact oneLine_consoleLines connected _ att line among
  obtain ⟨req, parsed, headers⟩ : ∃ req, Request.parse toLowercase
      (messageBytes ("POST /mcp HTTP/1.1" :: consoleLines host (utf8 jsonBody).length att)
        (utf8 jsonBody)) = .ok (some (req, (messageBytes ("POST /mcp HTTP/1.1" ::
          consoleLines host (utf8 jsonBody).length att) (utf8 jsonBody)).length)) ∧
      req.headers = fieldsOf toLowercase (consoleLines host (utf8 jsonBody).length att) :=
    ⟨_, parse_messageBytes toLowercase oneLine tokens length bounded, rfl⟩
  have found : (req.headers.find? fun header =>
      header.1 = "authorization" || header.1 = "x-tpt-attestation") =
        some ("authorization", SCHEME ++ hexEncode att.toBytes) := by
    rw [headers, fields]
    simp
  refine ⟨req, ?_, extractAttestation_of_bearer signature found⟩
  rw [request]
  exact parsed

theorem trimJs_of_visible {text : List Char} (visible : ∀ c ∈ text, isJsWhitespace c = false) :
    trimJs text = text :=
  (show trimJs text = strip isJsWhitespace text from rfl).trans (strip_of_visible visible)

theorem isJsWhitespace_hexEncode (data : List UInt8) :
    ∀ c ∈ (hexEncode data).toList, isJsWhitespace c = false := by
  apply forall_hexEncode
  exact forall_byte (by decide +kernel)

/-- The dashboard trims nothing off an attestation. -/
theorem headers_hexEncode (att : Attestation ed) :
    headers (hexEncode att.toBytes) =
      [("Content-Type", "application/json"), ("TPT-Attestation", hexEncode att.toBytes)] := by
  have nonempty : hexEncode att.toBytes ≠ "" := by
    intro empty
    have size := length_utf8_hexEncode att.toBytes
    rw [empty, att.length_toBytes] at size
    exact absurd size (by decide)
  have whole : String.ofList (trimJs (hexEncode att.toBytes).toList) = hexEncode att.toBytes := by
    rw [trimJs_of_visible (isJsWhitespace_hexEncode att.toBytes), String.ofList_toList]
  rw [headers, whole, if_neg nonempty]
  rfl

/-- The lines of the dashboard. -/
def dashboardLines (att : Attestation ed) : List String :=
  ["Content-Type" ++ ": " ++ "application/json",
    "TPT-Attestation" ++ ": " ++ hexEncode att.toBytes]

theorem request_dashboard (carrier : Carrier toLowercase) (att : Attestation ed) :
    (Client.dashboard carrier).request att = carrier.around (dashboardLines att) := by
  rw [Client.request, headers_hexEncode]
  rfl

/-- The lines of the dashboard have other names than those the server looks for. -/
theorem fieldsOf_dashboardLines (lowers : LowersAscii toLowercase) (att : Attestation ed) :
    fieldsOf toLowercase (dashboardLines att) =
      [("content-type", "application/json"), ("tpt-attestation", hexEncode att.toBytes)] := by
  have kind : toLowercase (.ofList (trim "Content-Type".toList)) = "content-type" :=
    lowers.lowered (by decide) (by decide) (by decide)
  have bearer : toLowercase (.ofList (trim "TPT-Attestation".toList)) = "tpt-attestation" :=
    lowers.lowered (by decide) (by decide) (by decide)
  have json : String.ofList (trim "application/json".toList) = "application/json" := by decide
  have whole : String.ofList (trim (hexEncode att.toBytes).toList) = hexEncode att.toBytes := by
    rw [trim_of_visible (isWhitespace_hexEncode att.toBytes), String.ofList_toList]
  have kindLine := readHeader_line toLowercase "application/json"
    (show ':' ∉ "Content-Type".toList by decide)
  have bearerLine := readHeader_line toLowercase (hexEncode att.toBytes)
    (show ':' ∉ "TPT-Attestation".toList by decide)
  rw [kind, json] at kindLine
  rw [bearer, whole] at bearerLine
  simp only [fieldsOf, dashboardLines, List.filterMap_cons, List.filterMap_nil, kindLine,
    bearerLine]

theorem oneLine_dashboardLines (att : Attestation ed) :
    ∀ line ∈ dashboardLines att, OneLine line := by
  have lead : OneLine ("TPT-Attestation" ++ ": ") := ⟨by decide, by decide⟩
  intro line among
  simp only [dashboardLines, List.mem_cons, List.not_mem_nil, or_false] at among
  rcases among with rfl | rfl
  · exact ⟨by decide, by decide⟩
  · exact oneLine_append lead (lineFeed_not_mem_hexEncode att.toBytes)

/-- The attestation of the dashboard does not arrive. -/
theorem not_delivers_dashboard (lowers : LowersAscii toLowercase) (carrier : Carrier toLowercase)
    {att : Attestation ed}
    (bounded : ((Client.dashboard carrier).request att).length < 2 ^ 64) :
    ¬ (Client.dashboard carrier).Delivers att := by
  have fields := fieldsOf_dashboardLines lowers att
  rw [request_dashboard] at bounded
  obtain ⟨req, parsed, headers⟩ := carrier.parse_around (oneLine_dashboardLines att)
    (by simp [fields]) bounded
  have none : (req.headers.find? fun header =>
      header.1 = "authorization" || header.1 = "x-tpt-attestation") = none := by
    rw [headers, carrier.find_headers, fields]
    simp
  rintro ⟨other, again, extracted⟩
  have same : req = other := by
    rw [request_dashboard] at again
    have both := parsed.symm.trans again
    simp only [Except.ok.injEq, Option.some.injEq, Prod.mk.injEq] at both
    exact both.1
  subst same
  rw [extractAttestation, none] at extracted
  cases extracted

end Delivery

section Agreement

variable {ed : Ed25519} [SignatureBytes ed.Signature] {toLowercase : String → String}

def Client.IsDashboard : Client toLowercase → Prop
  | dashboard _ => True
  | _ => False

/-- The server takes the attestation a client sends exactly if the client is not the
dashboard. -/
theorem Client.delivers_iff (lowers : LowersAscii toLowercase) (client : Client toLowercase)
    {att : Attestation ed}
    (signature : SignatureBytes.fromBytes (SignatureBytes.toBytes att.sig) = att.sig)
    (bounded : (client.request att).length < 2 ^ 64) :
    client.Delivers att ↔ ¬ client.IsDashboard := by
  cases client with
  | library carrier =>
      exact iff_of_true (delivers_library lowers carrier signature bounded) not_false
  | console host jsonBody connected =>
      exact iff_of_true (delivers_console lowers jsonBody connected signature bounded) not_false
  | dashboard carrier =>
      exact iff_of_false (not_delivers_dashboard lowers carrier bounded) (not_not_intro trivial)

end Agreement

section Instance

theorem lowersAscii_asciiLowercase : LowersAscii asciiLowercase := fun _ _ => rfl

theorem Client.delivers_iff_local :
    (Client.console "127.0.0.1:8080" "\x7b\x7d" (by decide) : Client asciiLowercase).Delivers
      (attests 1 .operator 7) := by
  apply (Client.delivers_iff lowersAscii_asciiLowercase _ (fromBytes_toBytes_sig 1 .operator 7)
    _).mpr
  · exact not_false
  · have hex := length_utf8_hexEncode (attests 1 .operator 7).toBytes
    rw [length_utf8, (attests 1 .operator 7).length_toBytes] at hex
    rw [Client.request, sendRequest]
    generalize hexEncode (attests 1 .operator 7).toBytes = text at hex
    rw [length_utf8]
    simp only [String.utf8ByteSize_append, hex]
    decide +kernel

/-- What a browser puts around the headers of the dashboard. -/
def browser : Carrier asciiLowercase where
  start := "POST /api/units/1/engage_autonomy HTTP/1.1"
  before := ["Host: 127.0.0.1:8080"]
  after := ["Content-Length: 0"]
  body := []
  tokens := by decide
  oneLine := by
    intro line among
    simp at among
    rcases among with rfl | rfl | rfl <;> exact ⟨by decide, by decide⟩
  framed := by decide
  unattested := by decide

/-- The server does not hear the dashboard. -/
theorem Client.dashboard_unheard :
    ¬ ∀ client : Client asciiLowercase, (client.request (attests 1 .operator 7)).length < 2 ^ 64 →
      client.Delivers (attests 1 .operator 7) := by
  intro all
  have bounded : ((Client.dashboard browser).request (attests 1 .operator 7)).length < 2 ^ 64 := by
    have hex := length_utf8_hexEncode (attests 1 .operator 7).toBytes
    rw [length_utf8, (attests 1 .operator 7).length_toBytes] at hex
    rw [request_dashboard, Carrier.around, dashboardLines, messageBytes, List.length_append,
      length_utf8]
    generalize hexEncode (attests 1 .operator 7).toBytes = text at hex
    simp only [browser, headText, List.cons_append, List.nil_append, String.intercalate_cons_cons,
      String.intercalate_singleton, String.utf8ByteSize_append, hex]
    decide +kernel
  exact not_delivers_dashboard lowersAscii_asciiLowercase browser bounded
    (all (.dashboard browser) bounded)

end Instance

end Teleop.Cloud
