import Teleop.Cloud.RequestText

/-!
# A connection from its first byte to its answer

What the reads of one connection give, over all calls of the service routine, and what becomes
of the request.  A call reads until the socket has nothing more; the end of the stream is one
more thing it can read.
-/

namespace Teleop.Cloud

open Teleop.Lib

/-- What one read of the socket gives. -/
inductive ReadResult where
  | data (first : UInt8) (rest : List UInt8)
  /-- Nothing now: `WouldBlock` or `TimedOut`. -/
  | wouldBlock
  /-- `Ok(0)`: the client has sent all it will send. -/
  | endOfStream
  /-- Any other error. -/
  | failed
  deriving DecidableEq, Repr

/-- All bytes that some reads give. -/
def received : List ReadResult → List UInt8
  | [] => []
  | .data first rest :: results => first :: rest ++ received results
  | _ :: results => received results

/-- How the read loop is left. -/
inductive LoopExit where
  | blocked (readBuf : List UInt8)
  | removed
  /-- It has not been left: the next read is still to come. -/
  | reading (readBuf : List UInt8)
  deriving DecidableEq, Repr

/-- The read loop, and the results it has not used. -/
def readLoop (readBuf : List UInt8) : List ReadResult → LoopExit × List ReadResult
  | [] => (.reading readBuf, [])
  | .data first rest :: results => readLoop (readBuf ++ first :: rest) results
  | .wouldBlock :: results => (.blocked readBuf, results)
  | .endOfStream :: results => (.removed, results)
  | .failed :: results => (.removed, results)

/-- One connection: its buffer as long as the server keeps it, and what was dispatched. -/
structure Connection where
  readBuf : Option (List UInt8)
  dispatched : List Request
  deriving DecidableEq

namespace Connection

variable (toLowercase : String → String)

/-- A connection just accepted. -/
def accepted : Connection := ⟨some [], []⟩

/-- The answer phase, with the connection taken out of the table.  A panic drops it too. -/
def answer (conn : Connection) (readBuf : List UInt8) : Connection :=
  match serviceConn toLowercase readBuf [] with
  | .closed | .panicked => { conn with readBuf := none }
  | .dispatched req => ⟨none, conn.dispatched ++ [req]⟩
  | .buffering readBuf => { conn with readBuf := some readBuf }

/-- One call of the service routine; it does nothing for a connection that is gone. -/
def service (conn : Connection) (results : List ReadResult) : Connection × List ReadResult :=
  match conn.readBuf with
  | none => (conn, results)
  | some readBuf =>
      match readLoop readBuf results with
      | (.blocked readBuf, results) => (conn.answer toLowercase readBuf, results)
      | (.removed, results) => ({ conn with readBuf := none }, results)
      | (.reading readBuf, results) => ({ conn with readBuf := some readBuf }, results)

/-- So many calls, one after the other. -/
def serve : (calls : Nat) → Connection → List ReadResult → Connection
  | 0, conn, _ => conn
  | calls + 1, conn, results =>
      let (conn, results) := conn.service toLowercase results
      serve calls conn results

/-- What one result does to the connection. -/
def next (conn : Connection) (result : ReadResult) : Connection :=
  match conn.readBuf, result with
  | none, _ => conn
  | some readBuf, .data first rest => { conn with readBuf := some (readBuf ++ first :: rest) }
  | some readBuf, .wouldBlock => conn.answer toLowercase readBuf
  | some _, .endOfStream => { conn with readBuf := none }
  | some _, .failed => { conn with readBuf := none }

/-- The bytes of `b` arrive, in whatever parts, and the stream ends after them, if it ends; the
last read found nothing more. -/
structure Arrives (b : List UInt8) (results : List ReadResult) : Prop where
  whole : received results = b
  intact : .failed ∉ results
  late : ∀ before after, results = before ++ .endOfStream :: after → received after = []
  drained : ∀ before first rest, results ≠ before ++ [.data first rest]

/-- The read that follows the last byte finds nothing for now. -/
def BlocksAfterLast (results : List ReadResult) : Prop :=
  ∃ before first rest after,
    results = before ++ .data first rest :: .wouldBlock :: after ∧ received after = []

end Connection

theorem received_append (first second : List ReadResult) :
    received (first ++ second) = received first ++ received second := by
  induction first with
  | nil => rfl
  | cons result first inductionHypothesis =>
      cases result <;> simp [received, inductionHypothesis]

/-- There is a last read that gave something. -/
theorem exists_last_data {results : List ReadResult} (something : received results ≠ []) :
    ∃ before first rest after,
      results = before ++ .data first rest :: after ∧ received after = [] := by
  induction results with
  | nil => exact absurd rfl something
  | cons result results inductionHypothesis =>
      by_cases later : received results = []
      · cases result with
        | data first rest => exact ⟨[], first, rest, results, rfl, later⟩
        | _ => exact absurd later something
      · obtain ⟨before, first, rest, after, rfl, last⟩ := inductionHypothesis later
        exact ⟨result :: before, first, rest, after, rfl, last⟩

namespace Connection

variable {toLowercase : String → String} {conn : Connection}

theorem foldl_next_of_gone (gone : conn.readBuf = none) (results : List ReadResult) :
    results.foldl (next toLowercase) conn = conn := by
  induction results with
  | nil => rfl
  | cons result results inductionHypothesis =>
      have same : conn.next toLowercase result = conn := by simp [next, gone]
      rw [List.foldl_cons, same, inductionHypothesis]

/-- A call of the service routine amounts to the results it uses, one after the other. -/
theorem foldl_next_service (results : List ReadResult) :
    results.foldl (next toLowercase) conn =
      (conn.service toLowercase results).2.foldl (next toLowercase)
        (conn.service toLowercase results).1 := by
  obtain ⟨readBuf, dispatched⟩ := conn
  cases readBuf with
  | none => rfl
  | some readBuf =>
      induction results generalizing readBuf with
      | nil => rfl
      | cons result results inductionHypothesis =>
          cases result with
          | data first rest => exact inductionHypothesis (readBuf ++ first :: rest)
          | _ => rfl

theorem length_readLoop_le (readBuf : List UInt8) (results : List ReadResult) :
    (readLoop readBuf results).2.length ≤ results.length - 1 := by
  induction results generalizing readBuf with
  | nil => exact Nat.le_refl 0
  | cons result results inductionHypothesis =>
      cases result with
      | data first rest =>
          have further := inductionHypothesis (readBuf ++ first :: rest)
          rw [readLoop, List.length_cons]
          omega
      | _ => simp [readLoop]

/-- A call for a connection in the table uses a result if there is one. -/
theorem length_service_le {readBuf : List UInt8} (kept : conn.readBuf = some readBuf)
    (results : List ReadResult) :
    (conn.service toLowercase results).2.length ≤ results.length - 1 := by
  have used := length_readLoop_le readBuf results
  unfold service
  rw [kept]
  dsimp only
  cases left : readLoop readBuf results with
  | mk exit remaining =>
      rw [left] at used
      cases exit <;> exact used

theorem serve_of_gone (gone : conn.readBuf = none) (calls : Nat) (results : List ReadResult) :
    serve toLowercase calls conn results = conn := by
  induction calls with
  | zero => rfl
  | succ calls inductionHypothesis =>
      have idle : conn.service toLowercase results = (conn, results) := by simp [service, gone]
      rw [serve, idle]
      exact inductionHypothesis

/-- Enough calls use up all results, or the connection is gone before. -/
theorem serve_eq_foldl {calls : Nat} {results : List ReadResult}
    (enough : results.length ≤ calls) :
    serve toLowercase calls conn results = results.foldl (next toLowercase) conn := by
  induction calls generalizing conn results with
  | zero =>
      obtain rfl := List.length_eq_zero_iff.mp (Nat.le_zero.mp enough)
      rfl
  | succ calls inductionHypothesis =>
      cases kept : conn.readBuf with
      | none => rw [serve_of_gone kept, foldl_next_of_gone kept]
      | some readBuf =>
          have used : (conn.service toLowercase results).2.length ≤ results.length - 1 :=
            length_service_le kept results
          have shorter : (conn.service toLowercase results).2.length ≤ calls := by omega
          rw [foldl_next_service]
          exact inductionHypothesis shorter

/-- A part of a request that fits is kept for the next call. -/
theorem answer_of_part {b : List UInt8} {req : Request}
    (parsed : Request.parse toLowercase b = .ok (some (req, b.length)))
    (limited : b.length ≤ 2 ^ 20) {part : List UInt8} (front : part <+: b) (proper : part ≠ b) :
    (Connection.mk (some part) []).answer toLowercase part = ⟨some part, []⟩ := by
  have waits : Request.parse toLowercase part = .ok none :=
    (stable_parse toLowercase).wait parsed part (by rwa [List.take_length])
      (by rwa [List.take_length])
  have short : ¬2 ^ 20 < part.length := Nat.not_lt.mpr (front.length_le.trans limited)
  simp only [answer, serviceConn, List.append_nil, if_neg short, waits]

/-- The whole request is dispatched. -/
theorem answer_of_whole {b : List UInt8} {req : Request}
    (parsed : Request.parse toLowercase b = .ok (some (req, b.length)))
    (limited : b.length ≤ 2 ^ 20) :
    (Connection.mk (some b) []).answer toLowercase b = ⟨none, [req]⟩ := by
  have short : ¬2 ^ 20 < b.length := Nat.not_lt.mpr limited
  simp only [answer, serviceConn, List.append_nil, if_neg short, parsed, List.nil_append]

/-- Until the last byte is there the bytes are gathered, whatever the reads are like. -/
theorem foldl_next_of_part {b : List UInt8} {req : Request}
    (parsed : Request.parse toLowercase b = .ok (some (req, b.length)))
    (limited : b.length ≤ 2 ^ 20) {results : List ReadResult}
    (front : received results <+: b) (proper : received results ≠ b)
    (intact : .failed ∉ results) (running : .endOfStream ∉ results) :
    results.foldl (next toLowercase) accepted = ⟨some (received results), []⟩ := by
  induction results using List.reverseRecOn with
  | nil => rfl
  | append_singleton results result inductionHypothesis =>
      rw [received_append] at front proper
      rw [List.mem_append, not_or] at running intact
      have earlier : received results <+: b := (List.prefix_append _ _).trans front
      have part : received results ≠ b := by
        intro whole
        rw [whole] at front proper
        have length := front.length_le
        rw [List.length_append] at length
        have nothing : received [result] = [] := List.eq_nil_of_length_eq_zero (by omega)
        rw [nothing, List.append_nil] at proper
        exact proper rfl
      rw [List.foldl_append, inductionHypothesis earlier part intact.1 running.1, received_append]
      cases result with
      | data first rest => simp [next, received]
      | wouldBlock =>
          simp only [List.foldl_cons, List.foldl_nil, received, List.append_nil]
          exact answer_of_part parsed limited earlier part
      | endOfStream => exact absurd (List.mem_singleton_self _) running.2
      | failed => exact absurd (List.mem_singleton_self _) intact.2

/-- With the last byte there, what is read next decides. -/
theorem foldl_next_of_arrives {b : List UInt8} {req : Request}
    (parsed : Request.parse toLowercase b = .ok (some (req, b.length)))
    (limited : b.length ≤ 2 ^ 20) {before after : List ReadResult} {first : UInt8}
    {rest : List UInt8} (arrives : Arrives b (before ++ .data first rest :: after))
    (last : received after = []) :
    (before ++ .data first rest :: after).foldl (next toLowercase) accepted =
      after.foldl (next toLowercase) ⟨some b, []⟩ := by
  have whole : received before ++ first :: rest = b := by
    have all := arrives.whole
    rw [received_append, received, last, List.append_nil] at all
    exact all
  have intact := arrives.intact
  rw [List.mem_append, not_or] at intact
  have running : .endOfStream ∉ before := by
    intro among
    obtain ⟨earlier, later, rfl⟩ := List.append_of_mem among
    have ended := arrives.late earlier (later ++ .data first rest :: after) (by simp)
    rw [received_append, List.append_eq_nil_iff] at ended
    cases ended.2
  have front : received before <+: b := ⟨_, whole⟩
  have proper : received before ≠ b := by
    intro same
    rw [same] at whole
    simp at whole
  have gathered := foldl_next_of_part parsed limited front proper intact.1 running
  rw [List.foldl_append, gathered, List.foldl_cons]
  simp only [next, whole]

/-- A request of which all bytes arrive is dispatched once, and its connection dropped, exactly
when the read after its last byte finds nothing for now.  If it finds the end of the stream
instead, the connection is dropped with the request unanswered. -/
theorem serve_eq_dispatched_iff {b : List UInt8} {req : Request}
    (parsed : Request.parse toLowercase b = .ok (some (req, b.length)))
    (limited : b.length ≤ 2 ^ 20) {results : List ReadResult} (arrives : Arrives b results)
    {calls : Nat} (enough : results.length ≤ calls) :
    (serve toLowercase calls accepted results = ⟨none, [req]⟩ ↔ BlocksAfterLast results) ∧
      (¬BlocksAfterLast results → serve toLowercase calls accepted results = ⟨none, []⟩) := by
  rw [serve_eq_foldl enough]
  have blocked : BlocksAfterLast results →
      results.foldl (next toLowercase) accepted = ⟨none, [req]⟩ := by
    rintro ⟨before, first, rest, after, rfl, last⟩
    rw [foldl_next_of_arrives parsed limited arrives last, List.foldl_cons]
    have answered : Connection.next toLowercase ⟨some b, []⟩ .wouldBlock = ⟨none, [req]⟩ :=
      answer_of_whole parsed limited
    rw [answered]
    exact foldl_next_of_gone rfl after
  have ended : ¬BlocksAfterLast results →
      results.foldl (next toLowercase) accepted = ⟨none, []⟩ := by
    intro other
    have something : received results ≠ [] := by
      obtain ⟨p, head, complete, -, -⟩ := complete_of_parse toLowercase parsed
      have length := complete.length
      rw [arrives.whole]
      apply List.ne_nil_of_length_pos
      omega
    obtain ⟨before, first, rest, after, rfl, last⟩ := exists_last_data something
    rw [foldl_next_of_arrives parsed limited arrives last]
    cases after with
    | nil => exact absurd rfl (arrives.drained before first rest)
    | cons result after =>
        cases result with
        | data _ _ => cases last
        | wouldBlock => exact absurd ⟨before, first, rest, after, rfl, last⟩ other
        | endOfStream => exact foldl_next_of_gone rfl after
        | failed => exact absurd (by simp) arrives.intact
  refine ⟨⟨?_, blocked⟩, ended⟩
  intro served
  by_contra other
  rw [ended other] at served
  cases served

section Instance

/-- A request without a body. -/
def statusRequest : List UInt8 := messageBytes ["GET / HTTP/1.1"] []

theorem parse_statusRequest :
    ∃ req, Request.parse asciiLowercase statusRequest = .ok (some (req, statusRequest.length)) := by
  have oneLine : ∀ line ∈ ["GET / HTTP/1.1"], OneLine line := by
    intro line among
    obtain rfl := List.mem_singleton.mp among
    exact ⟨by decide, by decide⟩
  have tokens : splitWhitespace "GET / HTTP/1.1".toList =
      ["GET".toList, "/".toList, "HTTP/1.1".toList] := by decide
  exact ⟨_, parse_messageBytes asciiLowercase oneLine tokens rfl (by decide)⟩

/-- The end of the stream comes last. -/
theorem arrives_of_closed {b : List UInt8} {results : List ReadResult}
    (whole : received results = b) (intact : .failed ∉ results)
    (running : .endOfStream ∉ results) : Arrives b (results ++ [.endOfStream]) where
  whole := by simp [received_append, whole, received]
  intact := by simp [intact]
  late before after split := by
    induction after using List.reverseRecOn with
    | nil => rfl
    | append_singleton after result _ =>
        rw [← List.cons_append, ← List.append_assoc] at split
        have earlier := (List.append_inj' split rfl).1
        exact absurd (by simp [earlier]) running
  drained before first rest split := by
    have last := (List.append_inj' split rfl).2
    cases last

/-- The reads of a client that waits for the answer before it closes. -/
def waitingReads : List ReadResult := [.wouldBlock, .data 71 statusRequest.tail, .wouldBlock]

theorem serve_waitingReads :
    ∃ req, serve asciiLowercase 4 accepted (waitingReads ++ [.endOfStream]) = ⟨none, [req]⟩ := by
  obtain ⟨req, parsed⟩ := parse_statusRequest
  have arrives : Arrives statusRequest (waitingReads ++ [.endOfStream]) :=
    arrives_of_closed (by decide +kernel) (by decide) (by decide)
  have enough : (waitingReads ++ [ReadResult.endOfStream]).length ≤ 4 := by decide
  have served := serve_eq_dispatched_iff parsed (by decide +kernel) arrives enough
  exact ⟨req, served.1.mpr ⟨[.wouldBlock], 71, statusRequest.tail, [.endOfStream], rfl, rfl⟩⟩

/-- A client that sends all it has and closes its end for sending gets no answer. -/
theorem not_always_dispatched :
    ¬∀ b req results calls, Request.parse asciiLowercase b = .ok (some (req, b.length)) →
      b.length ≤ 2 ^ 20 → Arrives b results → results.length ≤ calls →
        serve asciiLowercase calls accepted results = ⟨none, [req]⟩ := by
  intro dispatched
  obtain ⟨req, parsed⟩ := parse_statusRequest
  have arrives : Arrives statusRequest ([.data 71 statusRequest.tail] ++ [.endOfStream]) :=
    arrives_of_closed (by decide +kernel) (by decide) (by decide)
  have served := dispatched statusRequest req _ 2 parsed (by decide +kernel) arrives (by decide)
  have gone : serve asciiLowercase 2 accepted
      ([.data 71 statusRequest.tail] ++ [.endOfStream]) = ⟨none, []⟩ := rfl
  rw [gone] at served
  cases served

end Instance

end Connection

end Teleop.Cloud
