import Mathlib.Data.List.Range
import Teleop.Cloud.JsonDouble
import Teleop.Cloud.Runtime

/-!
# Clients of one server

Whatever the clients send and in whatever order the ticks serve them, what becomes of a
connection is what would become of it alone, and the fleet answers the requests one after the
other.  The log of the ticks is cut into what concerns one connection, what was asked, and what
was given as answers.
-/

namespace Teleop.Cloud

open Teleop.Lib Teleop.Sec

section Log

variable {p : Primitives}

namespace ConnEvent

def opens : ConnEvent p → Option UInt64
  | .opened token => some token
  | _ => none

/-- What was read from one connection. -/
def readsOf (token : UInt64) : ConnEvent p → List ReadResult
  | .read other results => if other = token then results else []
  | _ => []

/-- The request that was answered on one connection. -/
def askedBy (token : UInt64) : ConnEvent p → Option Request
  | .answered other req _ _ => if other = token then some req else none
  | _ => none

def asks : ConnEvent p → Option (Request × Surroundings p)
  | .answered _ req around _ => some (req, around)
  | _ => none

def gives : ConnEvent p → Option Response
  | .answered _ _ _ resp => some resp
  | _ => none

end ConnEvent

variable (events : List (ConnEvent p)) (token : UInt64)

def openedIn : List UInt64 := events.filterMap ConnEvent.opens

def readsOf : List ReadResult := events.flatMap (ConnEvent.readsOf token)

def askedBy : List Request := events.filterMap (ConnEvent.askedBy token)

/-- What the reads of one connection come to, if it is alone. -/
def alone (toLowercase : String → String) : Connection :=
  (readsOf events token).foldl (Connection.next toLowercase) .accepted

/-- The tokens have not come round to the first one again. -/
def FewOpened : Prop := (openedIn events).length + 1 < 2 ^ 64

variable {events} (further : List (ConnEvent p))

theorem openedIn_append : openedIn (events ++ further) = openedIn events ++ openedIn further :=
  List.filterMap_append ..

theorem readsOf_append :
    readsOf (events ++ further) token = readsOf events token ++ readsOf further token :=
  List.flatMap_append ..

theorem askedBy_append :
    askedBy (events ++ further) token = askedBy events token ++ askedBy further token :=
  List.filterMap_append ..

theorem alone_append (toLowercase : String → String) : alone (events ++ further) token toLowercase =
    (readsOf further token).foldl (Connection.next toLowercase) (alone events token toLowercase) := by
  rw [alone, alone, readsOf_append, List.foldl_append]

variable {token further}

theorem openedIn_append_of_nil (none : openedIn further = []) :
    openedIn (events ++ further) = openedIn events := by
  rw [openedIn_append, none, List.append_nil]

theorem alone_of_unread {toLowercase : String → String} (unread : readsOf further token = []) :
    alone (events ++ further) token toLowercase = alone events token toLowercase := by
  rw [alone_append, unread]
  rfl

theorem FewOpened.of_append (few : FewOpened (events ++ further)) : FewOpened events := by
  unfold FewOpened at few ⊢
  rw [openedIn_append, List.length_append] at few
  omega

/-- What a visit to a connection of the table logs. -/
inductive VisitLog (token : UInt64) : List (ConnEvent p) → Prop
  | silent (results : List ReadResult) : VisitLog token [.read token results]
  | answered (results : List ReadResult) (req : Request) (around : Surroundings p)
      (resp : Response) :
      VisitLog token [.read token results, .answered token req around resp]

namespace VisitLog

variable (log : VisitLog token events)

include log

theorem openedIn_eq_nil : openedIn events = [] := by
  cases log <;> rfl

theorem not_swept (other : UInt64) (idle : Nat) : .swept other idle ∉ events := by
  cases log <;> simp

theorem readsOf_of_ne {other : UInt64} (different : other ≠ token) : readsOf events other = [] := by
  cases log <;> simp [readsOf, ConnEvent.readsOf, different.symm]

theorem askedBy_of_ne {other : UInt64} (different : other ≠ token) : askedBy events other = [] := by
  cases log <;> simp [askedBy, ConnEvent.askedBy, different.symm]

end VisitLog

end Log

section Requests

variable (F : Type) [JsonNumber F] {T R : Type} {p : Primitives} [SignatureBytes p.ed.Signature]
  [UnitTransport T] [Recorder R] (page : String)

/-- Requests handled one after the other, and the answers to them. -/
def answerAll (server : FleetServer T R p) :
    List (Request × Surroundings p) → FleetServer T R p × List Response
  | [] => (server, [])
  | (req, around) :: rest =>
      let (server, resp) := server.handleRequest F page req around
      let (server, resps) := answerAll server rest
      (server, resp :: resps)

theorem answerAll_append (server : FleetServer T R p)
    (first second : List (Request × Surroundings p)) :
    answerAll F page server (first ++ second) =
      let (server, resps) := answerAll F page server first
      let (server, later) := answerAll F page server second
      (server, resps ++ later) := by
  induction first generalizing server with
  | nil => rfl
  | cons asked rest inductionHypothesis =>
      obtain ⟨req, around⟩ := asked
      simp only [List.cons_append, answerAll, inductionHypothesis]

end Requests

namespace Connection

variable {toLowercase : String → String}

theorem parse_of_dispatched {readBuf : List UInt8} {req : Request}
    (served : serviceConn toLowercase readBuf [] = .dispatched req) :
    ∃ total, Request.parse toLowercase readBuf = .ok (some (req, total)) := by
  unfold serviceConn at served
  rw [List.append_nil] at served
  dsimp only at served
  split at served
  · cases served
  split at served
  · rename_i parsed
    cases served
    exact ⟨_, parsed⟩
  all_goals cases served

theorem of_buffering {readBuf kept : List UInt8}
    (served : serviceConn toLowercase readBuf [] = .buffering kept) :
    kept = readBuf ∧ kept.length ≤ 2 ^ 20 := by
  unfold serviceConn at served
  rw [List.append_nil] at served
  dsimp only at served
  split at served
  · cases served
  rename_i short
  split at served
  all_goals cases served
  exact ⟨rfl, Nat.not_lt.mp short⟩

variable (toLowercase) in
/-- A connection alone gathers what it reads, until it is gone; then it was answered once with
what the parser makes of the gathered bytes, or not at all. -/
theorem foldl_next_accepted (results : List ReadResult) :
    results.foldl (next toLowercase) accepted = ⟨some (received results), []⟩ ∨
      (results.foldl (next toLowercase) accepted).readBuf = none ∧
        ((results.foldl (next toLowercase) accepted).dispatched = [] ∨
          ∃ req total, (results.foldl (next toLowercase) accepted).dispatched = [req] ∧
            Request.parse toLowercase (received results) = .ok (some (req, total))) := by
  induction results using List.reverseRecOn with
  | nil => exact .inl rfl
  | append_singleton results result inductionHypothesis =>
      rw [List.foldl_append, received_append]
      rcases inductionHypothesis with gathers | ⟨gone, answered⟩
      · rw [gathers]
        cases result with
        | data first rest => exact .inl (by simp [next, received])
        | endOfStream => exact .inr ⟨rfl, .inl rfl⟩
        | failed => exact .inr ⟨rfl, .inl rfl⟩
        | wouldBlock =>
            simp only [List.foldl_cons, List.foldl_nil, next, answer, received, List.append_nil,
              List.nil_append]
            cases served : serviceConn toLowercase (received results) [] with
            | closed => exact .inr ⟨rfl, .inl rfl⟩
            | panicked => exact .inr ⟨rfl, .inl rfl⟩
            | dispatched req =>
                obtain ⟨total, parsed⟩ := parse_of_dispatched served
                exact .inr ⟨rfl, .inr ⟨req, total, rfl, parsed⟩⟩
            | buffering kept =>
                obtain ⟨rfl, -⟩ := of_buffering served
                exact .inl rfl
      · rw [foldl_next_of_gone gone]
        refine .inr ⟨gone, ?_⟩
        rcases answered with silent | ⟨req, total, once, parsed⟩
        · exact .inl silent
        · exact .inr ⟨req, total, once, parse_append parsed _⟩

end Connection

/-- What the visited connection comes to alone. -/
theorem alone_visited {p : Primitives} {toLowercase : String → String}
    {past events : List (ConnEvent p)} {token : UInt64} {readBuf : List UInt8}
    {results : List ReadResult}
    (before : alone past token toLowercase = ⟨some readBuf, []⟩)
    (reads : readsOf events token = results) (used : (readLoop readBuf results).2 = []) :
    alone (past ++ events) token toLowercase =
      ((Connection.mk (some readBuf) []).service toLowercase results).1 := by
  have unused : ((Connection.mk (some readBuf) []).service toLowercase results).2 = [] := by
    unfold Connection.service
    dsimp only
    cases exits : readLoop readBuf results with
    | mk exit rest =>
        rw [exits] at used
        cases exit <;> exact used
  rw [alone_append, reads, before, Connection.foldl_next_service, unused]
  rfl

namespace HostedServer

section Calls

variable {T R : Type} {p : Primitives}

theorem exists_of_andThen {first : After T R p} {next : HostedServer T R p → After T R p}
    {after : HostedServer T R p} {events : List (ConnEvent p)}
    (done : andThen first next = some (after, events)) :
    ∃ middle earlier later, first = some (middle, earlier) ∧ next middle = some (after, later) ∧
      events = earlier ++ later := by
  obtain ⟨⟨middle, earlier⟩, begun, rest⟩ := Option.bind_eq_some_iff.mp done
  obtain ⟨⟨last, later⟩, ended, both⟩ := Option.map_eq_some_iff.mp rest
  cases both
  exact ⟨middle, earlier, later, begun, ended, rfl⟩

theorem andThen_of_eq {first : After T R p} {next : HostedServer T R p → After T R p}
    {middle after : HostedServer T R p} {earlier later : List (ConnEvent p)}
    (begun : first = some (middle, earlier)) (ended : next middle = some (after, later)) :
    andThen first next = some (after, earlier ++ later) := by
  simp only [andThen, begun, Option.bind_some, ended, Option.map_some]

theorem length_drop {host : HostedServer T R p} {token : UInt64} {conn : Conn}
    (found : host.conns.lookup token = some conn) :
    (host.drop token).conns.entries.length + 1 = host.conns.entries.length := by
  have listed : token ∈ host.conns.keys :=
    AList.mem_keys.mp (AList.lookup_isSome.mp (Option.isSome_of_eq_some found))
  have keys : (host.drop token).conns.keys = host.conns.keys.erase token := AList.keys_erase _ _
  have count : (host.conns.keys.erase token).length + 1 = host.conns.keys.length :=
    List.length_erase_add_one listed
  rw [← keys] at count
  simpa only [AList.keys, List.keys, List.length_map] using count

theorem lookup_drop_self (host : HostedServer T R p) (token : UInt64) :
    (host.drop token).conns.lookup token = none :=
  AList.lookup_erase _ _

theorem lookup_drop_of_ne {host : HostedServer T R p} {token other : UInt64}
    (different : other ≠ token) :
    (host.drop token).conns.lookup other = host.conns.lookup other :=
  AList.lookup_erase_ne different

theorem lookup_sweepIdle {host after : HostedServer T R p} {events : List (ConnEvent p)} {now : Nat}
    (done : sweepIdle now host = some (after, events)) (token : UInt64) (conn : Conn) :
    after.conns.lookup token = some conn ↔ host.conns.lookup token = some conn ∧
      now - conn.lastActive ≤ host.limits.idleTimeout := by
  cases done
  rw [← Option.mem_def, ← Option.mem_def, AList.mem_lookup_iff, AList.mem_lookup_iff,
    List.mem_filter]
  exact and_congr_right fun _ => decide_eq_true_iff

/-- What a sweep logs is what it takes out of the table. -/
theorem mem_sweepIdle {host after : HostedServer T R p} {events : List (ConnEvent p)} {now : Nat}
    (done : sweepIdle now host = some (after, events)) (event : ConnEvent p) :
    event ∈ events ↔ ∃ token conn, host.conns.lookup token = some conn ∧
      host.limits.idleTimeout < now - conn.lastActive ∧
        event = .swept token (now - conn.lastActive) := by
  cases done
  constructor
  · intro logged
    obtain ⟨⟨token, conn⟩, listed, rfl⟩ := List.mem_map.mp logged
    obtain ⟨among, goes⟩ := List.mem_filter.mp listed
    have late : ¬now - conn.lastActive ≤ host.limits.idleTimeout := by
      simpa [stays, idleFor] using goes
    exact ⟨token, conn, AList.mem_lookup_iff.mpr among, Nat.not_le.mp late, rfl⟩
  · rintro ⟨token, conn, found, late, rfl⟩
    have goes : (!host.stays now ⟨token, conn⟩) = true := by
      simpa [stays, idleFor, ← Nat.lt_sub_iff_add_lt] using late
    exact List.mem_map.mpr
      ⟨⟨token, conn⟩, List.mem_filter.mpr ⟨AList.mem_lookup_iff.mp found, goes⟩, rfl⟩

end Calls

variable {F : Type} [JsonNumber F] {T R : Type} {p : Primitives} [SignatureBytes p.ed.Signature]
  [UnitTransport T] [Recorder R] {toLowercase : String → String} {page : String}
  {start : FleetServer T R p} {limits : ServerLimits}

variable (F toLowercase page start limits) in
/-- What holds of a server and the log of what it did, from a server that was just bound. -/
structure Hosts (host : HostedServer T R p) (events : List (ConnEvent p)) : Prop where
  limited : host.limits = limits
  numbered : openedIn events =
    (List.range (openedIn events).length).map fun i => UInt64.ofNat (i + 1)
  nextToken : host.nextToken = .ofNat ((openedIn events).length + 1)
  unread : ∀ token ∉ openedIn events, readsOf events token = []
  opened : ∀ token conn, host.conns.lookup token = some conn → token ∈ openedIn events
  /-- A connection of the table is as it would be alone. -/
  alone : ∀ token conn, host.conns.lookup token = some conn →
    alone events token toLowercase = ⟨some conn.readBuf, []⟩
  /-- And so is what was answered on it. -/
  asked : ∀ token, askedBy events token = (Cloud.alone events token toLowercase).dispatched
  /-- Only its own reads and its own silence take a connection out of the table. -/
  left : ∀ token ∈ openedIn events, host.conns.lookup token = none →
    (Cloud.alone events token toLowercase).readBuf = none ∨ ∃ idle, .swept token idle ∈ events
  idle : ∀ token idle, .swept token idle ∈ events → limits.idleTimeout < idle
  /-- The fleet has handled the requests one after the other. -/
  sequential : answerAll F page start (events.filterMap ConnEvent.asks) =
    (host.server, events.filterMap ConnEvent.gives)
  bounded : 0 < limits.maxConns → host.conns.entries.length ≤ limits.maxConns
  small : ∀ token conn, host.conns.lookup token = some conn → conn.readBuf.length ≤ 2 ^ 20

variable (F toLowercase page start limits) in
/-- A call keeps that. -/
def Keeps (call : HostedServer T R p → After T R p) : Prop :=
  ∀ ⦃host : HostedServer T R p⦄ ⦃past : List (ConnEvent p)⦄ ⦃after : HostedServer T R p⦄
    ⦃events : List (ConnEvent p)⦄, Hosts F toLowercase page start limits host past →
    call host = some (after, events) → FewOpened (past ++ events) →
      Hosts F toLowercase page start limits after (past ++ events)

theorem keeps_idle : Keeps F toLowercase page start limits fun host => some (host, []) := by
  intro host past after events holds done few
  cases done
  rw [List.append_nil]
  exact holds

theorem Keeps.andThen {first next : HostedServer T R p → After T R p}
    (keepsFirst : Keeps F toLowercase page start limits first)
    (keepsNext : Keeps F toLowercase page start limits next) :
    Keeps F toLowercase page start limits fun host => andThen (first host) next := by
  intro host past after events holds done few
  obtain ⟨middle, earlier, later, begun, ended, rfl⟩ := exists_of_andThen done
  rw [← List.append_assoc] at few ⊢
  exact keepsNext (keepsFirst holds begun few.of_append) ended few

theorem keeps_each {Item : Type} {call : Item → HostedServer T R p → After T R p}
    (keeps : ∀ item, Keeps F toLowercase page start limits (call item)) (items : List Item) :
    Keeps F toLowercase page start limits (each call items) := by
  induction items with
  | nil => exact keeps_idle
  | cons item rest inductionHypothesis => exact (keeps item).andThen inductionHypothesis

section Accepting

variable {host : HostedServer T R p} {past : List (ConnEvent p)}

/-- A token is not given out twice. -/
theorem Hosts.nextToken_notMem (holds : Hosts F toLowercase page start limits host past)
    (few : FewOpened past) : host.nextToken ∉ openedIn past := by
  intro among
  rw [holds.numbered] at among
  obtain ⟨i, listed, same⟩ := List.mem_map.mp among
  have below : i < (openedIn past).length := List.mem_range.mp listed
  have small : i + 1 < 2 ^ 64 := Nat.lt_trans (Nat.add_lt_add_right below 1) few
  have numbers := congrArg UInt64.toNat (same.trans holds.nextToken)
  rw [UInt64.toNat_ofNat_of_lt' small, UInt64.toNat_ofNat_of_lt' few] at numbers
  omega

theorem Hosts.accept (holds : Hosts F toLowercase page start limits host past)
    (room : ¬host.Full) (now : Nat) (few : FewOpened (past ++ [.opened host.nextToken])) :
    Hosts F toLowercase page start limits (host.accept now) (past ++ [.opened host.nextToken]) := by
  have fresh : host.nextToken ∉ openedIn past := holds.nextToken_notMem few.of_append
  have unlisted : host.nextToken ∉ host.conns := by
    intro listed
    obtain ⟨conn, found⟩ := Option.isSome_iff_exists.mp (AList.lookup_isSome.mpr listed)
    exact fresh (holds.opened _ conn found)
  have opens : openedIn (past ++ [.opened host.nextToken]) =
      openedIn past ++ [host.nextToken] := openedIn_append _
  have reads (token : UInt64) :
      Cloud.alone (past ++ [.opened host.nextToken]) token toLowercase =
        Cloud.alone past token toLowercase := alone_of_unread rfl
  have untouched {token : UInt64} (other : token ≠ host.nextToken) :
      (host.accept now).conns.lookup token = host.conns.lookup token :=
    AList.lookup_insert_ne other
  have kept : (host.accept now).conns.lookup host.nextToken = some ⟨[], now⟩ :=
    AList.lookup_insert _
  -- each connection of the table is the new one or was there before
  have split {token : UInt64} {conn : Conn}
      (found : (host.accept now).conns.lookup token = some conn) :
      token = host.nextToken ∧ conn = ⟨[], now⟩ ∨
        token ≠ host.nextToken ∧ host.conns.lookup token = some conn := by
    by_cases same : token = host.nextToken
    · subst same
      exact .inl ⟨rfl, Option.some.inj (found.symm.trans kept)⟩
    · exact .inr ⟨same, (untouched same).symm.trans found⟩
  refine ⟨holds.limited, ?_, ?_, ?_, ?_, ?_, ?_, ?_, ?_, ?_, ?_, ?_⟩
  · rw [opens, List.length_append, List.length_singleton, List.range_succ, List.map_append,
      ← holds.numbered, List.map_singleton, ← holds.nextToken]
  · have next : (host.accept now).nextToken = host.nextToken + 1 := rfl
    rw [next, opens, List.length_append, List.length_singleton, holds.nextToken]
    exact (UInt64.ofNat_add _ 1).symm
  · intro token absent
    rw [opens, List.mem_append, not_or] at absent
    rw [readsOf_append, holds.unread token absent.1]
    rfl
  · intro token conn found
    rw [opens, List.mem_append]
    rcases split found with ⟨rfl, -⟩ | ⟨-, before⟩
    · exact .inr (List.mem_singleton_self _)
    · exact .inl (holds.opened token conn before)
  · intro token conn found
    rw [reads]
    rcases split found with ⟨rfl, rfl⟩ | ⟨-, before⟩
    · rw [Cloud.alone, holds.unread _ fresh]
      rfl
    · exact holds.alone token conn before
  · intro token
    rw [reads, askedBy_append, ← holds.asked token]
    exact List.append_nil _
  · intro token listed gone
    rw [reads]
    have other : token ≠ host.nextToken := by
      rintro rfl
      rw [kept] at gone
      cases gone
    rw [opens, List.mem_append, List.mem_singleton] at listed
    rw [untouched other] at gone
    rcases holds.left token (listed.resolve_right other) gone with ended | ⟨idle, swept⟩
    · exact .inl ended
    · exact .inr ⟨idle, List.mem_append_left _ swept⟩
  · intro token idle swept
    rcases List.mem_append.mp swept with before | now
    · exact holds.idle token idle before
    · cases List.mem_singleton.mp now
  · rw [List.filterMap_append, List.filterMap_append]
    exact (congrArg (answerAll F page start) (List.append_nil _)).trans
      (holds.sequential.trans (congrArg _ (List.append_nil _).symm))
  · intro limited
    have one : (host.accept now).conns.entries.length = host.conns.entries.length + 1 :=
      congrArg List.length (AList.entries_insert_of_notMem unlisted)
    have below : ¬limits.maxConns ≤ host.conns.entries.length := by
      intro above
      rw [← holds.limited] at above limited
      exact room ⟨above, limited⟩
    omega
  · intro token conn found
    rcases split found with ⟨-, rfl⟩ | ⟨-, before⟩
    · exact Nat.zero_le _
    · exact holds.small token conn before

theorem keeps_tryAccept (arrivals : List Nat) :
    Keeps F toLowercase page start limits (tryAccept arrivals) := by
  induction arrivals with
  | nil => exact keeps_idle
  | cons now waiting inductionHypothesis =>
      intro host past after events holds done few
      rw [tryAccept] at done
      split at done
      · exact keeps_idle holds done few
      · rename_i room
        obtain ⟨middle, earlier, later, begun, ended, rfl⟩ := exists_of_andThen done
        cases begun
        rw [← List.append_assoc] at few ⊢
        exact inductionHypothesis (holds.accept room now few.of_append) ended few

end Accepting

section Visiting

variable {host after : HostedServer T R p} {past events : List (ConnEvent p)} {token : UInt64}

/-- A visit may change its own connection and the fleet. -/
theorem Hosts.visited {conn : Conn} (holds : Hosts F toLowercase page start limits host past)
    (found : host.conns.lookup token = some conn) (log : VisitLog token events)
    (limited : after.limits = host.limits) (nextToken : after.nextToken = host.nextToken)
    (untouched : ∀ other, other ≠ token → after.conns.lookup other = host.conns.lookup other)
    (shorter : after.conns.entries.length ≤ host.conns.entries.length)
    (gone : after.conns.lookup token = none →
      (Cloud.alone (past ++ events) token toLowercase).readBuf = none)
    (kept : ∀ conn, after.conns.lookup token = some conn →
      Cloud.alone (past ++ events) token toLowercase = ⟨some conn.readBuf, []⟩ ∧
        conn.readBuf.length ≤ 2 ^ 20)
    (asks : askedBy events token = (Cloud.alone (past ++ events) token toLowercase).dispatched)
    (sequential : answerAll F page host.server (events.filterMap ConnEvent.asks) =
      (after.server, events.filterMap ConnEvent.gives)) :
    Hosts F toLowercase page start limits after (past ++ events) := by
  have opens : openedIn (past ++ events) = openedIn past :=
    openedIn_append_of_nil log.openedIn_eq_nil
  have others {other : UInt64} (different : other ≠ token) :
      Cloud.alone (past ++ events) other toLowercase = Cloud.alone past other toLowercase :=
    alone_of_unread (log.readsOf_of_ne different)
  have listed : token ∈ openedIn past := holds.opened token conn found
  have silent : askedBy past token = [] := by
    rw [holds.asked token, holds.alone token conn found]
  refine ⟨limited.trans holds.limited, ?_, ?_, ?_, ?_, ?_, ?_, ?_, ?_, ?_, ?_, ?_⟩
  · rw [opens]
    exact holds.numbered
  · rw [opens, nextToken]
    exact holds.nextToken
  · intro other absent
    rw [opens] at absent
    have different : other ≠ token := fun same => absent (same ▸ listed)
    rw [readsOf_append, holds.unread other absent, log.readsOf_of_ne different]
    rfl
  · intro other conn' stays
    rw [opens]
    by_cases different : other = token
    · exact different ▸ listed
    · exact holds.opened other conn' (untouched other different ▸ stays)
  · intro other conn' stays
    by_cases different : other = token
    · subst different
      exact (kept conn' stays).1
    · rw [others different]
      exact holds.alone other conn' (untouched other different ▸ stays)
  · intro other
    rw [askedBy_append]
    by_cases different : other = token
    · subst different
      rw [silent, asks, List.nil_append]
    · rw [log.askedBy_of_ne different, List.append_nil, others different]
      exact holds.asked other
  · intro other among lost
    rw [opens] at among
    by_cases different : other = token
    · subst different
      exact .inl (gone lost)
    · rw [others different]
      rcases holds.left other among (untouched other different ▸ lost) with ended | ⟨idle, swept⟩
      · exact .inl ended
      · exact .inr ⟨idle, List.mem_append_left _ swept⟩
  · intro other idle swept
    rcases List.mem_append.mp swept with before | now
    · exact holds.idle other idle before
    · exact absurd now (log.not_swept other idle)
  · rw [List.filterMap_append, List.filterMap_append, answerAll_append, holds.sequential]
    dsimp only
    rw [sequential]
  · intro limited
    exact shorter.trans (holds.bounded limited)
  · intro other conn' stays
    by_cases different : other = token
    · subst different
      exact (kept conn' stays).2
    · exact holds.small other conn' (untouched other different ▸ stays)

/-- A connection that is dropped unanswered. -/
theorem Hosts.dropped {conn : Conn} {results : List ReadResult}
    (holds : Hosts F toLowercase page start limits host past)
    (found : host.conns.lookup token = some conn)
    (ended : Cloud.alone (past ++ [.read token results]) token toLowercase = ⟨none, []⟩) :
    Hosts F toLowercase page start limits (host.drop token) (past ++ [.read token results]) := by
  have shorter := (length_drop found).le
  refine holds.visited found (.silent _) rfl rfl (fun _ => lookup_drop_of_ne) (by omega) ?_ ?_ ?_ rfl
  · exact fun _ => congrArg Connection.readBuf ended
  · intro conn' stays
    cases (lookup_drop_self host token).symm.trans stays
  · exact (congrArg Connection.dispatched ended).symm

/-- A connection that is answered. -/
theorem Hosts.answered {conn : Conn} {results : List ReadResult} {req : Request}
    {around : Surroundings p} {server : FleetServer T R p} {resp : Response}
    (holds : Hosts F toLowercase page start limits host past)
    (found : host.conns.lookup token = some conn)
    (ended : Cloud.alone (past ++ [.read token results, .answered token req around resp]) token
      toLowercase = ⟨none, [req]⟩)
    (handled : FleetServer.handleRequest F page host.server req around = (server, resp)) :
    Hosts F toLowercase page start limits { host.drop token with server }
      (past ++ [.read token results, .answered token req around resp]) := by
  have shorter := (length_drop found).le
  refine holds.visited found (.answered ..) rfl rfl (fun _ => lookup_drop_of_ne)
    (show (host.drop token).conns.entries.length ≤ _ by omega) ?_ ?_ ?_ ?_
  · exact fun _ => congrArg Connection.readBuf ended
  · intro conn' stays
    cases (lookup_drop_self host token).symm.trans stays
  · rw [ended]
    simp [askedBy, List.filterMap_cons, ConnEvent.askedBy]
  · show answerAll F page host.server [(req, around)] = (server, [resp])
    simp only [answerAll, handled]

/-- A connection that waits for more. -/
theorem Hosts.buffered {conn : Conn} {results : List ReadResult} {readBuf : List UInt8}
    (holds : Hosts F toLowercase page start limits host past)
    (found : host.conns.lookup token = some conn)
    (waits : Cloud.alone (past ++ [.read token results]) token toLowercase = ⟨some readBuf, []⟩)
    (small : readBuf.length ≤ 2 ^ 20) (lastActive : Nat) :
    Hosts F toLowercase page start limits
      { host with conns := (host.conns.erase token).insert token ⟨readBuf, lastActive⟩ }
      (past ++ [.read token results]) := by
  have back : token ∉ host.conns.erase token :=
    AList.lookup_eq_none.mp (AList.lookup_erase token host.conns)
  have same : ((host.conns.erase token).insert token ⟨readBuf, lastActive⟩).entries.length =
      host.conns.entries.length :=
    (congrArg List.length (AList.entries_insert_of_notMem back)).trans (length_drop found)
  have kept : ((host.conns.erase token).insert token ⟨readBuf, lastActive⟩).lookup token =
      some ⟨readBuf, lastActive⟩ := AList.lookup_insert _
  refine holds.visited found (.silent _) rfl rfl ?_ same.le ?_ ?_ ?_ rfl
  · intro other different
    exact (AList.lookup_insert_ne different).trans (AList.lookup_erase_ne different)
  · intro gone
    cases kept.symm.trans gone
  · intro conn' stays
    cases kept.symm.trans stays
    exact ⟨waits, small⟩
  · exact (congrArg Connection.dispatched waits).symm

theorem keeps_serviceConn (token : UInt64) (visit : Visit p) :
    Keeps F toLowercase page start limits (serviceConn F toLowercase page token visit) := by
  intro host past after events holds done few
  unfold serviceConn at done
  split at done
  · exact keeps_idle holds done few
  rename_i conn found
  have own (later : List (ConnEvent p)) (unread : readsOf later token = []) :
      readsOf (.read token visit.results :: later) token = visit.results := by
    have first : readsOf [(.read token visit.results : ConnEvent p)] token = visit.results := by
      simp [readsOf, ConnEvent.readsOf]
    rw [← List.singleton_append, readsOf_append, first, unread, List.append_nil]
  have comes (later : List (ConnEvent p)) (unread : readsOf later token = [])
      (used : (readLoop conn.readBuf visit.results).2 = []) :
      Cloud.alone (past ++ .read token visit.results :: later) token toLowercase =
        ((Connection.mk (some conn.readBuf) []).service toLowercase visit.results).1 :=
    alone_visited (holds.alone token conn found) (own later unread) used
  split at done
  · rename_i exits
    cases done
    refine holds.dropped found ((comes [] rfl (congrArg Prod.snd exits)).trans ?_)
    simp only [Connection.service, exits]
  · rename_i readBuf exits
    have answers (later : List (ConnEvent p)) (unread : readsOf later token = []) :
        Cloud.alone (past ++ .read token visit.results :: later) token toLowercase =
          (Connection.mk (some conn.readBuf) []).answer toLowercase readBuf := by
      rw [comes later unread (congrArg Prod.snd exits)]
      simp only [Connection.service, exits]
    cases served : Teleop.Cloud.serviceConn toLowercase readBuf [] with
    | closed =>
        rw [served] at done
        cases done
        exact holds.dropped found ((answers [] rfl).trans (by simp only [Connection.answer, served]))
    | panicked =>
        rw [served] at done
        cases done
    | dispatched req =>
        rw [served] at done
        cases done
        refine holds.answered found ((answers _ rfl).trans ?_) rfl
        simp only [Connection.answer, served, List.nil_append]
    | buffering kept =>
        rw [served] at done
        cases done
        obtain ⟨rfl, small⟩ := Connection.of_buffering served
        refine holds.buffered found ((answers [] rfl).trans ?_) small _
        simp only [Connection.answer, served]
  · cases done

end Visiting

section Sweeping

variable {host : HostedServer T R p} {past : List (ConnEvent p)}

theorem keeps_sweepIdle (now : Nat) : Keeps F toLowercase page start limits (sweepIdle now) := by
  intro host past after events holds done few
  have stays := lookup_sweepIdle done
  have logged := mem_sweepIdle done
  -- nothing but sweeps is logged, so the log says the same of every connection as before
  have silent {Fact : Type} (kind : ConnEvent p → Option Fact)
      (other : ∀ token idle, kind (.swept token idle) = none) : events.filterMap kind = [] := by
    rw [List.filterMap_eq_nil_iff]
    intro event among
    obtain ⟨token, conn, -, -, rfl⟩ := (logged event).mp among
    exact other token _
  have opens : openedIn (past ++ events) = openedIn past :=
    openedIn_append_of_nil (silent ConnEvent.opens fun _ _ => rfl)
  have unread (token : UInt64) : readsOf events token = [] := by
    rw [readsOf, List.flatMap_eq_nil_iff]
    intro event among
    obtain ⟨token', conn, -, -, rfl⟩ := (logged event).mp among
    rfl
  have reads (token : UInt64) : Cloud.alone (past ++ events) token toLowercase =
      Cloud.alone past token toLowercase := alone_of_unread (unread token)
  have server : after.server = host.server ∧ after.limits = host.limits ∧
      after.nextToken = host.nextToken ∧
      after.conns.entries.length ≤ host.conns.entries.length := by
    cases done
    exact ⟨rfl, rfl, rfl, List.length_filter_le _ _⟩
  obtain ⟨server, limited, nextToken, shorter⟩ := server
  refine ⟨limited.trans holds.limited, ?_, ?_, ?_, ?_, ?_, ?_, ?_, ?_, ?_, ?_, ?_⟩
  · rw [opens]
    exact holds.numbered
  · rw [opens, nextToken]
    exact holds.nextToken
  · intro token absent
    rw [opens] at absent
    rw [readsOf_append, holds.unread token absent, unread, List.nil_append]
  · intro token conn found
    rw [opens]
    exact holds.opened token conn ((stays token conn).mp found).1
  · intro token conn found
    rw [reads]
    exact holds.alone token conn ((stays token conn).mp found).1
  · intro token
    have none : askedBy events token = [] := silent (ConnEvent.askedBy token) fun _ _ => rfl
    rw [reads, askedBy_append, none, List.append_nil]
    exact holds.asked token
  · intro token listed gone
    rw [opens] at listed
    rw [reads]
    cases found : host.conns.lookup token with
    | none =>
        rcases holds.left token listed found with ended | ⟨idle, swept⟩
        · exact .inl ended
        · exact .inr ⟨idle, List.mem_append_left _ swept⟩
    | some conn =>
        have late : host.limits.idleTimeout < now - conn.lastActive := by
          by_contra early
          have still := (stays token conn).mpr ⟨found, Nat.not_lt.mp early⟩
          cases gone.symm.trans still
        have swept := (logged _).mpr ⟨token, conn, found, late, rfl⟩
        exact .inr ⟨_, List.mem_append_right _ swept⟩
  · intro token idle swept
    rcases List.mem_append.mp swept with before | now
    · exact holds.idle token idle before
    · obtain ⟨token', conn, -, late, same⟩ := (logged _).mp now
      cases same
      rw [← holds.limited]
      exact late
  · rw [List.filterMap_append, List.filterMap_append, silent ConnEvent.asks fun _ _ => rfl,
      silent ConnEvent.gives fun _ _ => rfl, List.append_nil, List.append_nil, server]
    exact holds.sequential
  · intro some
    exact shorter.trans (holds.bounded some)
  · intro token conn found
    exact holds.small token conn ((stays token conn).mp found).1

end Sweeping

theorem keeps_ready (event : Readiness p) :
    Keeps F toLowercase page start limits (ready F toLowercase page event) := by
  intro host past after events holds done few
  unfold ready at done
  split at done
  · split at done
    · exact keeps_tryAccept _ holds done few
    · exact keeps_idle holds done few
  · split at done
    · exact keeps_serviceConn _ _ holds done few
    · exact keeps_idle holds done few

theorem keeps_serviceAll (tick : Tick p) :
    Keeps F toLowercase page start limits (serviceAll F toLowercase page tick) := by
  intro host past after events holds done few
  unfold serviceAll at done
  split at done
  · exact keeps_each (fun token => keeps_serviceConn token _) _ holds done few
  · cases done

theorem keeps_runOnce (tick : Tick p) :
    Keeps F toLowercase page start limits (runOnce F toLowercase page tick) :=
  ((keeps_each keeps_ready tick.ready).andThen
    ((keeps_tryAccept tick.arrivals).andThen (keeps_serviceAll tick))).andThen
      (keeps_sweepIdle tick.now)

section System

/-- A server between two ticks, with the log of what it did and the instant of its last sweep. -/
structure Hosting (T R : Type) (p : Primitives) where
  host : HostedServer T R p
  events : List (ConnEvent p)
  sweptAt : Nat

variable (F toLowercase page start limits) in
/-- The server, tick after tick. -/
def hosting : TransitionSystem (Hosting T R p) (Tick p) :=
  .ofNext (· = ⟨bind start limits, [], 0⟩) fun state tick =>
    (runOnce F toLowercase page tick state.host).map fun (host, events) =>
      ⟨host, state.events ++ events, tick.now⟩

variable (F toLowercase page start limits) in
/-- Each client is served as if it were the only one, within the limits. -/
structure Isolates (state : Hosting T R p) : Prop extends
    Hosts F toLowercase page start limits state.host state.events where
  /-- A connection is answered once at most, -/
  once : ∀ token, (askedBy state.events token).length ≤ 1
  /-- with what the parser makes of its own bytes. -/
  genuine : ∀ token, ∀ req ∈ askedBy state.events token, ∃ total,
    Request.parse toLowercase (received (readsOf state.events token)) = .ok (some (req, total))
  recent : ∀ token conn, state.host.conns.lookup token = some conn →
    state.sweptAt - conn.lastActive ≤ limits.idleTimeout

theorem hosts_bind : Hosts F toLowercase page start limits (bind start limits) [] where
  limited := rfl
  numbered := rfl
  nextToken := rfl
  unread _ _ := rfl
  opened _ _ found := by cases found
  alone _ _ found := by cases found
  asked _ := rfl
  left _ listed := by cases listed
  idle _ _ swept := by cases swept
  sequential := rfl
  bounded _ := Nat.zero_le _
  small _ _ found := by cases found

/-- After a tick no connection has been idle for too long. -/
theorem recent_runOnce {tick : Tick p} {host after : HostedServer T R p}
    {past events : List (ConnEvent p)} (holds : Hosts F toLowercase page start limits after past)
    (done : runOnce F toLowercase page tick host = some (after, events)) (token : UInt64)
    (conn : Conn) (found : after.conns.lookup token = some conn) :
    tick.now - conn.lastActive ≤ limits.idleTimeout := by
  obtain ⟨middle, earlier, later, -, swept, -⟩ := exists_of_andThen done
  have limited : middle.limits = limits := by
    have kept := holds.limited
    cases swept
    exact kept
  rw [← limited]
  exact ((lookup_sweepIdle swept token conn).mp found).2

/-- In every run of the server, whatever its clients send and in whatever order they are served:
what becomes of a connection is what its own reads would make of it alone, unless it is swept for
being idle longer than the timeout; each is answered once at most, with the request that its own
bytes hold; the fleet handles the requests one after the other; and the table keeps to the limit,
its buffers to 1 MiB, and its connections to the timeout. -/
theorem isolates_of_reachable {state : Hosting T R p}
    (reached : (hosting F toLowercase page start limits).Reachable state)
    (few : FewOpened state.events) : Isolates F toLowercase page start limits state := by
  have both : FewOpened state.events →
      Hosts F toLowercase page start limits state.host state.events ∧
        ∀ token conn, state.host.conns.lookup token = some conn →
          state.sweptAt - conn.lastActive ≤ limits.idleTimeout := by
    apply reached.invariant (P := fun state => FewOpened state.events →
      Hosts F toLowercase page start limits state.host state.events ∧
        ∀ token conn, state.host.conns.lookup token = some conn →
          state.sweptAt - conn.lastActive ≤ limits.idleTimeout)
    · rintro state rfl -
      exact ⟨hosts_bind, fun token conn found => by cases found⟩
    · intro state tick target before step few
      obtain ⟨⟨host, events⟩, done, rfl⟩ := Option.map_eq_some_iff.mp step
      have holds := keeps_runOnce tick (before few.of_append).1 done few
      exact ⟨holds, recent_runOnce holds done⟩
  obtain ⟨holds, recent⟩ := both few
  have course (token : UInt64) :=
    Connection.foldl_next_accepted toLowercase (readsOf state.events token)
  refine ⟨holds, ?_, ?_, recent⟩
  · intro token
    rw [holds.asked token, Cloud.alone]
    rcases course token with gathers | ⟨-, silent | ⟨req, total, once, -⟩⟩
    · rw [gathers]
      exact Nat.zero_le 1
    · rw [silent]
      exact Nat.zero_le 1
    · rw [once]
      exact Nat.le_refl 1
  · intro token req among
    rw [holds.asked token, Cloud.alone] at among
    rcases course token with gathers | ⟨-, silent | ⟨req', total, once, parsed⟩⟩
    · rw [gathers] at among
      cases among
    · rw [silent] at among
      cases among
    · rw [once] at among
      cases List.mem_singleton.mp among
      exact ⟨total, parsed⟩

end System

section Instance

theorem serviceConn_of_dispatched {host : HostedServer T R p} {token : UInt64} {visit : Visit p}
    {conn : Conn} {readBuf : List UInt8} {req : Request}
    (found : host.conns.lookup token = some conn)
    (exits : readLoop conn.readBuf visit.results = (.blocked readBuf, []))
    (served : Teleop.Cloud.serviceConn toLowercase readBuf [] = .dispatched req) :
    serviceConn F toLowercase page token visit host = some
      ({ host.drop token with
          server := (FleetServer.handleRequest F page host.server req visit.around).1 },
        [.read token visit.results, .answered token req visit.around
          (FleetServer.handleRequest F page host.server req visit.around).2]) := by
  simp only [serviceConn, found, exits, served]

theorem serviceConn_of_buffering {host : HostedServer T R p} {token : UInt64} {visit : Visit p}
    {conn : Conn} {readBuf kept : List UInt8} (found : host.conns.lookup token = some conn)
    (exits : readLoop conn.readBuf visit.results = (.blocked readBuf, []))
    (served : Teleop.Cloud.serviceConn toLowercase readBuf [] = .buffering kept) :
    serviceConn F toLowercase page token visit host = some
      ({ host with
          conns := (host.conns.erase token).insert token
            ⟨kept, if received visit.results = [] then conn.lastActive else visit.now⟩ },
        [.read token visit.results]) := by
  simp only [serviceConn, found, exits, served]

open Connection

/-- Two clients are accepted; the first has sent one byte so far, the second its whole request. -/
def twoClients : Tick Symbolic.primitives where
  ready := []
  arrivals := [0, 0]
  order := [2, 1]
  visits token :=
    { results :=
        if token = 2 then [.data 71 statusRequest.tail, .wouldBlock]
        else [.data 71 [], .wouldBlock]
      now := 1
      around := ⟨fun _ => 7, none, none⟩ }
  now := 5

def openHost : HostedServer NullTransport NullRecorder Symbolic.primitives :=
  bind (.new {}) ⟨2, 10⟩

theorem runOnce_twoClients : ∃ host events,
    runOnce Binary64 asciiLowercase "" twoClients openHost = some (host, events) ∧
      (askedBy events 2).length = 1 ∧ FewOpened events := by
  obtain ⟨req, parsed⟩ := parse_statusRequest
  have whole : [] ++ 71 :: statusRequest.tail = statusRequest := by decide +kernel
  have short : ¬2 ^ 20 < statusRequest.length := by decide +kernel
  have second : Teleop.Cloud.serviceConn asciiLowercase ([] ++ 71 :: statusRequest.tail) [] =
      .dispatched req := by
    rw [whole, Teleop.Cloud.serviceConn, List.append_nil, if_neg short, parsed]
  have first : Teleop.Cloud.serviceConn asciiLowercase ([] ++ [71]) [] = .buffering [71] := rfl
  let full := (openHost.accept 0).accept 0
  have listed : ([2, 1] : List UInt64).Perm full.conns.keys := by decide
  have accepted : tryAccept [0, 0] openHost = some (full, [.opened 1, .opened 2]) := rfl
  have found : full.conns.lookup 2 = some ⟨[], 0⟩ := rfl
  have exits : readLoop [] (twoClients.visits 2).results =
      (.blocked ([] ++ 71 :: statusRequest.tail), []) := rfl
  have answered : serviceConn Binary64 asciiLowercase "" 2 (twoClients.visits 2) full = _ :=
    serviceConn_of_dispatched found exits second
  generalize FleetServer.handleRequest Binary64 "" full.server req _ = outcome at answered
  let last := { full.drop 2 with server := outcome.1 }
  have other : last.conns.lookup 1 = some ⟨[], 0⟩ := rfl
  have part : readLoop [] (twoClients.visits 1).results = (.blocked ([] ++ [71]), []) := rfl
  have waits : serviceConn Binary64 asciiLowercase "" 1 (twoClients.visits 1) last = _ :=
    serviceConn_of_buffering other part first
  have visited : serviceAll Binary64 asciiLowercase "" twoClients full = _ :=
    (if_pos listed).trans (andThen_of_eq answered (andThen_of_eq waits rfl))
  have done : runOnce Binary64 asciiLowercase "" twoClients openHost = _ :=
    andThen_of_eq (andThen_of_eq rfl (andThen_of_eq accepted visited)) rfl
  refine ⟨_, _, done, rfl, ?_⟩
  show 2 + 1 < 2 ^ 64
  decide

/-- The second client is answered while the first has not sent all yet. -/
theorem isolates_twoClients : ∃ state : Hosting NullTransport NullRecorder Symbolic.primitives,
    (askedBy state.events 2).length = 1 ∧
      Isolates Binary64 asciiLowercase "" (.new {}) ⟨2, 10⟩ state := by
  obtain ⟨host, events, done, answered, few⟩ := runOnce_twoClients
  have step : (hosting Binary64 asciiLowercase "" (.new {}) ⟨2, 10⟩).step ⟨openHost, [], 0⟩
      twoClients ⟨host, [] ++ events, 5⟩ := Option.map_eq_some_iff.mpr ⟨_, done, rfl⟩
  have reached := (TransitionSystem.Reachable.of_initial rfl).step step
  exact ⟨_, answered, isolates_of_reachable reached few⟩

end Instance

end HostedServer

end Teleop.Cloud
