import Mathlib.Data.List.Chain
import Teleop.Lib.TransitionSystem
import Teleop.Link.Retention
import Teleop.Link.ServiceReceipt

/-!
# Commands of the safety outbox

The background timer pops a command before it looks for a destination and before the
send can fail.  A popped command is accounted for when it was handed to the transport
before the next one was popped, or, if none was popped after it, waits in a retention slot;
the conditions below say when every one is.
-/

namespace Teleop.Link

open Teleop.Lib Teleop.Ring

/-- A command popped from the outbox, and how many datagrams the transport had taken by then. -/
structure Popped where
  cmd : Command
  since : Nat

/-- One service, with every command the safety loop has pushed into its outbox and every one
the outbox loop has popped. -/
structure Outflow where
  service : ServiceCore
  pushed : List Command
  popped : List Popped

namespace Outflow

inductive Action where
  | push (cmd : Command)
  | background
  | sendControl (cmd : Command) (dst : SocketAddr)
  | receive (bytes : List UInt8) (source : SocketAddr)

section System

variable (archive : Archive Command 56)
  (telemetry : List UInt8 → Option (Core.TelemetryPacket UInt32))

/-- What the outbox loop pops. -/
def pops : (fuel : Nat) → ServiceCore → List Popped
  | 0, _ => []
  | fuel + 1, core =>
      match core.outbox.pop with
      | none => []
      | some (cmd, outbox) =>
          let core := { core with outbox }
          ⟨cmd, core.sent.length⟩ ::
            match core.primaryDst with
            | none => []
            | some dst =>
                match core.sendControl archive cmd dst with
                | (core, .ok ()) => pops fuel core
                | (_, .error _) => []

def next (state : Outflow) : Action → Option Outflow
  | .push cmd =>
      match state.service.outbox.push cmd with
      | .ok outbox => some { state with
          service := { state.service with outbox }
          pushed := state.pushed ++ [cmd] }
      | .error _ => none
  | .background =>
      let core := state.service.nowNs.1
      some { state with
        service := state.service.background archive
        popped := state.popped ++ pops archive core.outbox.items.length core }
  | .sendControl cmd dst =>
      some { state with service := (state.service.sendControl archive cmd dst).1 }
  | .receive bytes source =>
      some { state with service := (state.service.receive archive telemetry bytes source).1 }

/-- A fresh service with an empty outbox. -/
def Starts (state : Outflow) : Prop :=
  ∃ cfg outbox port env, outbox.items = [] ∧ state = ⟨.new cfg outbox port env, [], []⟩

def system : TransitionSystem Outflow Action := .ofNext Starts (next archive telemetry)

end System

/-- The frame of a command as the service sends it. -/
def frame (archive : Archive Command 56) (service : ServiceCore) (cmd : Command) : List UInt8 :=
  controlFrame archive cmd (ServiceCore.controlFlags service.cfg)

def sentBytes (service : ServiceCore) : List (List UInt8) := service.sent.map (·.bytes)

/-- Since the command was popped the transport took its frame, among its first `bound`
datagrams. -/
def HandedBy (archive : Archive Command 56) (service : ServiceCore) (pop : Popped)
    (bound : Nat) : Prop :=
  ∃ i, pop.since ≤ i ∧ i < bound ∧
    (sentBytes service)[i]? = some (frame archive service pop.cmd)

/-- The transport has taken the frame of a popped command since it was popped. -/
def Handed (archive : Archive Command 56) (service : ServiceCore) (pop : Popped) : Prop :=
  HandedBy archive service pop service.sent.length

/-- Every pushed command is still in the outbox, in order, or was popped. -/
structure Accounted (archive : Archive Command 56) (state : Outflow) : Prop where
  split : state.pushed = state.popped.map Popped.cmd ++ state.service.outbox.items
  /-- A popped command was handed to the transport before the next one was popped, -/
  inOrder : state.popped.IsChain fun pop later => HandedBy archive state.service pop later.since
  /-- and the last one was handed to it, or is retained for retransmission. -/
  last : ∀ pop ∈ state.popped.getLast?, Handed archive state.service pop ∨
    state.service.relTx.Retained (frame archive state.service pop.cmd)

/-- No popped command is still waiting for its retransmission. -/
def Settled (archive : Archive Command 56) (state : Outflow) : Prop :=
  ∀ pop ∈ state.popped.getLast?, Handed archive state.service pop

/-- The retention window takes the command at `position` of the outbox: its number is in the
window and queued neither by the window nor by an earlier command of the outbox, and the clock
does not show the time 0 that marks an unused slot. -/
structure Retainable (service : ServiceCore) (position : Nat) (cmd : Command) : Prop where
  reliable : service.cfg.reliableControl = true
  inside : (cmd.seq.toUInt32 - service.relTx.oldest).toNat < service.relTx.window
  unqueued : ¬service.relTx.Queues cmd.seq.toUInt32
  first : ∀ earlier < position, ∀ other, service.outbox.items[earlier]? = some other →
    other.seq.toUInt32 = cmd.seq.toUInt32 → service.env.clock (service.readings + earlier) = 0
  timed : service.env.clock (service.readings + position) ≠ 0

/-- The outbox loop loses nothing: it pops only when there is a destination, and the command
of its first failing send is retained. -/
def FlushSafe (service : ServiceCore) : Prop :=
  service.outbox.items ≠ [] → service.primaryDst.isSome ∧
    ∀ position cmd, service.outbox.items[position]? = some cmd →
      (∀ earlier < position, service.env.accepts (service.sends + earlier) = true) →
      service.env.accepts (service.sends + position) = false →
      Retainable service position cmd

/-- The acknowledgement reports no frame that is retained for a popped command and was not
handed to the transport since. -/
def ReportsSent (archive : Archive Command 56) (state : Outflow) (ack : AckFrame) : Prop :=
  ∀ pop ∈ state.popped, ¬Handed archive state.service pop →
    ∀ i, 0 < (state.service.relTx.slots i).len →
      (state.service.relTx.slots i).payload.val = frame archive state.service pop.cmd →
      ¬state.service.relTx.Reported ack (state.service.relTx.slots i).seq

/-- The condition on a step; the loop of `background` starts after one reading of the clock. -/
def Lossless (archive : Archive Command 56)
    (telemetry : List UInt8 → Option (Core.TelemetryPacket UInt32)) (state : Outflow) :
    Action → Prop
  | .background =>
      (state.service.outbox.items ≠ [] → Settled archive state) ∧ FlushSafe state.service.nowNs.1
  | .receive bytes source => ∀ ack named,
      recvFrame archive telemetry bytes source = .ok (.ack ack named) →
      ReportsSent archive state ack
  | _ => True

section Account

variable {archive : Archive Command 56}
  {telemetry : List UInt8 → Option (Core.TelemetryPacket UInt32)}

/-- What was handed over stays so while the service sends more. -/
theorem HandedBy.mono {service after : ServiceCore} {pop : Popped} {bound more : Nat}
    (handed : HandedBy archive service pop bound) (cfg : after.cfg = service.cfg)
    (longer : service.sent <+: after.sent) (further : bound ≤ more) :
    HandedBy archive after pop more := by
  obtain ⟨i, since, before, there⟩ := handed
  have grown : sentBytes service <+: sentBytes after := longer.map _
  refine ⟨i, since, Nat.lt_of_lt_of_le before further, ?_⟩
  obtain ⟨rest, whole⟩ := grown
  rw [frame, cfg, ← whole,
    List.getElem?_append_left (List.getElem?_eq_some_iff.mp there).1]
  exact there

/-- What the account of one service rests on, with the commands pushed and popped so far. -/
structure Sound (archive : Archive Command 56) (state : Outflow) : Prop where
  aligned : state.service.relTx.Aligned
  accounted : Accounted archive state

/-- A step of the service that leaves the outbox alone and frees only what was handed over. -/
theorem Sound.evolve {state : Outflow} (sound : Sound archive state) {service : ServiceCore}
    (cfg : service.cfg = state.service.cfg)
    (outbox : service.outbox.items = state.service.outbox.items)
    (longer : state.service.sent <+: service.sent) (aligned : service.relTx.Aligned)
    (kept : ∀ pop ∈ state.popped, ¬Handed archive state.service pop →
      state.service.relTx.Retained (frame archive state.service pop.cmd) →
      service.relTx.Retained (frame archive state.service pop.cmd)) :
    Sound archive { state with service } := by
  obtain ⟨split, inOrder, last⟩ := sound.accounted
  refine ⟨aligned, ?_, ?_, ?_⟩
  · dsimp only
    rw [outbox]
    exact split
  · exact inOrder.imp fun pop later handed => handed.mono cfg longer le_rfl
  · intro pop newest
    by_cases handed : Handed archive state.service pop
    · exact .inl (handed.mono cfg longer longer.length_le)
    · have retained := kept pop (List.mem_of_getLast? newest) handed
        ((last pop newest).resolve_left handed)
      refine .inr ?_
      dsimp only
      rwa [frame, cfg]

theorem length_frame (service : ServiceCore) (cmd : Command) :
    (frame archive service cmd).length = 76 := by
  unfold frame controlFrame
  rw [length_assemble, archive.length_serialize]
  rfl

/-- A framed command always fits a retention slot. -/
def retainedFrame (archive : Archive Command 56) (service : ServiceCore) (cmd : Command) :
    Payload :=
  ⟨frame archive service cmd, by rw [length_frame]; decide⟩

variable (archive) in
/-- What `send_control` does to the retention window. -/
theorem relTx_sendControl (service : ServiceCore) (cmd : Command) (dst : SocketAddr) :
    (service.sendControl archive cmd dst).1.relTx =
      if service.cfg.reliableControl = true then
        (service.relTx.send cmd.seq.toUInt32 (retainedFrame archive service cmd)
          (service.env.clock service.readings)).1
      else service.relTx := by
  have fits := (retainedFrame archive service cmd).property
  rw [ServiceCore.sendControl_state]
  unfold ServiceCore.retain
  dsimp only
  by_cases reliable : service.cfg.reliableControl = true
  · have both : service.nowNs.1.cfg.reliableControl = true ∧
        (controlFrame archive cmd (ServiceCore.controlFlags service.cfg)).length ≤
          maxReliablePayload := ⟨reliable, fits⟩
    rw [dif_pos both, if_pos reliable]
    rfl
  · have neither : ¬(service.nowNs.1.cfg.reliableControl = true ∧
        (controlFrame archive cmd (ServiceCore.controlFlags service.cfg)).length ≤
          maxReliablePayload) := fun both => reliable both.1
    rw [dif_neg neither, if_neg reliable]
    rfl

variable (archive) in
theorem retained_sendControl {service : ServiceCore} (aligned : service.relTx.Aligned)
    (cmd : Command) (dst : SocketAddr) :
    (service.sendControl archive cmd dst).1.relTx.Aligned ∧
      ∀ bytes, service.relTx.Retained bytes →
        (service.sendControl archive cmd dst).1.relTx.Retained bytes := by
  rw [relTx_sendControl]
  split
  · exact ⟨aligned.send _ _, fun bytes retained => retained.send aligned _ _ _⟩
  · exact ⟨aligned, fun bytes retained => retained⟩

/-- The command at the head of the outbox is retained when it can be. -/
theorem Retainable.sendControl {service : ServiceCore} {cmd : Command}
    (retainable : Retainable service 0 cmd) (dst : SocketAddr) :
    (service.sendControl archive cmd dst).1.relTx.Retained (frame archive service cmd) := by
  rw [relTx_sendControl, if_pos retainable.reliable]
  apply ReliableTx.retained_of_send retainable.inside retainable.unqueued _ retainable.timed
  change 0 < (frame archive service cmd).length
  rw [length_frame]
  decide

/-- A send leaves the later commands of the outbox retainable. -/
theorem Retainable.shift {service : ServiceCore} {position : Nat} {head cmd : Command}
    (retainable : Retainable service (position + 1) cmd) {outbox : SpscRing Command}
    (popped : service.outbox.pop = some (head, outbox)) (dst : SocketAddr) :
    Retainable (ServiceCore.sendControl archive { service with outbox } head dst).1 position
      cmd := by
  have items := SpscRing.items_of_pop popped
  have relTx := relTx_sendControl archive { service with outbox } head dst
  rw [if_pos retainable.reliable] at relTx
  have first := retainable.first
  rw [items] at first
  refine ⟨?_, ?_, ?_, ?_, ?_⟩
  · rw [ServiceCore.sendControl_state]
    exact retainable.reliable
  · rw [relTx, (ReliableTx.send_window _ _ _ _).1, (ReliableTx.send_window _ _ _ _).2]
    exact retainable.inside
  · rw [relTx]
    apply ReliableTx.not_queues_send retainable.unqueued
    intro same
    exact first 0 (Nat.succ_pos position) head rfl same
  · rw [ServiceCore.sendControl_state]
    intro earlier before other listed same
    have clock := first (earlier + 1) (Nat.succ_lt_succ before) other listed same
    dsimp only
    rw [Nat.add_assoc, Nat.add_comm 1 earlier]
    exact clock
  · have timed := retainable.timed
    rw [ServiceCore.sendControl_state]
    dsimp only
    rw [Nat.add_assoc, Nat.add_comm 1 position]
    exact timed

/-- A send that the transport takes hands over the command at the head of the outbox. -/
theorem handed_sendControl {service : ServiceCore} {outbox : SpscRing Command}
    (accepted : service.env.accepts service.sends = true) (cmd : Command) (dst : SocketAddr) :
    Handed archive (ServiceCore.sendControl archive { service with outbox } cmd dst).1
      ⟨cmd, service.sent.length⟩ := by
  have sent : (ServiceCore.sendControl archive { service with outbox } cmd dst).1.sent =
      service.sent ++ [⟨dst, frame archive service cmd⟩] :=
    ServiceCore.sent_sendControl cmd accepted
  have cfg : (ServiceCore.sendControl archive { service with outbox } cmd dst).1.cfg =
      service.cfg := by
    rw [ServiceCore.sendControl_state]
  have sameFrame : frame archive (ServiceCore.sendControl archive { service with outbox } cmd
      dst).1 cmd = frame archive service cmd := by
    rw [frame, cfg]
    rfl
  refine ⟨service.sent.length, le_rfl, ?_, ?_⟩
  · rw [sent, List.length_append]
    exact Nat.lt_succ_self _
  · rw [sameFrame, sentBytes, sent, List.map_append,
      List.getElem?_append_right (List.length_map _).le, List.length_map, Nat.sub_self]
    rfl

theorem ne_nil_of_popped {service : ServiceCore} {cmd : Command} {outbox : SpscRing Command}
    (popped : service.outbox.pop = some (cmd, outbox)) : service.outbox.items ≠ [] := by
  rw [SpscRing.items_of_pop popped]
  exact List.cons_ne_nil _ _

/-- At a pop there is a destination, and the command is retained if its send is refused. -/
theorem FlushSafe.of_popped {service : ServiceCore} (safe : FlushSafe service) {cmd : Command}
    {outbox : SpscRing Command} (popped : service.outbox.pop = some (cmd, outbox)) :
    service.primaryDst.isSome = true ∧
      (service.env.accepts service.sends = false → Retainable service 0 cmd) := by
  have items := SpscRing.items_of_pop popped
  obtain ⟨destination, retainable⟩ := safe (ne_nil_of_popped popped)
  refine ⟨destination, fun refused => retainable 0 cmd (by rw [items]; rfl) ?_ refused⟩
  exact fun _ impossible => absurd impossible (Nat.not_lt_zero _)

variable (archive) in
/-- After a send that succeeds the rest of the outbox is safe to flush. -/
theorem FlushSafe.shift {service : ServiceCore} (safe : FlushSafe service) {head : Command}
    {outbox : SpscRing Command} (popped : service.outbox.pop = some (head, outbox))
    (accepted : service.env.accepts service.sends = true) (dst : SocketAddr) :
    FlushSafe (ServiceCore.sendControl archive { service with outbox } head dst).1 := by
  have items := SpscRing.items_of_pop popped
  intro _
  obtain ⟨destination, retainable⟩ := safe (ne_nil_of_popped popped)
  refine ⟨?_, ?_⟩
  · rw [ServiceCore.sendControl_state]
    exact destination
  · intro position cmd listed succeeded failed
    apply Retainable.shift _ popped
    rw [ServiceCore.sendControl_state] at listed succeeded failed
    dsimp only at listed succeeded failed
    apply retainable (position + 1) cmd
    · rw [items]
      exact listed
    · intro earlier before
      cases earlier with
      | zero => exact accepted
      | succ earlier =>
          have success := succeeded earlier (Nat.lt_of_succ_lt_succ before)
          rw [Nat.add_assoc, Nat.add_comm 1 earlier] at success
          exact success
    · rw [Nat.add_assoc, Nat.add_comm 1 position] at failed
      exact failed

/-- Popping a command and handing it to `send_control` keeps the account, when no earlier one
waits and the send succeeds or the command is retained. -/
theorem Sound.popped {state : Outflow} (sound : Sound archive state)
    (settled : Settled archive state) {cmd : Command} {outbox : SpscRing Command}
    (popped : state.service.outbox.pop = some (cmd, outbox))
    (secured : state.service.env.accepts state.service.sends = true ∨
      Retainable state.service 0 cmd) (dst : SocketAddr) :
    Sound archive { state with
      service := (ServiceCore.sendControl archive { state.service with outbox } cmd dst).1
      popped := state.popped ++ [⟨cmd, state.service.sent.length⟩] } := by
  let service : ServiceCore := { state.service with outbox }
  have sends := service.sendControl_state archive cmd dst
  have cfg : (service.sendControl archive cmd dst).1.cfg = state.service.cfg := by
    rw [sends]
  have longer : state.service.sent <+: (service.sendControl archive cmd dst).1.sent := by
    rw [sends]
    exact List.prefix_append _ _
  have sameFrame : frame archive (service.sendControl archive cmd dst).1 =
      frame archive state.service := by
    unfold frame
    rw [cfg]
  obtain ⟨split, inOrder, -⟩ := sound.accounted
  have aligned : service.relTx.Aligned := sound.aligned
  refine ⟨(retained_sendControl archive aligned cmd dst).1, ?_, ?_, ?_⟩
  · dsimp only
    rw [split, SpscRing.items_of_pop popped, sends, List.map_append, List.append_assoc]
    rfl
  · -- the one popped before was handed over by now
    refine List.isChain_append.mpr ⟨inOrder.imp ?_, List.isChain_singleton _, ?_⟩
    · exact fun pop later handed => handed.mono cfg longer le_rfl
    · intro pop newest later same
      cases same
      exact (settled pop newest).mono cfg longer le_rfl
  · intro pop newest
    rw [List.getLast?_concat] at newest
    cases newest
    rcases secured with accepted | retainable
    · exact .inl (handed_sendControl accepted cmd dst)
    · right
      have sameWindow : Retainable service 0 cmd :=
        ⟨retainable.reliable, retainable.inside, retainable.unqueued,
          fun _ impossible => absurd impossible (Nat.not_lt_zero _), retainable.timed⟩
      dsimp only
      rw [sameFrame]
      exact sameWindow.sendControl dst

/-- The outbox loop with what it pops: `P` holds before each pop and `Q` wherever it ends. -/
theorem pops_rule {P Q : ServiceCore → List Popped → Prop}
    (ends : ∀ core log, P core log → Q core log)
    (unrouted : ∀ core log cmd outbox, P core log → core.outbox.pop = some (cmd, outbox) →
      core.primaryDst = none → Q { core with outbox } (log ++ [⟨cmd, core.sent.length⟩]))
    (sent : ∀ core log cmd outbox dst, P core log → core.outbox.pop = some (cmd, outbox) →
      core.primaryDst = some dst → core.env.accepts core.sends = true →
      P (ServiceCore.sendControl archive { core with outbox } cmd dst).1
        (log ++ [⟨cmd, core.sent.length⟩]))
    (failed : ∀ core log cmd outbox dst, P core log → core.outbox.pop = some (cmd, outbox) →
      core.primaryDst = some dst → core.env.accepts core.sends = false →
      Q (ServiceCore.sendControl archive { core with outbox } cmd dst).1
        (log ++ [⟨cmd, core.sent.length⟩]))
    (fuel : Nat) {core : ServiceCore} {log : List Popped} (holds : P core log) :
    Q (ServiceCore.flushOutbox archive fuel core) (log ++ pops archive fuel core) := by
  induction fuel generalizing core log with
  | zero =>
      rw [pops, List.append_nil]
      exact ends core log holds
  | succ fuel inductionHypothesis =>
      unfold ServiceCore.flushOutbox pops
      cases popped : core.outbox.pop with
      | none =>
          rw [List.append_nil]
          exact ends core log holds
      | some taken =>
          obtain ⟨cmd, outbox⟩ := taken
          dsimp only
          cases found : ServiceCore.primaryDst { core with outbox } with
          | none => exact unrouted core log cmd outbox holds popped found
          | some dst =>
              dsimp only
              have outcome := (ServiceCore.sendControl_eq archive { core with outbox } cmd dst).2
              cases result : ServiceCore.sendControl archive { core with outbox } cmd dst with
              | mk after verdict =>
                  rw [result] at outcome
                  cases verdict with
                  | ok =>
                      have step := sent core log cmd outbox dst holds popped found
                        (outcome.mp rfl)
                      rw [result] at step
                      rw [← List.singleton_append, ← List.append_assoc]
                      exact inductionHypothesis step
                  | error failure =>
                      have refused : core.env.accepts core.sends = false := by
                        rw [← Bool.not_eq_true]
                        intro accepted
                        cases outcome.mpr accepted
                      have step := failed core log cmd outbox dst holds popped found refused
                      rw [result] at step
                      exact step

/-- The whole outbox loop. -/
theorem Sound.flushOutbox (fuel : Nat) {state : Outflow} (sound : Sound archive state)
    (settled : state.service.outbox.items ≠ [] → Settled archive state)
    (safe : FlushSafe state.service) :
    Sound archive { state with
      service := ServiceCore.flushOutbox archive fuel state.service
      popped := state.popped ++ pops archive fuel state.service } := by
  apply pops_rule
    (P := fun service popped => Sound archive ⟨service, state.pushed, popped⟩ ∧
      (service.outbox.items ≠ [] → Settled archive ⟨service, state.pushed, popped⟩) ∧
        FlushSafe service)
    (Q := fun service popped => Sound archive ⟨service, state.pushed, popped⟩)
    _ _ _ _ fuel ⟨sound, settled, safe⟩
  · exact fun _ _ holds => holds.1
  · rintro service log cmd outbox ⟨-, -, safe⟩ popped nobody
    have destination := (safe.of_popped popped).1
    rw [nobody] at destination
    cases destination
  · rintro service log cmd outbox dst ⟨sound, settled, safe⟩ popped - accepted
    refine ⟨sound.popped (settled (ne_nil_of_popped popped)) popped (.inl accepted) dst, ?_,
      safe.shift archive popped accepted dst⟩
    intro _ pop newest
    rw [List.getLast?_concat] at newest
    cases newest
    exact handed_sendControl accepted cmd dst
  · rintro service log cmd outbox dst ⟨sound, settled, safe⟩ popped - refused
    exact sound.popped (settled (ne_nil_of_popped popped)) popped
      (.inr ((safe.of_popped popped).2 refused)) dst

theorem Sound.emits {state : Outflow} (sound : Sound archive state) {service : ServiceCore}
    (emits : state.service.Emits service) : Sound archive { state with service } := by
  refine sound.evolve emits.cfg ?_ emits.sent ?_ ?_
  · rw [emits.outbox]
  · rw [emits.relTx]
    exact sound.aligned
  · rw [emits.relTx]
    exact fun _ _ _ retained => retained

theorem Sound.resend {state : Outflow} (sound : Sound archive state) :
    Sound archive { state with service := state.service.resend } := by
  rcases ServiceCore.Emits.resend state.service with idle | ticked
  · exact sound.emits idle
  · refine sound.evolve ticked.cfg ?_ ticked.sent ?_ ?_
    · rw [ticked.outbox]
    · rw [ticked.relTx]
      exact sound.aligned.tick _ _
    · rw [ticked.relTx]
      exact fun _ _ _ retained => retained.tick _ _

/-- One run of the background timer. -/
theorem Sound.background {state : Outflow} (sound : Sound archive state)
    (settled : state.service.outbox.items ≠ [] → Settled archive state)
    (safe : FlushSafe state.service.nowNs.1) :
    Sound archive { state with
      service := state.service.background archive
      popped := state.popped ++
        pops archive state.service.nowNs.1.outbox.items.length state.service.nowNs.1 } := by
  have read : Sound archive { state with service := state.service.nowNs.1 } :=
    sound.emits ⟨List.prefix_refl _, rfl, rfl, rfl, rfl⟩
  have flushed := read.flushOutbox state.service.nowNs.1.outbox.items.length settled safe
  have beaconed := flushed.emits (ServiceCore.Emits.beaconHeartbeat _ state.service.nowNs.2)
  exact beaconed.resend

/-- One datagram; an acknowledgement frees only what was handed over. -/
theorem Sound.receive {state : Outflow} (sound : Sound archive state) {bytes : List UInt8}
    {source : SocketAddr}
    (honest : ∀ ack named, recvFrame archive telemetry bytes source = .ok (.ack ack named) →
      ReportsSent archive state ack) :
    Sound archive
      { state with service := (state.service.receive archive telemetry bytes source).1 } := by
  unfold ServiceCore.receive
  split
  · exact sound
  · rename_i inbound read
    have emits := state.service.emits_dispatch inbound
    refine sound.evolve emits.cfg (by rw [emits.outbox]) emits.sent ?_ ?_
    · rw [emits.relTx]
      unfold ServiceCore.relTxAfter
      dsimp only
      split
      · exact sound.aligned.onAck _ _
      · exact sound.aligned
    · rw [emits.relTx]
      intro pop among waiting retained
      unfold ServiceCore.relTxAfter
      dsimp only
      split
      · rename_i ack named
        obtain ⟨i, live, timed, holds⟩ := retained
        have unreported := honest ack named read pop among waiting i live holds
        have spared : state.service.relTx.Spared ack (frame archive state.service pop.cmd) :=
          ⟨i, live, timed, holds, unreported⟩
        exact spared.onAck sound.aligned _
      · exact retained

theorem sound_of_starts {state : Outflow} (starts : Starts state) : Sound archive state := by
  obtain ⟨cfg, outbox, port, env, empty, rfl⟩ := starts
  refine ⟨fun _ impossible => absurd impossible (Nat.lt_irrefl 0), ?_, ?_, ?_⟩
  · exact empty.symm
  · exact .nil
  · exact fun _ impossible => nomatch impossible

theorem Sound.step {state target : Outflow} {action : Action} (sound : Sound archive state)
    (lossless : Lossless archive telemetry state action)
    (stepped : next archive telemetry state action = some target) : Sound archive target := by
  cases action with
  | push cmd =>
      simp only [next] at stepped
      split at stepped
      · rename_i outbox pushed
        cases stepped
        obtain ⟨split, inOrder, last⟩ := sound.accounted
        refine ⟨sound.aligned, ?_, inOrder, last⟩
        dsimp only
        rw [split, SpscRing.items_of_push pushed, List.append_assoc]
      · exact absurd stepped (by simp)
  | background =>
      cases stepped
      exact sound.background lossless.1 lossless.2
  | sendControl cmd dst =>
      cases stepped
      obtain ⟨aligned, kept⟩ := retained_sendControl archive sound.aligned cmd dst
      refine sound.evolve ?_ ?_ ?_ aligned fun _ _ _ retained => kept _ retained
      · rw [ServiceCore.sendControl_state]
      · rw [ServiceCore.sendControl_state]
      · exact (ServiceCore.extends_sendControl _ cmd dst).sent
  | receive bytes source =>
      cases stepped
      exact sound.receive lossless

/-- In every run whose ticks are safe to flush, pop nothing past a command that still waits, and
whose acknowledgements report only frames that were handed over, every command popped from the
outbox was handed to the transport before the next one was popped, or is the last one and
retained for retransmission. -/
theorem accounted_of_lossless (state : Outflow)
    (reached : ((system archive telemetry).restrict (Lossless archive telemetry)).Reachable
      state) : Accounted archive state := by
  have sound : Sound archive state := by
    apply reached.invariant
    · exact fun _ starts => sound_of_starts starts
    · rintro _ _ _ sound ⟨lossless, stepped⟩
      exact sound.step lossless stepped
  exact sound.accounted

def stopCommand : Command := .zeroed .emergencyStop

/-- A service that has sent nothing yet, with two commands in its outbox. -/
def loaded (cfg : ServiceConfig) (env : Environment) : Outflow where
  service := .new cfg ⟨4, [stopCommand, { stopCommand with seq := 1 }], by decide⟩ none env
  pushed := [stopCommand, { stopCommand with seq := 1 }]
  popped := []

theorem loaded_reachable (cfg : ServiceConfig) (env : Environment) :
    ((system archive telemetry).restrict (Lossless archive telemetry)).Reachable
      (loaded cfg env) := by
  have starts : Starts ⟨.new cfg (.withCapacity 4) none env, [], []⟩ :=
    ⟨cfg, .withCapacity 4, none, env, rfl, rfl⟩
  exact ⟨_, [.push stopCommand, .push { stopCommand with seq := 1 }], starts,
    .cons ⟨trivial, rfl⟩ (.cons ⟨trivial, rfl⟩ (.nil _))⟩

/-- A reliable service with a destination and a transport that refuses the second datagram. -/
def refused : Outflow :=
  loaded { primaryPeer := some ⟨.v4 0x7F000001, 4000⟩, reliableControl := true }
    ⟨fun n => decide (n ≠ 1), fun n => .ofNat (20000000 * n + 1)⟩

theorem lossless_refused : Lossless archive telemetry refused .background := by
  refine ⟨fun _ pop newest => (nomatch newest), fun _ => ⟨rfl, ?_⟩⟩
  intro position cmd listed _ failed
  match position, listed with
  | 0, _ => cases failed
  | 1, listed =>
      cases listed
      refine ⟨rfl, by decide, ?_, ?_, by decide⟩
      · rintro ⟨live, _⟩
        exact absurd live (Nat.lt_irrefl 0)
      · intro earlier before other found same
        obtain rfl := Nat.lt_one_iff.mp before
        cases found
        cases same

/-- The second command was refused, and retransmitted in the same tick. -/
def retransmitted : Outflow where
  service := refused.service.background .command
  pushed := refused.pushed
  popped := [⟨stopCommand, 0⟩, ⟨{ stopCommand with seq := 1 }, 1⟩]

/-- A third command follows. -/
def resumed : Outflow where
  service := { retransmitted.service with
    outbox := ⟨4, [{ stopCommand with seq := 2 }], by decide⟩ }
  pushed := retransmitted.pushed ++ [{ stopCommand with seq := 2 }]
  popped := retransmitted.popped

theorem resumed_reachable :
    ((system .command telemetry).restrict (Lossless .command telemetry)).Reachable resumed := by
  have ticked : next .command telemetry refused .background = some retransmitted := rfl
  have third : next .command telemetry retransmitted (.push { stopCommand with seq := 2 }) =
      some resumed := rfl
  have allowed : Lossless .command telemetry retransmitted (.push { stopCommand with seq := 2 }) :=
    trivial
  exact ((loaded_reachable _ _).step ⟨lossless_refused, ticked⟩).step ⟨allowed, third⟩

theorem lossless_resumed : Lossless .command telemetry resumed .background := by
  refine ⟨?_, fun _ => ⟨rfl, ?_⟩⟩
  · intro _ pop newest
    obtain rfl : ⟨{ stopCommand with seq := 1 }, 1⟩ = pop := Option.some.inj newest
    have third : (sentBytes resumed.service)[2]? =
        some (frame .command resumed.service { stopCommand with seq := 1 }) := rfl
    have length : resumed.service.sent.length = 3 := by decide +kernel
    exact ⟨2, by decide, length.symm ▸ by decide, third⟩
  · intro position cmd listed _ failed
    have taken : resumed.service.nowNs.1.env.accepts (resumed.service.nowNs.1.sends + 0) =
        true := by decide +kernel
    have items : resumed.service.nowNs.1.outbox.items = [{ stopCommand with seq := 2 }] := rfl
    rw [items] at listed
    cases position with
    | zero => cases taken.symm.trans failed
    | succ position => cases listed

/-- Three commands are popped; the second one goes out by its retransmission. -/
theorem resumed_accounted : ∃ state, state.popped.length = 3 ∧ Accounted .command state := by
  have stepped : next .command (fun _ => none) resumed .background = some _ := rfl
  have reached := resumed_reachable.step ⟨lossless_resumed, stepped⟩
  refine ⟨_, ?_, accounted_of_lossless _ reached⟩
  decide +kernel

/-- A service with neither a primary peer nor a neighbor. -/
def unroutable : Outflow := loaded {} .alwaysOpen

/-- With nobody to talk to yet, the popped command is gone. -/
theorem unroutable_not_accounted :
    ∃ state, (system .command fun _ => none).Reachable state ∧
      state.popped.map Popped.cmd = [stopCommand] ∧ ¬Accounted .command state := by
  let service := unroutable.service.background .command
  have stepped : next .command (fun _ => none) unroutable .background =
      some ⟨service, unroutable.pushed, [⟨stopCommand, 0⟩]⟩ := rfl
  have unsent : service.sent = [] := rfl
  have unretained : service.relTx = .new {} := rfl
  refine ⟨_, (loaded_reachable _ _).of_restrict.step stepped, rfl, ?_⟩
  intro accounted
  rcases accounted.last _ rfl with ⟨i, -, before, -⟩ | retained
  · dsimp only at before
    rw [unsent] at before
    exact absurd before (Nat.not_lt_zero i)
  · dsimp only at retained
    rw [unretained] at retained
    obtain ⟨i, live, -⟩ := retained
    exact absurd live (Nat.lt_irrefl 0)

end Account

end Outflow

end Teleop.Link
