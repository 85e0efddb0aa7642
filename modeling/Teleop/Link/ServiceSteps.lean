import Teleop.Link.Service

/-!
# What each step of a service changes

One statement for each operation: the fields that a send, the outbox loop, the timers
and the handling of a datagram may touch.
-/

namespace Teleop.Link.ServiceCore

open Teleop.Lib Teleop.Ring

variable {archive : Archive Command 56} {core : ServiceCore}

theorem transmit_state (core : ServiceCore) (dst : SocketAddr) (bytes : List UInt8) :
    (core.transmit dst bytes).1 =
      { core with
        sends := core.sends + 1
        sent := core.sent ++ if core.env.accepts core.sends = true then [⟨dst, bytes⟩] else [] } := by
  unfold ServiceCore.transmit
  split
  · rfl
  · rw [List.append_nil]

theorem transmit_ok_iff (core : ServiceCore) (dst : SocketAddr) (bytes : List UInt8) :
    (core.transmit dst bytes).2.map (fun _ => ()) = .ok () ↔
      core.env.accepts core.sends = true := by
  unfold ServiceCore.transmit
  split
  · exact ⟨fun _ => ‹_›, fun _ => rfl⟩
  · exact ⟨fun impossible => (nomatch impossible), fun accepted => absurd accepted ‹_›⟩

theorem retain_state (core : ServiceCore) (cmd : Command) (bytes : List UInt8)
    (nowNs : UInt64) :
    core.retain cmd bytes nowNs =
      { core with relTx := (core.retain cmd bytes nowNs).relTx } := by
  unfold ServiceCore.retain
  split <;> rfl

variable (archive) in
theorem sendControl_eq (core : ServiceCore) (cmd : Command) (dst : SocketAddr) :
    (core.sendControl archive cmd dst).1 =
        (((core.nowNs.1).retain cmd (controlFrame archive cmd (controlFlags core.cfg))
          core.nowNs.2).transmit dst (controlFrame archive cmd (controlFlags core.cfg))).1 ∧
      ((core.sendControl archive cmd dst).2 = .ok () ↔
        core.env.accepts core.sends = true) := by
  unfold ServiceCore.sendControl
  dsimp only
  rw [writeControlFrame_eq]
  refine ⟨rfl, ?_⟩
  dsimp only
  rw [retain_state]
  exact transmit_ok_iff _ _ _

variable (archive) in
/-- Everything a send changes. -/
theorem sendControl_state (core : ServiceCore) (cmd : Command) (dst : SocketAddr) :
    (core.sendControl archive cmd dst).1 =
      { core with
        readings := core.readings + 1
        sends := core.sends + 1
        relTx := (core.nowNs.1.retain cmd (controlFrame archive cmd (controlFlags core.cfg))
          core.nowNs.2).relTx
        sent := core.sent ++ if core.env.accepts core.sends = true then
          [⟨dst, controlFrame archive cmd (controlFlags core.cfg)⟩] else [] } := by
  rw [(sendControl_eq archive core cmd dst).1, transmit_state, retain_state]
  rfl

/-- A send that the transport takes is logged. -/
theorem sent_sendControl {dst : SocketAddr} (cmd : Command)
    (accepted : core.env.accepts core.sends = true) :
    (core.sendControl archive cmd dst).1.sent =
      core.sent ++ [⟨dst, controlFrame archive cmd (controlFlags core.cfg)⟩] := by
  rw [sendControl_state]
  dsimp only
  rw [if_pos accepted]

/-- The outbox loop: `P` holds before each pop and `Q` wherever the loop ends. -/
theorem flushOutbox_rule {P Q : ServiceCore → Prop} (ends : ∀ core, P core → Q core)
    (unrouted : ∀ core cmd outbox, P core → core.outbox.pop = some (cmd, outbox) →
      core.primaryDst = none → Q { core with outbox })
    (sent : ∀ core cmd outbox dst, P core → core.outbox.pop = some (cmd, outbox) →
      core.primaryDst = some dst → core.env.accepts core.sends = true →
      P (sendControl archive { core with outbox } cmd dst).1)
    (failed : ∀ core cmd outbox dst, P core → core.outbox.pop = some (cmd, outbox) →
      core.primaryDst = some dst → core.env.accepts core.sends = false →
      Q (sendControl archive { core with outbox } cmd dst).1)
    (fuel : Nat) (holds : P core) : Q (flushOutbox archive fuel core) := by
  induction fuel generalizing core with
  | zero => exact ends core holds
  | succ fuel inductionHypothesis =>
      unfold flushOutbox
      split
      · exact ends core holds
      · rename_i cmd outbox popped
        dsimp only
        split
        · rename_i nobody
          exact unrouted core cmd outbox holds popped nobody
        · rename_i dst found
          have outcome := (sendControl_eq archive { core with outbox } cmd dst).2
          split
          · rename_i after result
            rw [result] at outcome
            have step := sent core cmd outbox dst holds popped found (outcome.mp rfl)
            rw [result] at step
            exact inductionHypothesis step
          · rename_i after failure result
            rw [result] at outcome
            have refused : core.env.accepts core.sends = false := by
              rw [← Bool.not_eq_true]
              exact fun accepted => nomatch outcome.mpr accepted
            have step := failed core cmd outbox dst holds popped found refused
            rw [result] at step
            exact step

/-- From `core` to `after` datagrams were sent; configuration, queues and windows are the
same. -/
structure Emits (core after : ServiceCore) : Prop where
  sent : core.sent <+: after.sent
  cfg : after.cfg = core.cfg
  outbox : after.outbox = core.outbox
  relTx : after.relTx = core.relTx
  relRx : after.relRx = core.relRx

namespace Emits

variable {after : ServiceCore}

theorem refl (core : ServiceCore) : Emits core core := ⟨List.prefix_refl _, rfl, rfl, rfl, rfl⟩

theorem transmit (emits : Emits core after) (dst : SocketAddr) (bytes : List UInt8) :
    Emits core (after.transmit dst bytes).1 := by
  rw [transmit_state]
  refine ⟨?_, emits.cfg, emits.outbox, emits.relTx, emits.relRx⟩
  exact emits.sent.trans (List.prefix_append _ _)

theorem sendBeaconTo (emits : Emits core after) (dst : SocketAddr) :
    Emits core (after.sendBeaconTo dst).1 := by
  have read : Emits core after.nowNs.1 :=
    ⟨emits.sent, emits.cfg, emits.outbox, emits.relTx, emits.relRx⟩
  exact read.transmit dst _

theorem beaconHeartbeat (core : ServiceCore) (nowNs : UInt64) :
    Emits core (core.beaconHeartbeat nowNs) := by
  unfold ServiceCore.beaconHeartbeat
  split
  · have round : Emits core (beaconFanout
        { core with beaconSeq := core.beaconSeq + 1, lastBeaconNs := nowNs }) := by
      unfold beaconFanout
      refine List.foldlRecOn (motive := Emits core) _ _ ?_ ?_
      · exact ⟨List.prefix_refl _, rfl, rfl, rfl, rfl⟩
      · exact fun _ emits dst _ => emits.sendBeaconTo dst
    exact ⟨round.sent, round.cfg, round.outbox, round.relTx, round.relRx⟩
  · exact .refl core

/-- Retransmission moves the timers of the retention window, if there is a destination. -/
theorem resend (core : ServiceCore) :
    Emits core core.resend ∨
      Emits { core with relTx := (core.relTx.tick core.nowNs.2 core.cfg.rtoNs).1 }
        core.resend := by
  unfold ServiceCore.resend
  split
  · exact .inl (.refl core)
  · right
    refine List.foldlRecOn (motive := Emits _) _ _ ⟨List.prefix_refl _, rfl, rfl, rfl, rfl⟩ ?_
    exact fun _ emits frame _ => emits.transmit _ frame.2.val

end Emits

/-- The receive window after a datagram: only reliable control moves it. -/
def relRxAfter (core : ServiceCore) : Inbound → ReliableRx
  | .control cmd _ true => (core.relRx.accept cmd.seq.toUInt32 .empty).1
  | _ => core.relRx

/-- The retention window after a datagram: only an acknowledgement moves it. -/
def relTxAfter (core : ServiceCore) : Inbound → ReliableTx
  | .ack ack _ => (core.relTx.onAck ack core.nowNs.2).1
  | _ => core.relTx

theorem emits_dispatch (core : ServiceCore) (inbound : Inbound) :
    Emits { core with relRx := core.relRxAfter inbound, relTx := core.relTxAfter inbound }
      (core.dispatch inbound).1 := by
  cases inbound with
  | control cmd source reliable =>
      cases reliable with
      | false => exact ⟨List.prefix_refl _, rfl, rfl, rfl, rfl⟩
      | true =>
          let relRx := (core.relRx.accept cmd.seq.toUInt32 .empty).1
          have moved : Emits { core with relRx } { core.nowNs.1 with relRx } :=
            ⟨List.prefix_refl _, rfl, rfl, rfl, rfl⟩
          exact moved.transmit source (writeAckFrame (relRx.buildAck 0))
  | telemetry pkt source => exact ⟨List.prefix_refl _, rfl, rfl, rfl, rfl⟩
  | ice payload source => exact ⟨List.prefix_refl _, rfl, rfl, rfl, rfl⟩
  | secure sealed source inner => exact ⟨List.prefix_refl _, rfl, rfl, rfl, rfl⟩
  | ack ack source => exact ⟨List.prefix_refl _, rfl, rfl, rfl, rfl⟩
  | mesh beacon source =>
      have observed : ∀ mesh, Emits core { core.nowNs.1 with mesh } :=
        fun _ => ⟨List.prefix_refl _, rfl, rfl, rfl, rfl⟩
      unfold dispatch
      dsimp only
      split
      · exact (observed _).sendBeaconTo _
      · exact observed _

/-- From `core` to `after` the log of datagrams only grew and the receive window did not
move. -/
structure Extends (core after : ServiceCore) : Prop where
  sent : core.sent <+: after.sent
  relRx : after.relRx = core.relRx

theorem Extends.trans {after later : ServiceCore} (first : Extends core after)
    (second : Extends after later) : Extends core later :=
  ⟨first.sent.trans second.sent, second.relRx.trans first.relRx⟩

theorem extends_sendControl (core : ServiceCore) (cmd : Command) (dst : SocketAddr) :
    Extends core (core.sendControl archive cmd dst).1 := by
  rw [sendControl_state]
  exact ⟨List.prefix_append _ _, rfl⟩

theorem extends_flushOutbox (fuel : Nat) (core : ServiceCore) :
    Extends core (flushOutbox archive fuel core) := by
  have step : ∀ middle cmd outbox dst, Extends core middle →
      Extends core (sendControl archive { middle with outbox } cmd dst).1 := by
    intro middle cmd outbox dst extension
    have popped : Extends core { middle with outbox } := ⟨extension.sent, extension.relRx⟩
    exact popped.trans (extends_sendControl _ cmd dst)
  apply flushOutbox_rule (P := Extends core) (Q := Extends core)
  · exact fun _ extension => extension
  · exact fun _ _ _ extension _ _ => ⟨extension.sent, extension.relRx⟩
  · exact fun _ _ _ _ extension _ _ _ => step _ _ _ _ extension
  · exact fun _ _ _ _ extension _ _ _ => step _ _ _ _ extension
  · exact ⟨List.prefix_refl _, rfl⟩

theorem extends_resend (core : ServiceCore) : Extends core core.resend := by
  rcases Emits.resend core with idle | resent
  · exact ⟨idle.sent, idle.relRx⟩
  · exact ⟨resent.sent, resent.relRx⟩

theorem extends_background (core : ServiceCore) : Extends core (core.background archive) := by
  have read : Extends core core.nowNs.1 := ⟨List.prefix_refl _, rfl⟩
  have flushed : Extends core (flushOutbox archive core.outbox.items.length core.nowNs.1) :=
    read.trans (extends_flushOutbox _ _)
  have beaconed := Emits.beaconHeartbeat
    (flushOutbox archive core.outbox.items.length core.nowNs.1) core.nowNs.2
  exact (flushed.trans ⟨beaconed.sent, beaconed.relRx⟩).trans (extends_resend _)

end Teleop.Link.ServiceCore
