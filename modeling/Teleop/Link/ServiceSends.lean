import Teleop.Link.ServiceSteps

/-!
# What a service sends

A property of datagrams that holds of beacons, of acknowledgements and of the
control datagrams of the queued commands holds of everything the service ever hands
to the transport, retransmissions included.
-/

namespace Teleop.Link.ServiceCore

open Teleop.Lib Teleop.Ring

variable {archive : Archive Command 56} {cfg : ServiceConfig}
  {P : SocketAddr → List UInt8 → Prop} {core : ServiceCore}

/-- Everything sent, retained for retransmission or queued in the outbox meets `P`. -/
structure Speaks (archive : Archive Command 56) (cfg : ServiceConfig)
    (P : SocketAddr → List UInt8 → Prop) (core : ServiceCore) : Prop where
  cfg_eq : core.cfg = cfg
  sent : ∀ datagram ∈ core.sent, P datagram.dst datagram.bytes
  retained : ∀ i, 0 < (core.relTx.slots i).len → ∀ dst, P dst (core.relTx.slots i).payload.val
  queued : ∀ cmd ∈ core.outbox.items, ∀ dst, P dst (controlFrame archive cmd (controlFlags cfg))

theorem Speaks.mono {Q : SocketAddr → List UInt8 → Prop} (speaks : Speaks archive cfg P core)
    (weaker : ∀ dst bytes, P dst bytes → Q dst bytes) : Speaks archive cfg Q core where
  cfg_eq := speaks.cfg_eq
  sent datagram handed := weaker _ _ (speaks.sent datagram handed)
  retained i live dst := weaker _ _ (speaks.retained i live dst)
  queued cmd waiting dst := weaker _ _ (speaks.queued cmd waiting dst)

theorem Speaks.nowNs (speaks : Speaks archive cfg P core) : Speaks archive cfg P core.nowNs.1 :=
  ⟨speaks.cfg_eq, speaks.sent, speaks.retained, speaks.queued⟩

theorem Speaks.transmit (speaks : Speaks archive cfg P core) {dst : SocketAddr}
    {bytes : List UInt8} (holds : P dst bytes) :
    Speaks archive cfg P (core.transmit dst bytes).1 := by
  unfold ServiceCore.transmit
  split
  · refine ⟨speaks.cfg_eq, ?_, speaks.retained, speaks.queued⟩
    intro datagram handed
    rcases List.mem_append.mp handed with earlier | new
    · exact speaks.sent datagram earlier
    · rw [List.mem_singleton] at new
      subst new
      exact holds
  · exact ⟨speaks.cfg_eq, speaks.sent, speaks.retained, speaks.queued⟩

theorem Speaks.retain (speaks : Speaks archive cfg P core) {cmd : Command} {bytes : List UInt8}
    {nowNs : UInt64} (holds : ∀ dst, P dst bytes) :
    Speaks archive cfg P (core.retain cmd bytes nowNs) := by
  unfold ServiceCore.retain
  split
  · rename_i fits
    refine ⟨speaks.cfg_eq, speaks.sent, ?_, speaks.queued⟩
    dsimp only
    rcases ReliableTx.send_cases core.relTx cmd.seq.toUInt32 ⟨bytes, fits.2⟩ nowNs with
      refused | ⟨_, _, stored⟩
    · rw [refused]
      exact speaks.retained
    · rw [stored]
      intro (i : Fin (core.relTx.mask + 1)) live dst
      dsimp only at live ⊢
      by_cases same : i = core.relTx.index cmd.seq.toUInt32
      · rw [ReliableTx.setSlot_slots, if_pos same]
        exact holds dst
      · rw [ReliableTx.setSlot_slots, if_neg same] at live ⊢
        exact speaks.retained i live dst
  · exact speaks

theorem Speaks.sendControl (speaks : Speaks archive cfg P core) {cmd : Command}
    (holds : ∀ dst, P dst (controlFrame archive cmd (controlFlags cfg))) (dst : SocketAddr) :
    Speaks archive cfg P (core.sendControl archive cmd dst).1 := by
  rw [(sendControl_eq archive core cmd dst).1, speaks.cfg_eq]
  apply Speaks.transmit
  · exact speaks.nowNs.retain holds
  · exact holds dst

theorem Speaks.popped (speaks : Speaks archive cfg P core) {cmd : Command}
    {outbox : SpscRing Command} (popped : core.outbox.pop = some (cmd, outbox)) :
    Speaks archive cfg P { core with outbox } ∧
      ∀ dst, P dst (controlFrame archive cmd (controlFlags cfg)) := by
  have items := SpscRing.items_of_pop popped
  have queued := speaks.queued
  rw [items] at queued
  refine ⟨⟨speaks.cfg_eq, speaks.sent, speaks.retained, ?_⟩, queued cmd List.mem_cons_self⟩
  intro other waiting
  exact queued other (List.mem_cons_of_mem cmd waiting)

theorem Speaks.flushOutbox (fuel : Nat) (speaks : Speaks archive cfg P core) :
    Speaks archive cfg P (flushOutbox archive fuel core) := by
  have step : ∀ core cmd outbox dst, Speaks archive cfg P core →
      core.outbox.pop = some (cmd, outbox) →
      Speaks archive cfg P (ServiceCore.sendControl archive { core with outbox } cmd dst).1 := by
    intro core cmd outbox dst speaks popped
    obtain ⟨remaining, holds⟩ := speaks.popped popped
    exact remaining.sendControl holds dst
  apply flushOutbox_rule (P := Speaks archive cfg P) (Q := Speaks archive cfg P)
  · exact fun _ speaks => speaks
  · exact fun _ _ _ speaks popped _ => (speaks.popped popped).1
  · exact fun _ _ _ _ speaks popped _ _ => step _ _ _ _ speaks popped
  · exact fun _ _ _ _ speaks popped _ _ => step _ _ _ _ speaks popped
  · exact speaks

section Timers

variable (beacons : ∀ dst beacon, P dst (writeMeshFrame beacon))
include beacons

theorem Speaks.sendBeaconTo (speaks : Speaks archive cfg P core) (dst : SocketAddr) :
    Speaks archive cfg P (core.sendBeaconTo dst).1 :=
  speaks.nowNs.transmit (beacons dst _)

theorem Speaks.beaconHeartbeat (speaks : Speaks archive cfg P core) (nowNs : UInt64) :
    Speaks archive cfg P (core.beaconHeartbeat nowNs) := by
  unfold ServiceCore.beaconHeartbeat
  split
  · have round : Speaks archive cfg P
        (ServiceCore.beaconFanout
          { core with beaconSeq := core.beaconSeq + 1, lastBeaconNs := nowNs }) := by
      unfold ServiceCore.beaconFanout
      refine List.foldlRecOn (motive := Speaks archive cfg P) _ _
        ⟨speaks.cfg_eq, speaks.sent, speaks.retained, speaks.queued⟩ ?_
      exact fun _ speaking dst _ => speaking.sendBeaconTo beacons dst
    exact ⟨round.cfg_eq, round.sent, round.retained, round.queued⟩
  · exact speaks

omit beacons in
theorem Speaks.resend (speaks : Speaks archive cfg P core) :
    Speaks archive cfg P core.resend := by
  unfold ServiceCore.resend
  split
  · exact speaks
  · rename_i dst found
    dsimp only
    have ticked : Speaks archive cfg P
        { core.nowNs.1 with
          relTx := (core.nowNs.1.relTx.tick core.nowNs.2 core.nowNs.1.cfg.rtoNs).1 } := by
      refine ⟨speaks.cfg_eq, speaks.sent, ?_, speaks.queued⟩
      intro (i : Fin (core.nowNs.1.relTx.mask + 1)) live dst
      dsimp only at live ⊢
      rw [ReliableTx.tick_len] at live
      rw [(ReliableTx.tick_slots _ _ _ i).2.1]
      exact speaks.retained i live dst
    refine List.foldlRecOn (motive := Speaks archive cfg P) _ _ ticked ?_
    intro core speaking frame emitted
    apply speaking.transmit
    obtain ⟨i, live, rfl⟩ := ReliableTx.exists_slot_of_tick emitted
    exact speaks.retained i live dst

theorem Speaks.background (speaks : Speaks archive cfg P core) :
    Speaks archive cfg P (core.background archive) := by
  apply Speaks.resend
  apply Speaks.beaconHeartbeat beacons
  exact speaks.nowNs.flushOutbox _

/-- What arrives makes the service send beacons and acknowledgements only, and frees
retained frames at most. -/
theorem Speaks.dispatch (speaks : Speaks archive cfg P core) (inbound : Inbound)
    (acks : ∀ cmd source, inbound = .control cmd source true →
      P source (writeAckFrame
        ((core.relRx.accept cmd.seq.toUInt32 .empty).1.buildAck 0))) :
    Speaks archive cfg P (core.dispatch inbound).1 := by
  cases inbound with
  | control cmd source reliable =>
      cases reliable with
      | false => exact speaks.nowNs
      | true =>
          have moved : Speaks archive cfg P
              { core.nowNs.1 with relRx := (core.relRx.accept cmd.seq.toUInt32 .empty).1 } :=
            ⟨speaks.cfg_eq, speaks.sent, speaks.retained, speaks.queued⟩
          exact moved.transmit (acks cmd source rfl)
  | telemetry pkt source => exact speaks.nowNs
  | ice payload source => exact speaks.nowNs
  | secure sealed source inner => exact speaks.nowNs
  | mesh beacon source =>
      have observed : ∀ mesh, Speaks archive cfg P { core.nowNs.1 with mesh } := fun mesh =>
        ⟨speaks.cfg_eq, speaks.sent, speaks.retained, speaks.queued⟩
      unfold ServiceCore.dispatch
      dsimp only
      split
      · exact (observed _).sendBeaconTo beacons _
      · exact observed _
  | ack ack source =>
      refine ⟨speaks.cfg_eq, speaks.sent, ?_, speaks.queued⟩
      apply ReliableTx.onAck_preserves
        (P := fun tx => ∀ i, 0 < (tx.slots i).len → ∀ dst, P dst (tx.slots i).payload.val)
        _ _ _ speaks.retained
      · intro tx retained _ _ (i : Fin (tx.mask + 1)) live dst
        obtain ⟨_, kept⟩ := ReliableTx.live_of_release live
        dsimp only at live ⊢
        rw [kept] at live ⊢
        exact retained i live dst
      · intro tx _ _ retained _ (i : Fin (tx.mask + 1)) live dst
        obtain ⟨_, kept⟩ := ReliableTx.live_of_release live
        rw [kept] at live ⊢
        exact retained i live dst

end Timers

end Teleop.Link.ServiceCore
