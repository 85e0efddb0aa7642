import Teleop.Lib.TransitionSystem
import Teleop.Link.ReliableRx
import Teleop.Link.ServiceReceipt

/-!
# Acknowledgements among several senders

A network of services, each at its own address; any datagram sent may be handed to
the service at its destination, in any order and any number of times.  A service has
one receive window for all its peers and never drains it, so its acknowledgements
report what arrived from any of them.
-/

namespace Teleop.Link

open Teleop.Lib Teleop.Ring

/-- The sequence numbers an acknowledgement reports, of a sequence that starts at 0: those
before `baseSeq` and those of the bitmap. -/
def AckFrame.Reports (ack : AckFrame) (seq : UInt32) : Prop :=
  seq < ack.baseSeq ∨ ∃ i < sackBits - 1, bit ack.bitmap i = true ∧ seq = ack.baseSeq + serial (1 + i)

/-- The reliable control frames one service received and those it accepted, by source and
sequence number, and the sources of the acknowledgements it applied. -/
structure Ledger where
  received : List (SocketAddr × UInt32) := []
  accepted : List (SocketAddr × UInt32) := []
  applied : List SocketAddr := []

/-- What the service notes of one datagram, read with the window `relRx`. -/
def Ledger.record (ledger : Ledger) (relRx : ReliableRx) : Except FrameError Inbound → Ledger
  | .ok (.control cmd source true) =>
      let seq := cmd.seq.toUInt32
      { ledger with
        received := ledger.received ++ [(source, seq)]
        accepted := ledger.accepted ++
          if (relRx.accept seq .empty).2.taken then [(source, seq)] else [] }
  | .ok (.ack _ source) => { ledger with applied := ledger.applied ++ [source] }
  | _ => ledger

/-- Every service by its address, how many commands each has issued, and their ledgers. -/
structure Network where
  services : SocketAddr → ServiceCore
  issued : SocketAddr → Nat
  ledgers : SocketAddr → Ledger

namespace Network

inductive Action where
  | sendControl (address : SocketAddr) (cmd : Command) (dst : SocketAddr)
  | pushOutbox (address : SocketAddr) (cmd : Command)
  | background (address : SocketAddr)
  | deliver (source : SocketAddr) (position : Nat)

def setService (state : Network) (address : SocketAddr) (service : ServiceCore) : Network :=
  { state with services := Function.update state.services address service }

@[simp] theorem services_setService_self (state : Network) (address : SocketAddr)
    (service : ServiceCore) : (state.setService address service).services address = service :=
  Function.update_self ..

@[simp] theorem services_setService_of_ne (state : Network) {address other : SocketAddr}
    (different : other ≠ address) (service : ServiceCore) :
    (state.setService address service).services other = state.services other :=
  Function.update_of_ne different ..

/-- The next command of the service at `address`, numbered from 0. -/
def issue (state : Network) (address : SocketAddr) (service : ServiceCore) : Network :=
  { state.setService address service with
    issued := Function.update state.issued address (state.issued address + 1) }

section System

variable (archive : Archive Command 56)
  (telemetry : List UInt8 → Option (Core.TelemetryPacket UInt32))

/-- The service at `address` is handed `bytes`. -/
def handOver (state : Network) (address source : SocketAddr) (bytes : List UInt8) : Network :=
  let service := state.services address
  { state.setService address (service.receive archive telemetry bytes source).1 with
    ledgers := Function.update state.ledgers address
      ((state.ledgers address).record service.relRx
        (recvFrame archive telemetry bytes source)) }

def next (state : Network) : Action → Option Network
  | .sendControl address cmd dst =>
      if cmd.seq.toNat = state.issued address then
        some (state.issue address ((state.services address).sendControl archive cmd dst).1)
      else none
  | .pushOutbox address cmd =>
      if cmd.seq.toNat = state.issued address then
        match (state.services address).outbox.push cmd with
        | .ok outbox => some (state.issue address { state.services address with outbox })
        | .error _ => none
      else none
  | .background address =>
      some (state.setService address ((state.services address).background archive))
  | .deliver source position =>
      ((state.services source).sent[position]?).map fun datagram =>
        state.handOver archive telemetry datagram.dst source datagram.bytes

/-- Fresh services with nothing queued. -/
def Starts (state : Network) : Prop :=
  (∀ address, ∃ cfg outbox port env, outbox.items = [] ∧
    state.services address = .new cfg outbox port env) ∧
  (∀ address, state.issued address = 0) ∧ ∀ address, state.ledgers address = {}

def system : TransitionSystem Network Action := .ofNext Starts (next archive telemetry)

end System

end Network

namespace ReliableRx

/-- Without draining, a window that starts at 0 stays there, and a bit that `accept` sets is
that of the sequence number offered. -/
theorem accept_of_next_zero {rx : ReliableRx} (start : rx.next = 0) (seq : UInt32)
    (payload : Payload) :
    (rx.accept seq payload).1.next = 0 ∧
      ∀ i, bit (rx.accept seq payload).1.map i = true →
        bit rx.map i = true ∨ ((rx.accept seq payload).2.taken = true ∧ seq = serial i) := by
  have distance : seq - rx.next = seq := by rw [start, UInt32.sub_zero]
  by_cases inside : (seq - rx.next).toNat < sackBits
  · cases set : bit rx.map (seq - rx.next).toNat with
    | true =>
        rw [(accept_held inside set payload).1]
        exact ⟨start, fun i marked => .inl marked⟩
    | false =>
        obtain ⟨stored, taken⟩ := accept_fresh inside set payload
        rw [stored, taken]
        refine ⟨start, fun i marked => ?_⟩
        dsimp only at marked
        rw [bit_or_mask rx.map inside, Bool.or_eq_true, decide_eq_true_iff, distance] at marked
        rcases marked with earlier | new
        · exact .inl earlier
        · refine .inr ⟨rfl, ?_⟩
          rw [← new]
          exact (UInt32.ofNat_toNat).symm
  · rw [(accept_outside (Nat.le_of_not_lt inside) payload).1]
    exact ⟨start, fun i marked => .inl marked⟩

/-- The acknowledgement of a window that starts at 0 reports marked numbers only. -/
theorem marked_of_reports {rx : ReliableRx} (start : rx.next = 0) {rttSampleNs : UInt64}
    {seq : UInt32} (reports : (rx.buildAck rttSampleNs).Reports seq) :
    ∃ i, bit rx.map i = true ∧ seq = serial i := by
  rcases reports with before | ⟨i, _, marked, rfl⟩
  · have base : (rx.buildAck rttSampleNs).baseSeq = 0 := start
    rw [base] at before
    exact absurd before (UInt32.not_lt_zero)
  · refine ⟨1 + i, ?_, ?_⟩
    · have shifted : bit (rx.map >>> 1) i = true := marked
      rw [bit_shiftRight_one] at shifted
      rw [Nat.add_comm]
      exact shifted
    · change rx.next + serial (1 + i) = serial (1 + i)
      rw [start, UInt32.zero_add]

end ReliableRx

namespace Network

variable {archive : Archive Command 56}
  {telemetry : List UInt8 → Option (Core.TelemetryPacket UInt32)}

/-- What a service with this ledger puts on the wire. -/
def Said (archive : Archive Command 56) (ledger : Ledger) (dst : SocketAddr)
    (bytes : List UInt8) : Prop :=
  (∃ cmd cfg, bytes = controlFrame archive cmd (ServiceCore.controlFlags cfg)) ∨
    (∃ beacon, bytes = writeMeshFrame beacon) ∨
    ∃ ack, bytes = writeAckFrame ack ∧ (∃ seq, (dst, seq) ∈ ledger.received) ∧
      ∀ seq, ack.Reports seq → ∃ sender, (sender, seq) ∈ ledger.accepted

/-- The entries of one ledger are all in the other. -/
structure Ledger.Within (ledger later : Ledger) : Prop where
  received : ledger.received ⊆ later.received
  accepted : ledger.accepted ⊆ later.accepted

theorem within_record (ledger : Ledger) (relRx : ReliableRx)
    (read : Except FrameError Inbound) : Ledger.Within ledger (ledger.record relRx read) := by
  unfold Ledger.record
  split
  · exact ⟨List.subset_append_left _ _, List.subset_append_left _ _⟩
  · exact ⟨List.Subset.refl _, List.Subset.refl _⟩
  · exact ⟨List.Subset.refl _, List.Subset.refl _⟩

theorem Said.mono {ledger later : Ledger} (within : Ledger.Within ledger later)
    (dst : SocketAddr) (bytes : List UInt8) (said : Said archive ledger dst bytes) :
    Said archive later dst bytes := by
  rcases said with control | mesh | ⟨ack, written, ⟨seq, received⟩, covered⟩
  · exact .inl control
  · exact .inr (.inl mesh)
  · refine .inr (.inr ⟨ack, written, ⟨seq, within.received received⟩, ?_⟩)
    intro other reports
    obtain ⟨sender, accepted⟩ := covered other reports
    exact ⟨sender, within.accepted accepted⟩

theorem said_mesh (ledger : Ledger) (dst : SocketAddr) (beacon : MeshBeacon) :
    Said archive ledger dst (writeMeshFrame beacon) := .inr (.inl ⟨beacon, rfl⟩)

/-- A service and its ledger: every marked number was accepted from someone. -/
structure Attributed (archive : Archive Command 56) (service : ServiceCore) (ledger : Ledger) :
    Prop where
  next_eq : service.relRx.next = 0
  marked : ∀ i, bit service.relRx.map i = true →
    ∃ sender, (sender, serial i) ∈ ledger.accepted
  accepted : ledger.accepted ⊆ ledger.received
  speaks : ∃ cfg, service.Speaks archive cfg (Said archive ledger)

theorem Attributed.of_relRx {service after : ServiceCore} {ledger : Ledger}
    (attributed : Attributed archive service ledger) (window : after.relRx = service.relRx)
    (speaks : ∃ cfg, after.Speaks archive cfg (Said archive ledger)) :
    Attributed archive after ledger where
  next_eq := by rw [window]; exact attributed.next_eq
  marked := by rw [window]; exact attributed.marked
  accepted := attributed.accepted
  speaks := speaks

theorem Attributed.sendControl {service : ServiceCore} {ledger : Ledger}
    (attributed : Attributed archive service ledger) (cmd : Command) (dst : SocketAddr) :
    Attributed archive (service.sendControl archive cmd dst).1 ledger := by
  obtain ⟨cfg, speaks⟩ := attributed.speaks
  refine attributed.of_relRx (ServiceCore.extends_sendControl service cmd dst).relRx
    ⟨cfg, speaks.sendControl ?_ dst⟩
  exact fun _ => .inl ⟨cmd, cfg, rfl⟩

theorem Attributed.background {service : ServiceCore} {ledger : Ledger}
    (attributed : Attributed archive service ledger) :
    Attributed archive (service.background archive) ledger := by
  obtain ⟨cfg, speaks⟩ := attributed.speaks
  exact attributed.of_relRx (ServiceCore.extends_background service).relRx
    ⟨cfg, speaks.background (said_mesh ledger)⟩

theorem Attributed.withOutbox {service : ServiceCore} {ledger : Ledger}
    (attributed : Attributed archive service ledger) (outbox : SpscRing Command) :
    Attributed archive { service with outbox } ledger := by
  obtain ⟨cfg, speaks⟩ := attributed.speaks
  refine attributed.of_relRx rfl ⟨cfg, speaks.cfg_eq, speaks.sent, speaks.retained, ?_⟩
  exact fun other _ _ => .inl ⟨other, cfg, rfl⟩

/-- Accepting a frame and noting it. -/
theorem Attributed.accept {service : ServiceCore} {ledger : Ledger}
    (attributed : Attributed archive service ledger) (cmd : Command) (source : SocketAddr) :
    let after := (service.relRx.accept cmd.seq.toUInt32 .empty).1
    let noted := ledger.record service.relRx (.ok (.control cmd source true))
    after.next = 0 ∧
      (∀ i, bit after.map i = true → ∃ sender, (sender, serial i) ∈ noted.accepted) ∧
      noted.accepted ⊆ noted.received ∧ (source, cmd.seq.toUInt32) ∈ noted.received := by
  obtain ⟨start, marks⟩ :=
    ReliableRx.accept_of_next_zero attributed.next_eq cmd.seq.toUInt32 .empty
  refine ⟨start, ?_, ?_, ?_⟩
  · intro i marked
    dsimp only [Ledger.record]
    rcases marks i marked with earlier | ⟨taken, same⟩
    · obtain ⟨sender, accepted⟩ := attributed.marked i earlier
      exact ⟨sender, List.mem_append_left _ accepted⟩
    · refine ⟨source, List.mem_append_right _ ?_⟩
      rw [taken, same]
      exact List.mem_cons_self
  · dsimp only [Ledger.record]
    refine List.append_subset.mpr ⟨?_, ?_⟩
    · exact List.Subset.trans attributed.accepted (List.subset_append_left _ _)
    · split
      · exact List.subset_append_right _ _
      · exact List.nil_subset _
  · exact List.mem_append_right _ List.mem_cons_self

/-- Outside of reliable control, what arrives leaves the window alone. -/
theorem relRxAfter_of_other (service : ServiceCore) {inbound : Inbound}
    (other : ∀ cmd source, inbound ≠ .control cmd source true) :
    service.relRxAfter inbound = service.relRx := by
  unfold ServiceCore.relRxAfter
  split
  · exact absurd rfl (other _ _)
  · rfl

/-- One datagram, whatever it holds. -/
theorem Attributed.receive {service : ServiceCore} {ledger : Ledger}
    (attributed : Attributed archive service ledger) (bytes : List UInt8)
    (source : SocketAddr) :
    Attributed archive (service.receive archive telemetry bytes source).1
      (ledger.record service.relRx (recvFrame archive telemetry bytes source)) := by
  unfold ServiceCore.receive
  cases recvFrame archive telemetry bytes source with
  | error failure => exact attributed
  | ok inbound =>
      obtain ⟨cfg, speaks⟩ := attributed.speaks
      have wider := speaks.mono
        (Said.mono (within_record ledger service.relRx (.ok inbound)))
      dsimp only
      by_cases reliable : ∃ cmd named, inbound = .control cmd named true
      · obtain ⟨cmd, named, rfl⟩ := reliable
        obtain ⟨start, marked, accepted, noted⟩ := attributed.accept cmd named
        have window : (service.dispatch (.control cmd named true)).1.relRx =
            (service.relRx.accept cmd.seq.toUInt32 .empty).1 :=
          (service.emits_dispatch _).relRx
        refine ⟨?_, ?_, accepted, cfg, wider.dispatch (said_mesh _) _ ?_⟩
        · rw [window]
          exact start
        · rw [window]
          exact marked
        · intro cmd' source' same
          cases same
          refine .inr (.inr ⟨_, rfl, ⟨_, noted⟩, ?_⟩)
          intro seq reports
          obtain ⟨i, set, rfl⟩ := ReliableRx.marked_of_reports start reports
          exact marked i set
      · have other : ∀ cmd named, inbound ≠ .control cmd named true :=
          fun cmd named same => reliable ⟨cmd, named, same⟩
        have window : (service.dispatch inbound).1.relRx = service.relRx :=
          (service.emits_dispatch inbound).relRx.trans (relRxAfter_of_other service other)
        have unnoted : (ledger.record service.relRx (.ok inbound)).accepted = ledger.accepted ∧
            (ledger.record service.relRx (.ok inbound)).received = ledger.received := by
          unfold Ledger.record
          split
          · exact absurd (Except.ok.inj ‹_›) (other _ _)
          · exact ⟨rfl, rfl⟩
          · exact ⟨rfl, rfl⟩
        refine ⟨?_, ?_, ?_, cfg, wider.dispatch (said_mesh _) _ ?_⟩
        · rw [window]
          exact attributed.next_eq
        · rw [window, unnoted.1]
          exact attributed.marked
        · rw [unnoted.1, unnoted.2]
          exact attributed.accepted
        · exact fun cmd named same => absurd same (other cmd named)

/-- A reliable control frame of `service` went to `dst`. -/
def SentReliable (service : ServiceCore) (dst : SocketAddr) : Prop :=
  ∃ datagram ∈ service.sent, datagram.dst = dst ∧ isReliableControl datagram.bytes = true

theorem SentReliable.mono {service after : ServiceCore} {dst : SocketAddr}
    (sentReliable : SentReliable service dst) (longer : service.sent <+: after.sent) :
    SentReliable after dst := by
  obtain ⟨datagram, sent, went⟩ := sentReliable
  exact ⟨datagram, longer.subset sent, went⟩

/-- Reading a frame as reliable control or as an acknowledgement says what it was. -/
theorem Said.read {ledger : Ledger} {dst : SocketAddr} {bytes : List UInt8}
    (said : Said archive ledger dst bytes) (source : SocketAddr) :
    (∀ cmd named, recvFrame archive telemetry bytes source = .ok (.control cmd named true) →
        named = source ∧ isReliableControl bytes = true) ∧
      ∀ ack named, recvFrame archive telemetry bytes source = .ok (.ack ack named) →
        named = source ∧ ∃ seq, (dst, seq) ∈ ledger.received := by
  rcases said with ⟨cmd, cfg, rfl⟩ | ⟨beacon, rfl⟩ | ⟨ack, rfl, received, _⟩
  · unfold ServiceCore.controlFlags
    split
    · rw [recvFrame_reliable]
      refine ⟨?_, (fun _ _ impossible => nomatch impossible)⟩
      intro _ _ read
      cases read
      exact ⟨rfl, isReliableControl_controlFrame archive cmd⟩
    · rw [recvFrame_unreliable]
      constructor <;> exact fun _ _ impossible => nomatch impossible
  · rcases recvFrame_mesh archive telemetry beacon source with failed | ⟨decoded, read⟩
    · rw [failed]
      constructor <;> exact fun _ _ impossible => nomatch impossible
    · rw [read]
      constructor <;> exact fun _ _ impossible => nomatch impossible
  · rw [recvFrame_ack]
    refine ⟨(fun _ _ impossible => nomatch impossible), ?_⟩
    intro _ _ read
    cases read
    exact ⟨rfl, received⟩

/-- The invariant of the network: every ledger is attributed, and its entries stand for
reliable frames that were sent. -/
structure Sound (archive : Archive Command 56) (state : Network) : Prop where
  attributed : ∀ address, Attributed archive (state.services address) (state.ledgers address)
  received : ∀ address sender seq, (sender, seq) ∈ (state.ledgers address).received →
    SentReliable (state.services sender) address
  applied : ∀ address source, source ∈ (state.ledgers address).applied →
    SentReliable (state.services address) source

theorem sent_setService (state : Network) {address : SocketAddr} {service : ServiceCore}
    (longer : (state.services address).sent <+: service.sent) (other : SocketAddr) :
    (state.services other).sent <+: ((state.setService address service).services other).sent := by
  by_cases same : other = address
  · subst same
    rw [services_setService_self]
    exact longer
  · rw [services_setService_of_ne state same]

/-- A service moved on; its ledger did not. -/
theorem Sound.setService {state : Network} (sound : Sound archive state) {address : SocketAddr}
    {service : ServiceCore} (longer : (state.services address).sent <+: service.sent)
    (attributed : Attributed archive service (state.ledgers address)) :
    Sound archive (state.setService address service) where
  attributed other := by
    by_cases same : other = address
    · subst same
      rw [services_setService_self]
      exact attributed
    · rw [services_setService_of_ne state same]
      exact sound.attributed other
  received other sender seq noted :=
    (sound.received other sender seq noted).mono (sent_setService state longer sender)
  applied other source noted :=
    (sound.applied other source noted).mono (sent_setService state longer other)

theorem Sound.issue {state : Network} (sound : Sound archive state) {address : SocketAddr}
    {service : ServiceCore} (longer : (state.services address).sent <+: service.sent)
    (attributed : Attributed archive service (state.ledgers address)) :
    Sound archive (state.issue address service) := by
  have moved := sound.setService longer attributed
  exact ⟨moved.attributed, moved.received, moved.applied⟩

theorem sent_receive (service : ServiceCore) (bytes : List UInt8) (source : SocketAddr) :
    service.sent <+: (service.receive archive telemetry bytes source).1.sent := by
  unfold ServiceCore.receive
  split
  · exact List.prefix_refl _
  · exact (service.emits_dispatch _).sent

/-- What `record` adds. -/
theorem mem_record_received {ledger : Ledger} {relRx : ReliableRx}
    {read : Except FrameError Inbound} {sender : SocketAddr} {seq : UInt32}
    (noted : (sender, seq) ∈ (ledger.record relRx read).received) :
    (sender, seq) ∈ ledger.received ∨ ∃ cmd, read = .ok (.control cmd sender true) := by
  unfold Ledger.record at noted
  split at noted
  · rename_i cmd source
    rcases List.mem_append.mp noted with earlier | new
    · exact .inl earlier
    · rw [List.mem_singleton] at new
      cases new
      exact .inr ⟨cmd, rfl⟩
  · exact .inl noted
  · exact .inl noted

theorem mem_record_applied {ledger : Ledger} {relRx : ReliableRx}
    {read : Except FrameError Inbound} {source : SocketAddr}
    (noted : source ∈ (ledger.record relRx read).applied) :
    source ∈ ledger.applied ∨ ∃ ack, read = .ok (.ack ack source) := by
  unfold Ledger.record at noted
  split at noted
  · exact .inl noted
  · rename_i ack named
    rcases List.mem_append.mp noted with earlier | new
    · exact .inl earlier
    · rw [List.mem_singleton] at new
      subst new
      exact .inr ⟨ack, rfl⟩
  · exact .inl noted

/-- Handing over a datagram that was sent. -/
theorem Sound.handOver {state : Network} (sound : Sound archive state) {source : SocketAddr}
    {datagram : Datagram} (sent : datagram ∈ (state.services source).sent) :
    Sound archive
      (state.handOver archive telemetry datagram.dst source datagram.bytes) := by
  have longer : (state.services datagram.dst).sent <+:
      ((state.services datagram.dst).receive archive telemetry datagram.bytes source).1.sent :=
    sent_receive _ _ _
  have grown := sent_setService state longer
  obtain ⟨cfg, speaks⟩ := (sound.attributed source).speaks
  have said := speaks.sent datagram sent
  refine ⟨?_, ?_, ?_⟩
  · intro other
    unfold Network.handOver
    dsimp only
    by_cases same : other = datagram.dst
    · rw [same, services_setService_self, Function.update_self]
      exact (sound.attributed datagram.dst).receive datagram.bytes source
    · rw [services_setService_of_ne state same, Function.update_of_ne same]
      exact sound.attributed other
  · intro other sender seq noted
    unfold Network.handOver at noted
    dsimp only at noted
    refine SentReliable.mono ?_ (grown sender)
    by_cases same : other = datagram.dst
    · rw [same, Function.update_self] at noted
      rcases mem_record_received noted with earlier | ⟨cmd, read⟩
      · rw [same]
        exact sound.received datagram.dst sender seq earlier
      · obtain ⟨rfl, reliable⟩ := (said.read source).1 cmd sender read
        exact ⟨datagram, sent, same.symm, reliable⟩
    · rw [Function.update_of_ne same] at noted
      exact sound.received other sender seq noted
  · intro other peer noted
    unfold Network.handOver at noted
    dsimp only at noted
    refine SentReliable.mono ?_ (grown other)
    by_cases same : other = datagram.dst
    · rw [same, Function.update_self] at noted
      rcases mem_record_applied noted with earlier | ⟨ack, read⟩
      · rw [same]
        exact sound.applied datagram.dst peer earlier
      · obtain ⟨rfl, seq, received⟩ := (said.read source).2 ack peer read
        rw [same]
        exact sound.received peer datagram.dst seq received
    · rw [Function.update_of_ne same] at noted
      exact sound.applied other peer noted

theorem sound_of_starts {state : Network} (starts : Starts state) : Sound archive state := by
  obtain ⟨services, _, ledgers⟩ := starts
  refine ⟨?_, ?_, ?_⟩
  · intro address
    obtain ⟨cfg, outbox, port, env, empty, fresh⟩ := services address
    rw [fresh, ledgers address]
    refine ⟨rfl, ?_, List.nil_subset _, cfg, rfl, ?_, ?_, ?_⟩
    · intro i marked
      exact absurd marked (by simp [ServiceCore.new, ReliableRx.new])
    · exact fun _ impossible => absurd impossible List.not_mem_nil
    · exact fun _ impossible => absurd impossible (Nat.lt_irrefl 0)
    · exact fun cmd _ _ => .inl ⟨cmd, cfg, rfl⟩
  · intro address sender seq noted
    rw [ledgers address] at noted
    exact absurd noted List.not_mem_nil
  · intro address source noted
    rw [ledgers address] at noted
    exact absurd noted List.not_mem_nil

theorem Sound.step {state target : Network} {action : Action} (sound : Sound archive state)
    (stepped : next archive telemetry state action = some target) : Sound archive target := by
  cases action with
  | sendControl address cmd dst =>
      simp only [next] at stepped
      split at stepped
      · cases stepped
        refine sound.issue ?_ ((sound.attributed address).sendControl cmd dst)
        exact (ServiceCore.extends_sendControl _ cmd dst).sent
      · exact absurd stepped (by simp)
  | pushOutbox address cmd =>
      simp only [next] at stepped
      split at stepped
      · split at stepped
        · cases stepped
          exact sound.issue (List.prefix_refl _) ((sound.attributed address).withOutbox _)
        · exact absurd stepped (by simp)
      · exact absurd stepped (by simp)
  | background address =>
      cases stepped
      exact sound.setService (ServiceCore.extends_background _).sent
        (sound.attributed address).background
  | deliver source position =>
      obtain ⟨datagram, found, rfl⟩ := Option.map_eq_some_iff.mp stepped
      exact sound.handOver (List.mem_of_getElem? found)

theorem sound_of_reachable {state : Network}
    (reached : (system archive telemetry).Reachable state) : Sound archive state := by
  apply reached.invariant
  · exact fun _ starts => sound_of_starts starts
  · exact fun _ _ _ sound stepped => sound.step stepped

/-- An acknowledgement is told apart from the other datagrams. -/
theorem Said.answers {ledger : Ledger} {dst : SocketAddr} {ack : AckFrame}
    (said : Said archive ledger dst (writeAckFrame ack)) :
    (∃ seq, (dst, seq) ∈ ledger.received) ∧
      ∀ seq, ack.Reports seq → ∃ sender, (sender, seq) ∈ ledger.accepted := by
  have read := recvFrame_ack archive (fun _ => none) ack dst
  rcases said with ⟨cmd, cfg, same⟩ | ⟨beacon, same⟩ | ⟨other, same, answers⟩
  · rw [same] at read
    unfold ServiceCore.controlFlags at read
    split at read
    · rw [recvFrame_reliable] at read
      cases read
    · rw [recvFrame_unreliable] at read
      cases read
  · rw [same] at read
    rcases recvFrame_mesh archive (fun _ => none) beacon dst with failed | ⟨decoded, decodes⟩
    · rw [failed] at read
      cases read
    · rw [decodes] at read
      cases read
  · rw [same, recvFrame_ack] at read
    cases read
    exact answers

/-- In every run, an acknowledgement goes to a source of reliable frames and reports only
numbers of frames accepted from some sender, from that very source when it is the only one;
and an acknowledgement is applied only from a peer that was sent a reliable frame. -/
theorem acks_report_accepted (state : Network)
    (reached : (system archive telemetry).Reachable state) (address : SocketAddr) :
    (∀ datagram ∈ (state.services address).sent, ∀ ack,
        datagram.bytes = writeAckFrame ack →
        (∃ seq, (datagram.dst, seq) ∈ (state.ledgers address).received) ∧
        ∀ seq, ack.Reports seq →
          (∃ sender, (sender, seq) ∈ (state.ledgers address).accepted) ∧
          ((∀ entry ∈ (state.ledgers address).received, entry.1 = datagram.dst) →
            (datagram.dst, seq) ∈ (state.ledgers address).accepted)) ∧
      ∀ source ∈ (state.ledgers address).applied,
        SentReliable (state.services address) source := by
  have sound := sound_of_reachable reached
  obtain ⟨cfg, speaks⟩ := (sound.attributed address).speaks
  refine ⟨?_, sound.applied address⟩
  intro datagram sent ack written
  have said := speaks.sent datagram sent
  rw [written] at said
  obtain ⟨received, covered⟩ := said.answers
  refine ⟨received, ?_⟩
  intro seq reports
  obtain ⟨sender, accepted⟩ := covered seq reports
  refine ⟨⟨sender, accepted⟩, ?_⟩
  intro only
  have source : sender = datagram.dst :=
    only (sender, seq) ((sound.attributed address).accepted accepted)
  rw [← source]
  exact accepted

/-- The service at `address` has handled a reliable command from `source`. -/
def handled (state : Network) (address source : SocketAddr) (cmd : Command) : Network :=
  { state.setService address
      ((state.services address).dispatch (.control (stamped cmd) source true)).1 with
    ledgers := Function.update state.ledgers address
      ((state.ledgers address).record (state.services address).relRx
        (.ok (.control (stamped cmd) source true))) }

theorem reachable_handled {state : Network}
    (reached : (system archive telemetry).Reachable state) {source address : SocketAddr}
    {position : Nat} {cmd : Command} (found : (state.services source).sent[position]? =
      some ⟨address, controlFrame archive cmd flagReliable⟩) :
    (system archive telemetry).Reachable (state.handled address source cmd) := by
  have stepped : next archive telemetry state (.deliver source position) =
      some (state.handled address source cmd) := by
    unfold next handOver ServiceCore.receive
    dsimp only
    rw [found, Option.map_some, recvFrame_reliable]
    rfl
  exact reached.step stepped

/-- A reliable command is answered when the transport takes the acknowledgement. -/
theorem sent_dispatch_reliable {service : ServiceCore} (cmd : Command) (source : SocketAddr)
    (accepts : service.env.accepts service.sends = true) :
    (service.dispatch (.control cmd source true)).1.sent = service.sent ++
      [⟨source, writeAckFrame
        ((service.relRx.accept cmd.seq.toUInt32 .empty).1.buildAck 0)⟩] := by
  unfold ServiceCore.dispatch ServiceCore.acknowledge ServiceCore.transmit ServiceCore.nowNs
  dsimp only
  rw [if_pos rfl, if_pos accepts]

theorem services_handled_of_ne (state : Network) {address other : SocketAddr}
    (different : other ≠ address) (source : SocketAddr) (cmd : Command) :
    (state.handled address source cmd).services other = state.services other :=
  services_setService_of_ne state different _

theorem mem_sent_handled {state : Network} {address : SocketAddr} (source : SocketAddr)
    (cmd : Command) (accepts : (state.services address).env.accepts
      (state.services address).sends = true) :
    ⟨source, writeAckFrame
        (((state.services address).relRx.accept cmd.seq.toUInt32 .empty).1.buildAck 0)⟩ ∈
      ((state.handled address source cmd).services address).sent := by
  have service : (state.handled address source cmd).services address =
      ((state.services address).dispatch (.control (stamped cmd) source true)).1 :=
    services_setService_self ..
  rw [service, sent_dispatch_reliable _ _ accepts]
  exact List.mem_append_right _ List.mem_cons_self

def stationA : SocketAddr := ⟨.v4 0x0A000001, 4000⟩
def stationB : SocketAddr := ⟨.v4 0x0A000002, 4000⟩
def vehicle : SocketAddr := ⟨.v4 0x0A000003, 4001⟩

def command (seq : UInt64) : Command := { (.zeroed .fullTeleop : Command) with seq }

/-- The service at `address` sends its next command. -/
theorem reachable_sendControl {state : Network}
    (reached : (system archive telemetry).Reachable state) (address : SocketAddr)
    {cmd : Command} (numbered : cmd.seq.toNat = state.issued address) (dst : SocketAddr) :
    (system archive telemetry).Reachable
      (state.issue address ((state.services address).sendControl archive cmd dst).1) := by
  have stepped : next archive telemetry state (.sendControl address cmd dst) =
      some (state.issue address ((state.services address).sendControl archive cmd dst).1) :=
    if_pos numbered
  exact reached.step stepped

/-- Reliable services at every address. -/
def opening : Network where
  services _ := .new { reliableControl := true } (.withCapacity 4) none .alwaysOpen
  issued _ := 0
  ledgers _ := {}

def firstOfB : Network := opening.issue stationB
  ((opening.services stationB).sendControl .command (command 0) vehicle).1

def secondOfB : Network := firstOfB.issue stationB
  ((firstOfB.services stationB).sendControl .command (command 1) vehicle).1

/-- Station B has sent commands 0 and 1 to the vehicle, station A has sent command 0. -/
def sentBoth : Network := secondOfB.issue stationA
  ((secondOfB.services stationA).sendControl .command (command 0) vehicle).1

theorem sentBoth_reachable : (system .command fun _ => none).Reachable sentBoth := by
  have starts : Starts opening :=
    ⟨fun _ => ⟨_, _, _, _, rfl, rfl⟩, fun _ => rfl, fun _ => rfl⟩
  have first : (system .command fun _ => none).Reachable firstOfB :=
    reachable_sendControl (.of_initial starts) stationB rfl vehicle
  have second : (system .command fun _ => none).Reachable secondOfB :=
    reachable_sendControl first stationB rfl vehicle
  exact reachable_sendControl second stationA rfl vehicle

theorem sentBoth_onWire :
    (sentBoth.services stationB).sent[1]? =
        some ⟨vehicle, controlFrame .command (command 1) flagReliable⟩ ∧
      (sentBoth.services stationA).sent[0]? =
        some ⟨vehicle, controlFrame .command (command 0) flagReliable⟩ := by
  have first : (firstOfB.services stationB).sent =
      [] ++ [⟨vehicle, controlFrame .command (command 0) flagReliable⟩] :=
    ServiceCore.sent_sendControl (command 0) rfl
  have second : (sentBoth.services stationB).sent = (firstOfB.services stationB).sent ++
      [⟨vehicle, controlFrame .command (command 1) flagReliable⟩] :=
    ServiceCore.sent_sendControl (command 1) rfl
  have other : (sentBoth.services stationA).sent =
      [] ++ [⟨vehicle, controlFrame .command (command 0) flagReliable⟩] :=
    ServiceCore.sent_sendControl (command 0) rfl
  rw [second, first, other]
  exact ⟨rfl, rfl⟩

/-- The vehicle receives command 1 of station B, then command 0 of station A. -/
theorem crossed_acknowledged :
    ∃ state ack, (system .command fun _ => none).Reachable state ∧
      ⟨stationA, writeAckFrame ack⟩ ∈ (state.services vehicle).sent ∧ ack.Reports 1 ∧
      (state.ledgers vehicle).accepted = [(stationB, 1), (stationA, 0)] := by
  obtain ⟨fromB, fromA⟩ := sentBoth_onWire
  rw [← services_handled_of_ne sentBoth (by decide : stationA ≠ vehicle) stationB (command 1)]
    at fromA
  have once := reachable_handled sentBoth_reachable fromB
  have twice := reachable_handled once fromA
  refine ⟨_, _, twice, mem_sent_handled stationA (command 0) rfl, ?_, rfl⟩
  exact .inr ⟨0, by decide, by decide, by decide⟩

theorem crossed_acks_report_accepted :
    ∃ state ack, (system .command fun _ => none).Reachable state ∧
      ⟨stationA, writeAckFrame ack⟩ ∈ (state.services vehicle).sent ∧ ack.Reports 1 ∧
      (∃ seq, (stationA, seq) ∈ (state.ledgers vehicle).received) ∧
      ∃ sender, (sender, 1) ∈ (state.ledgers vehicle).accepted := by
  obtain ⟨state, ack, reached, sent, reports, _⟩ := crossed_acknowledged
  obtain ⟨received, covered⟩ := (acks_report_accepted state reached vehicle).1 _ sent ack rfl
  exact ⟨state, ack, reached, sent, reports, received, (covered 1 reports).1⟩

/-- Station A is told that its command 1 arrived, which it never sent. -/
theorem crossed_reports_other_sender :
    ∃ state ack, (system .command fun _ => none).Reachable state ∧
      ⟨stationA, writeAckFrame ack⟩ ∈ (state.services vehicle).sent ∧ ack.Reports 1 ∧
      (stationA, 1) ∉ (state.ledgers vehicle).accepted := by
  obtain ⟨state, ack, reached, sent, reports, accepted⟩ := crossed_acknowledged
  refine ⟨state, ack, reached, sent, reports, ?_⟩
  rw [accepted]
  decide

end Network

end Teleop.Link
