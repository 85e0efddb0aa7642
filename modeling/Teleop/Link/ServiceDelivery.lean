import Teleop.Lib.TransitionSystem
import Teleop.Link.ServiceReceipt

/-!
# Reliable control between two services

A sender in reliable mode and a receiver, with a network that hands over any datagram
already sent, in any order and any number of times.  The receiver passes every
reliable command that arrives on to its sink, so the sink sees the order of arrival.
-/

namespace Teleop.Link

open Teleop.Lib Teleop.Ring

/-- Both services, the commands issued so far, every datagram handed to the receiver, and
the commands of its reliable control events. -/
structure Conversation where
  sender : ServiceCore
  receiver : ServiceCore
  issued : List Command
  handed : List (List UInt8)
  delivered : List Command

namespace Conversation

inductive Action where
  | sendControl (cmd : Command) (dst : SocketAddr)
  | pushOutbox (cmd : Command)
  | senderBackground
  | receiverBackground
  | deliver (position : Nat)
  | answer (position : Nat)

/-- The command of a reliable control event. -/
def reliableCommand : Option Event → List Command
  | some (.control cmd _ true) => [cmd]
  | _ => []

section System

variable (archive : Archive Command 56)
  (telemetry : List UInt8 → Option (Core.TelemetryPacket UInt32))
  (senderAddr receiverAddr : SocketAddr)

/-- Commands are issued with consecutive sequence numbers, by a call or through the outbox. -/
def next (state : Conversation) : Action → Option Conversation
  | .sendControl cmd dst =>
      if cmd.seq.toNat = state.issued.length then
        some { state with
          sender := (state.sender.sendControl archive cmd dst).1
          issued := state.issued ++ [cmd] }
      else none
  | .pushOutbox cmd =>
      if cmd.seq.toNat = state.issued.length then
        match state.sender.outbox.push cmd with
        | .ok outbox =>
            some { state with
              sender := { state.sender with outbox }
              issued := state.issued ++ [cmd] }
        | .error _ => none
      else none
  | .senderBackground => some { state with sender := state.sender.background archive }
  | .receiverBackground => some { state with receiver := state.receiver.background archive }
  | .deliver position =>
      (state.sender.sent[position]?).bind fun datagram =>
        if datagram.dst = receiverAddr then
          let (receiver, event) :=
            state.receiver.receive archive telemetry datagram.bytes senderAddr
          some { state with
            receiver
            handed := state.handed ++ [datagram.bytes]
            delivered := state.delivered ++ reliableCommand event }
        else none
  | .answer position =>
      (state.receiver.sent[position]?).bind fun datagram =>
        if datagram.dst = senderAddr then
          some { state with
            sender := (state.sender.receive archive telemetry datagram.bytes receiverAddr).1 }
        else none

/-- Two fresh services, the sender in reliable mode with nothing queued. -/
def Starts (state : Conversation) : Prop :=
  ∃ cfg outbox port env cfg' outbox' port' env',
    cfg.reliableControl = true ∧ outbox.items = [] ∧
      state = ⟨.new cfg outbox port env, .new cfg' outbox' port' env', [], [], []⟩

def system : TransitionSystem Conversation Action :=
  .ofNext Starts (next archive telemetry senderAddr receiverAddr)

end System

section Arrivals

variable {archive : Archive Command 56}
  {telemetry : List UInt8 → Option (Core.TelemetryPacket UInt32)}

/-- What a sender of `issued` puts on the wire. -/
def Authored (archive : Archive Command 56) (issued : List Command) (_ : SocketAddr)
    (bytes : List UInt8) : Prop :=
  (∃ cmd ∈ issued, bytes = controlFrame archive cmd flagReliable) ∨
    (∃ beacon, bytes = writeMeshFrame beacon) ∨ ∃ ack, bytes = writeAckFrame ack

theorem receive_controlFrame (core : ServiceCore) (cmd : Command) (source : SocketAddr) :
    core.receive archive telemetry (controlFrame archive cmd flagReliable) source =
      core.dispatch (.control (stamped cmd) source true) :=
  ServiceCore.receive_of_read archive telemetry (recvFrame_reliable archive telemetry cmd source)

variable (archive telemetry) in
theorem silent_meshFrame (core : ServiceCore) (beacon : MeshBeacon) (source : SocketAddr) :
    reliableCommand (core.receive archive telemetry (writeMeshFrame beacon) source).2 = [] := by
  rcases recvFrame_mesh archive telemetry beacon source with failed | ⟨decoded, read⟩
  · rw [ServiceCore.receive_of_failed archive telemetry failed]
    rfl
  · rw [ServiceCore.receive_of_read archive telemetry read]
    unfold ServiceCore.dispatch
    dsimp only
    split <;> rfl

variable (archive telemetry) in
theorem silent_ackFrame (core : ServiceCore) (ack : AckFrame) (source : SocketAddr) :
    reliableCommand (core.receive archive telemetry (writeAckFrame ack) source).2 = [] := by
  rw [ServiceCore.receive_of_read archive telemetry (recvFrame_ack archive telemetry ack source)]
  rfl

/-- The commands whose datagrams arrived, in order of arrival: each was issued, and each is
an event. -/
structure Arrivals (archive : Archive Command 56) (state : Conversation)
    (arrived : List Command) : Prop where
  issued : ∀ cmd ∈ arrived, cmd ∈ state.issued
  handed : state.handed.filter isReliableControl =
    arrived.map (controlFrame archive · flagReliable)
  delivered : state.delivered = arrived.map stamped

/-- The invariant of a conversation. -/
structure Sound (archive : Archive Command 56) (state : Conversation) : Prop where
  speaks : ∃ cfg, cfg.reliableControl = true ∧
    state.sender.Speaks archive cfg (Authored archive state.issued)
  arrivals : ∃ arrived, Arrivals archive state arrived

theorem authored_append {issued : List Command} (cmd : Command) (dst : SocketAddr)
    (bytes : List UInt8) (authored : Authored archive issued dst bytes) :
    Authored archive (issued ++ [cmd]) dst bytes := by
  rcases authored with ⟨earlier, listed, equal⟩ | other
  · exact .inl ⟨earlier, List.mem_append_left _ listed, equal⟩
  · exact .inr other

theorem authored_mesh (issued : List Command) (dst : SocketAddr) (beacon : MeshBeacon) :
    Authored archive issued dst (writeMeshFrame beacon) := .inr (.inl ⟨beacon, rfl⟩)

theorem authored_new (issued : List Command) (cmd : Command) {cfg : ServiceConfig}
    (reliable : cfg.reliableControl = true) (dst : SocketAddr) :
    Authored archive (issued ++ [cmd]) dst
      (controlFrame archive cmd (ServiceCore.controlFlags cfg)) := by
  unfold ServiceCore.controlFlags
  rw [if_pos reliable]
  exact .inl ⟨cmd, List.mem_append_right _ List.mem_cons_self, rfl⟩

theorem Arrivals.issue {state : Conversation} {arrived : List Command}
    (arrivals : Arrivals archive state arrived) (sender : ServiceCore) (cmd : Command) :
    Arrivals archive { state with sender, issued := state.issued ++ [cmd] } arrived where
  issued other listed := List.mem_append_left _ (arrivals.issued other listed)
  handed := arrivals.handed
  delivered := arrivals.delivered

/-- One datagram that the sender authored reaches the receiver. -/
theorem Arrivals.deliver {state : Conversation} {arrived : List Command}
    (arrivals : Arrivals archive state arrived) {dst source : SocketAddr} {bytes : List UInt8}
    (authored : Authored archive state.issued dst bytes) :
    ∃ arrived', Arrivals archive
      { state with
        receiver := (state.receiver.receive archive telemetry bytes source).1
        handed := state.handed ++ [bytes]
        delivered := state.delivered ++
          reliableCommand (state.receiver.receive archive telemetry bytes source).2 }
      arrived' := by
  rcases authored with ⟨cmd, listed, rfl⟩ | ⟨beacon, rfl⟩ | ⟨ack, rfl⟩
  · refine ⟨arrived ++ [cmd], ?_, ?_, ?_⟩
    · intro other member
      rcases List.mem_append.mp member with earlier | new
      · exact arrivals.issued other earlier
      · rw [List.mem_singleton] at new
        rw [new]
        exact listed
    · dsimp only
      rw [List.filter_append, arrivals.handed, List.map_append]
      simp [isReliableControl_controlFrame]
    · dsimp only
      rw [receive_controlFrame, arrivals.delivered, List.map_append]
      rfl
  · refine ⟨arrived, arrivals.issued, ?_, ?_⟩
    · dsimp only
      rw [List.filter_append, arrivals.handed]
      simp [isReliableControl_meshFrame]
    · dsimp only
      rw [silent_meshFrame, List.append_nil]
      exact arrivals.delivered
  · refine ⟨arrived, arrivals.issued, ?_, ?_⟩
    · dsimp only
      rw [List.filter_append, arrivals.handed]
      simp [isReliableControl_ackFrame]
    · dsimp only
      rw [silent_ackFrame, List.append_nil]
      exact arrivals.delivered

/-- Whatever the sender receives, it goes on speaking for the commands it was given. -/
theorem speaks_receive {cfg : ServiceConfig} {issued : List Command} {core : ServiceCore}
    (speaks : core.Speaks archive cfg (Authored archive issued)) (bytes : List UInt8)
    (source : SocketAddr) :
    (core.receive archive telemetry bytes source).1.Speaks archive cfg
      (Authored archive issued) := by
  unfold ServiceCore.receive
  split
  · exact speaks
  · rename_i inbound _
    apply speaks.dispatch (authored_mesh issued)
    intro cmd source _
    exact .inr (.inr ⟨_, rfl⟩)

variable {senderAddr receiverAddr : SocketAddr}

theorem sound_of_starts {state : Conversation} (starts : Starts state) :
    Sound archive state := by
  obtain ⟨cfg, outbox, port, env, _, _, _, _, reliable, empty, rfl⟩ := starts
  refine ⟨⟨cfg, reliable, rfl, ?_, ?_, ?_⟩, [], ?_, rfl, rfl⟩
  · exact fun _ impossible => absurd impossible List.not_mem_nil
  · exact fun _ impossible => absurd impossible (Nat.lt_irrefl 0)
  · intro cmd waiting
    have waiting : cmd ∈ outbox.items := waiting
    rw [empty] at waiting
    exact absurd waiting List.not_mem_nil
  · exact fun _ impossible => absurd impossible List.not_mem_nil

theorem Sound.step {state target : Conversation} {action : Action} (sound : Sound archive state)
    (stepped : next archive telemetry senderAddr receiverAddr state action = some target) :
    Sound archive target := by
  obtain ⟨⟨cfg, reliable, speaks⟩, arrived, arrivals⟩ := sound
  cases action with
  | sendControl cmd dst =>
      simp only [next] at stepped
      split at stepped
      · cases stepped
        refine ⟨⟨cfg, reliable, ?_⟩, arrived, arrivals.issue _ cmd⟩
        apply (speaks.mono (authored_append cmd)).sendControl
        exact authored_new state.issued cmd reliable
      · exact absurd stepped (by simp)
  | pushOutbox cmd =>
      simp only [next] at stepped
      split at stepped
      · split at stepped
        · rename_i outbox pushed
          cases stepped
          have wider := speaks.mono (authored_append cmd)
          refine ⟨⟨cfg, reliable, wider.cfg_eq, wider.sent, wider.retained, ?_⟩, arrived,
            arrivals.issue _ cmd⟩
          intro other waiting
          have waiting : other ∈ outbox.items := waiting
          rw [SpscRing.items_of_push pushed] at waiting
          rcases List.mem_append.mp waiting with earlier | new
          · exact wider.queued other earlier
          · rw [List.mem_singleton] at new
            rw [new]
            exact authored_new state.issued cmd reliable
        · exact absurd stepped (by simp)
      · exact absurd stepped (by simp)
  | senderBackground =>
      cases stepped
      exact ⟨⟨cfg, reliable, speaks.background (authored_mesh _)⟩, arrived,
        arrivals.issued, arrivals.handed, arrivals.delivered⟩
  | receiverBackground =>
      cases stepped
      exact ⟨⟨cfg, reliable, speaks⟩, arrived, arrivals.issued, arrivals.handed,
        arrivals.delivered⟩
  | deliver position =>
      obtain ⟨datagram, found, stepped⟩ := Option.bind_eq_some_iff.mp stepped
      split at stepped
      · cases stepped
        exact ⟨⟨cfg, reliable, speaks⟩,
          arrivals.deliver (speaks.sent datagram (List.mem_of_getElem? found))⟩
      · exact absurd stepped (by simp)
  | answer position =>
      obtain ⟨datagram, _, stepped⟩ := Option.bind_eq_some_iff.mp stepped
      split at stepped
      · cases stepped
        exact ⟨⟨cfg, reliable, speaks_receive speaks _ _⟩, arrived, arrivals.issued,
          arrivals.handed, arrivals.delivered⟩
      · exact absurd stepped (by simp)

theorem sound_of_reachable {state : Conversation}
    (reached : (system archive telemetry senderAddr receiverAddr).Reachable state) :
    Sound archive state := by
  apply reached.invariant
  · exact fun _ starts => sound_of_starts starts
  · exact fun _ _ _ sound stepped => sound.step stepped

variable (archive) in
/-- The command a control datagram carries. -/
def readCommand (bytes : List UInt8) : Option Command :=
  match demux archive (fun _ => none) bytes ⟨.v4 0, 0⟩ with
  | .ok (.control cmd _ _) => some cmd
  | _ => none

theorem readCommand_controlFrame (cmd : Command) :
    readCommand archive (controlFrame archive cmd flagReliable) = some (stamped cmd) := by
  unfold readCommand
  rw [demux_controlFrame archive _ cmd (by decide)]

/-- Prefixes of the commands are prefixes of their datagrams, and back. -/
theorem prefix_stamped_iff (arrived issued : List Command) :
    arrived.map stamped <+: issued.map stamped ↔
      arrived.map (controlFrame archive · flagReliable) <+:
        issued.map (controlFrame archive · flagReliable) := by
  constructor
  · intro before
    have framed := before.map fun cmd => assemble .control flagReliable (archive.serialize cmd)
    rw [List.map_map, List.map_map] at framed
    exact framed
  · intro before
    have read := before.map (readCommand archive)
    rw [List.map_map, List.map_map] at read
    have inverse : readCommand archive ∘ (controlFrame archive · flagReliable) =
        some ∘ stamped := funext readCommand_controlFrame
    rw [inverse, ← List.map_map, ← List.map_map] at read
    exact (List.prefix_map_iff_of_injective (Option.some_injective _)).mp read

/-- In every run the reliable commands handed to the sink are a prefix of those issued exactly
when the network handed the receiver the datagrams of commands 0, 1, 2, … once each and in
this order; whatever it does, nothing is delivered that was not issued. -/
theorem delivered_inOrder_iff_handed_inOrder (state : Conversation)
    (reached : (system archive telemetry senderAddr receiverAddr).Reachable state) :
    (state.delivered <+: state.issued.map stamped ↔
        state.handed.filter isReliableControl <+:
          state.issued.map (controlFrame archive · flagReliable)) ∧
      ∀ cmd ∈ state.delivered, cmd ∈ state.issued.map stamped := by
  obtain ⟨_, arrived, arrivals⟩ := sound_of_reachable reached
  rw [arrivals.handed, arrivals.delivered]
  refine ⟨prefix_stamped_iff arrived state.issued, ?_⟩
  intro cmd member
  obtain ⟨original, listed, rfl⟩ := List.mem_map.mp member
  exact List.mem_map_of_mem (arrivals.issued original listed)

variable (telemetry senderAddr) in
/-- Delivering a control datagram hands its command to the sink, whatever came before. -/
theorem deliver_controlFrame {state : Conversation} {position : Nat} {cmd : Command}
    (found : state.sender.sent[position]? =
      some ⟨receiverAddr, controlFrame archive cmd flagReliable⟩) :
    ∃ target, next archive telemetry senderAddr receiverAddr state (.deliver position) =
        some target ∧ target.sender = state.sender ∧ target.issued = state.issued ∧
      target.handed = state.handed ++ [controlFrame archive cmd flagReliable] ∧
      target.delivered = state.delivered ++ [stamped cmd] := by
  unfold next
  dsimp only
  rw [found, Option.bind_some, if_pos rfl, receive_controlFrame]
  exact ⟨_, rfl, rfl, rfl, rfl, rfl⟩

end Arrivals

def operatorAddr : SocketAddr := ⟨.v4 0x7F000001, 4000⟩
def vehicleAddr : SocketAddr := ⟨.v4 0x7F000001, 4001⟩

def opening : Conversation where
  sender := .new { reliableControl := true } (.withCapacity 4) none .alwaysOpen
  receiver := .new {} (.withCapacity 4) none .alwaysOpen
  issued := []
  handed := []
  delivered := []

def firstCommand : Command := .zeroed .fullTeleop

/-- The sender has sent its first command to the vehicle. -/
def firstSent : Conversation :=
  { opening with
    sender := (opening.sender.sendControl .command firstCommand vehicleAddr).1
    issued := [firstCommand] }

theorem firstSent_reachable :
    (system .command (fun _ => none) operatorAddr vehicleAddr).Reachable firstSent := by
  have starts : Starts opening := ⟨_, _, _, _, _, _, _, _, rfl, rfl, rfl⟩
  have stepped : next .command (fun _ => none) operatorAddr vehicleAddr opening
      (.sendControl firstCommand vehicleAddr) = some firstSent := by
    unfold next
    dsimp only
    rw [if_pos (show firstCommand.seq.toNat = opening.issued.length from rfl)]
    rfl
  exact (TransitionSystem.Reachable.of_initial starts).step stepped

theorem firstSent_onWire :
    firstSent.sender.sent[0]? =
      some ⟨vehicleAddr, controlFrame .command firstCommand flagReliable⟩ := by
  have logged : firstSent.sender.sent =
      [] ++ [⟨vehicleAddr, controlFrame .command firstCommand flagReliable⟩] :=
    ServiceCore.sent_sendControl firstCommand rfl
  rw [logged]
  rfl

def secondCommand : Command := { firstCommand with seq := 1 }

/-- The sender has sent its first two commands to the vehicle. -/
def bothSent : Conversation :=
  { firstSent with
    sender := (firstSent.sender.sendControl .command secondCommand vehicleAddr).1
    issued := [firstCommand, secondCommand] }

theorem bothSent_reachable :
    (system .command (fun _ => none) operatorAddr vehicleAddr).Reachable bothSent := by
  have stepped : next .command (fun _ => none) operatorAddr vehicleAddr firstSent
      (.sendControl secondCommand vehicleAddr) = some bothSent := by
    unfold next
    dsimp only
    rw [if_pos (show secondCommand.seq.toNat = firstSent.issued.length from rfl)]
    rfl
  exact firstSent_reachable.step stepped

theorem bothSent_onWire :
    bothSent.sender.sent[0]? =
        some ⟨vehicleAddr, controlFrame .command firstCommand flagReliable⟩ ∧
      bothSent.sender.sent[1]? =
        some ⟨vehicleAddr, controlFrame .command secondCommand flagReliable⟩ := by
  have earlier : firstSent.sender.sent =
      [] ++ [⟨vehicleAddr, controlFrame .command firstCommand flagReliable⟩] :=
    ServiceCore.sent_sendControl firstCommand rfl
  have logged : bothSent.sender.sent = firstSent.sender.sent ++
      [⟨vehicleAddr, controlFrame .command secondCommand flagReliable⟩] :=
    ServiceCore.sent_sendControl secondCommand rfl
  rw [logged, earlier]
  exact ⟨rfl, rfl⟩

/-- Handed over once each and in order, both commands are delivered as they should be. -/
theorem bothSent_delivered_inOrder :
    ∃ state, (system .command (fun _ => none) operatorAddr vehicleAddr).Reachable state ∧
      state.delivered = [stamped firstCommand, stamped secondCommand] ∧
      state.delivered <+: state.issued.map stamped := by
  obtain ⟨once, first, sender, issued, handed, delivered⟩ :=
    deliver_controlFrame (fun _ => none) operatorAddr bothSent_onWire.1
  have stillOnWire : once.sender.sent[1]? =
      some ⟨vehicleAddr, controlFrame .command secondCommand flagReliable⟩ := by
    rw [sender]
    exact bothSent_onWire.2
  obtain ⟨both, second, _, issued', handed', delivered'⟩ :=
    deliver_controlFrame (fun _ => none) operatorAddr stillOnWire
  have reached := (bothSent_reachable.step first).step second
  rw [delivered] at delivered'
  refine ⟨both, reached, delivered', ?_⟩
  apply (delivered_inOrder_iff_handed_inOrder both reached).1.mpr
  rw [handed', handed, issued', issued]
  change List.filter _ [controlFrame .command firstCommand flagReliable,
      controlFrame .command secondCommand flagReliable] <+:
    [controlFrame .command firstCommand flagReliable,
      controlFrame .command secondCommand flagReliable]
  rw [List.filter_cons_of_pos (isReliableControl_controlFrame _ firstCommand),
    List.filter_cons_of_pos (isReliableControl_controlFrame _ secondCommand)]
  exact List.prefix_refl _

/-- Handed over twice, it is delivered twice. -/
theorem duplicate_delivered_twice :
    ∃ state, (system .command (fun _ => none) operatorAddr vehicleAddr).Reachable state ∧
      state.issued = [firstCommand] ∧
      state.delivered = [stamped firstCommand, stamped firstCommand] ∧
      ¬state.delivered <+: state.issued.map stamped := by
  obtain ⟨once, first, sender, issued, _, delivered⟩ :=
    deliver_controlFrame (fun _ => none) operatorAddr firstSent_onWire
  have stillOnWire : once.sender.sent[0]? =
      some ⟨vehicleAddr, controlFrame .command firstCommand flagReliable⟩ := by
    rw [sender]
    exact firstSent_onWire
  obtain ⟨twice, second, _, issued', _, delivered'⟩ :=
    deliver_controlFrame (fun _ => none) operatorAddr stillOnWire
  rw [delivered] at delivered'
  rw [issued] at issued'
  refine ⟨twice, (firstSent_reachable.step first).step second, issued', delivered', ?_⟩
  intro before
  have length := before.length_le
  rw [delivered', issued'] at length
  exact absurd length (by decide)

end Conversation

end Teleop.Link
