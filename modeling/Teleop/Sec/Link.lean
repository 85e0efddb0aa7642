import Teleop.Link.Mux
import Teleop.Sec.SecureBlock
import Teleop.Sec.Session

/-!
# Sealed traffic on the link

A secure mux seals commands and telemetry for the secure channel of the link and opens what
arrives there into a ring.  The tag of the inner channel travels in the clear and selects
the associated data an envelope is opened with.
-/

namespace Teleop.Sec

open Teleop.Core Teleop.Lib Teleop.Link Teleop.Ring

/-- AAD domain tags separating sealed channels from one another. -/
def AAD_CONTROL : List UInt8 := latin1 "tpt-sec-control"

def AAD_TELEMETRY : List UInt8 := latin1 "tpt-sec-telemetry"

namespace SecureInner

def CONTROL : UInt8 := 1

def TELEMETRY : UInt8 := 2

end SecureInner

/-- The AAD domain that the inner-channel tag of a frame selects. -/
def aadFor (inner : UInt8) : List UInt8 :=
  if inner = SecureInner.TELEMETRY then AAD_TELEMETRY else AAD_CONTROL

theorem aadFor_eq_telemetry {inner : UInt8} :
    aadFor inner = AAD_TELEMETRY ↔ inner = SecureInner.TELEMETRY := by
  unfold aadFor
  split
  · simpa
  · rename_i other
    simp only [other, iff_false]
    decide

theorem aadFor_eq_control {inner : UInt8} :
    aadFor inner = AAD_CONTROL ↔ inner ≠ SecureInner.TELEMETRY := by
  unfold aadFor
  split
  · rename_i same
    simp only [same, ne_eq, not_true_eq_false, iff_false]
    decide
  · simpa

/-- Why a datagram was not built. -/
inductive SendError where
  | sec (failure : SecError)
  | link (failure : LinkError)
  deriving DecidableEq, Repr

/-- A port that speaks only within one negotiated session. -/
structure SecureMux where
  session : SecureSession

namespace SecureMux

variable (p : Primitives)

/-- The datagram that carries the sealed plaintext.  A nonce is drawn even when the envelope
then exceeds the MTU. -/
def sendSealed (mux : SecureMux) (plaintext aad : List UInt8) (inner : UInt8) :
    Except SendError (List UInt8) × SecureMux :=
  match mux.session.sealPlaintext p plaintext aad with
  | (.error failure, session) => (.error (.sec failure), ⟨session⟩)
  | (.ok envelope, session) =>
      match writeSecureFrame envelope inner with
      | .error failure => (.error (.link failure), ⟨session⟩)
      | .ok datagram => (.ok datagram, ⟨session⟩)

def sendSecureControl (archive : Archive Command 56) (mux : SecureMux) (cmd : Command) :
    Except SendError (List UInt8) × SecureMux :=
  mux.sendSealed p (archive.serialize cmd) AAD_CONTROL SecureInner.CONTROL

def sendSecureTelemetry (packets : Archive (TelemetryPacket UInt32) 56) (mux : SecureMux)
    (pkt : TelemetryPacket UInt32) : Except SendError (List UInt8) × SecureMux :=
  mux.sendSealed p (packets.serialize pkt) AAD_TELEMETRY SecureInner.TELEMETRY

def sendSecureRaw (mux : SecureMux) (plaintext : List UInt8) :
    Except SendError (List UInt8) × SecureMux :=
  mux.sendSealed p plaintext AAD_CONTROL SecureInner.CONTROL

section Receive

variable (archive : Archive Command 56) (telemetry : List UInt8 → Option (TelemetryPacket UInt32))
variable {N : Nat}

/-- Handles one datagram, if the socket has one: the number of blocks pushed, and the ring. -/
def recvDecrypt (mux : SecureMux) (datagram : Option (List UInt8 × SocketAddr))
    (ring : SpscRing (SecureBlock N)) : Nat × SpscRing (SecureBlock N) :=
  match datagram with
  | none => (0, ring)
  | some (bytes, source) =>
      match recvFrame archive telemetry bytes source with
      | .ok (.secure envelope _ inner) =>
          match decryptIntoRing p.aead mux.session.crypto envelope (aadFor inner) ring with
          | (.ok _, pushed) => (1, pushed)
          | (.error _, ring) => (0, ring)
      | _ => (0, ring)

end Receive

end SecureMux

/-- Opens an envelope that the network service has delivered. -/
def decryptEventIntoRing {N : Nat} (aead : Aead) (box : CryptoBox) (sealed : List UInt8)
    (inner : UInt8) (ring : SpscRing (SecureBlock N)) :
    Except SecError Nat × SpscRing (SecureBlock N) :=
  decryptIntoRing aead box sealed (aadFor inner) ring

end Teleop.Sec
