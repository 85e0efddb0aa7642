import Teleop.Lib.TransitionSystem
import Teleop.Lib.Word
import Teleop.Lib.LinearProbing
import Teleop.Lib.FloatOps
import Teleop.Lib.ExactArithmetic
import Teleop.Lib.NotANumber
import Teleop.Lib.Framing
import Teleop.Lib.Binary64
import Teleop.Lib.Quintic
import Teleop.Lib.Bytes
import Teleop.Lib.ShiftRegister
import Teleop.Lib.Cursor
import Teleop.Lib.SymbolicSignatures
import Teleop.Lib.Numbering
import Teleop.Lib.Checked
import Teleop.Lib.Observer
import Teleop.Lib.Approach
import Teleop.Ring.Spsc
import Teleop.Ring.SpscThreads
import Teleop.Ring.SpscFifo
import Teleop.Ring.Mailbox
import Teleop.Core.Mode
import Teleop.Core.Machine
import Teleop.Core.Threads
import Teleop.Core.EmergencyLatch
import Teleop.Core.EventLog
import Teleop.Core.EventLogIntact
import Teleop.Core.Bus
import Teleop.Core.Command
import Teleop.Core.Mpmc
import Teleop.Core.MpmcProtocol
import Teleop.Core.MpmcSteps
import Teleop.Core.MpmcThreads
import Teleop.Core.MpmcContention
import Teleop.Core.MpmcSequential
import Teleop.Core.Pool
import Teleop.Core.PoolOwnership
import Teleop.Core.PoolSteps
import Teleop.Core.PoolExclusivity
import Teleop.Core.PoolConservation
import Teleop.Safety.Stages
import Teleop.Safety.Loop
import Teleop.Safety.StopOverride
import Teleop.Safety.Envelope
import Teleop.Safety.BadSamples
import Teleop.Safety.CeilingBrake
import Teleop.Safety.OutwardMotion
import Teleop.Safety.VetoBound
import Teleop.Safety.Authority
import Teleop.Safety.Handover
import Teleop.Link.Crc
import Teleop.Link.Mesh
import Teleop.Link.MeshChains
import Teleop.Link.MeshAdmission
import Teleop.Link.Reliable
import Teleop.Link.Mux
import Teleop.Link.ReliableRx
import Teleop.Link.ReliableTx
import Teleop.Link.SelectiveRepeat
import Teleop.Link.Recovery
import Teleop.Link.Service
import Teleop.Link.ServiceSends
import Teleop.Link.ServiceReceipt
import Teleop.Link.ServiceDelivery
import Teleop.Link.ServicePeers
import Teleop.Link.Retention
import Teleop.Link.ServiceOutbox
import Teleop.Link.AckCoverage
import Teleop.Link.Retransmission
import Teleop.Link.MuxRoundTrip
import Teleop.Link.BurstErrors
import Teleop.Link.MeshClock
import Teleop.Link.Backpressure
import Teleop.Link.Accrual
import Teleop.Link.Congestion
import Teleop.Link.RttEstimate
import Teleop.Link.Clearing
import Teleop.Sec.Identity
import Teleop.Sec.Cipher
import Teleop.Sec.Session
import Teleop.Sec.Network
import Teleop.Sec.Authentication
import Teleop.Sec.Exchange
import Teleop.Sec.SuiteAgreement
import Teleop.Sec.Nonces
import Teleop.Sec.SecureBlock
import Teleop.Sec.Link
import Teleop.Sec.PathAgreement
import Teleop.Sec.Origin
import Teleop.Lib.Walk
import Teleop.Lib.Blocks
import Teleop.Sec.Rbac
import Teleop.Sec.Wire
import Teleop.Cloud.Unit
import Teleop.Cloud.Fleet
import Teleop.Cloud.CommandStream
import Teleop.Cloud.Json
import Teleop.Cloud.JsonDouble
import Teleop.Cloud.JsonDecimal
import Teleop.Cloud.JsonRoundTrip
import Teleop.Cloud.JsonExact
import Teleop.Cloud.UnitNumbers
import Teleop.Cloud.Addressing
import Teleop.Cloud.Http
import Teleop.Cloud.Auth
import Teleop.Cloud.Mcp
import Teleop.Cloud.Server
import Teleop.Cloud.RequestParser
import Teleop.Cloud.RequestText
import Teleop.Cloud.RequestTraps
import Teleop.Cloud.Connection
import Teleop.Cloud.Dispatch
import Teleop.Cloud.Gate
import Teleop.Cloud.Privilege
import Teleop.Cloud.Sessions
import Teleop.Cloud.Bearer
import Teleop.Cloud.Reply
import Teleop.Bridge.Lifecycle
import Teleop.Bridge.Session
import Teleop.Bridge.SessionTrace
import Teleop.Bridge.SessionLifecycle
import Teleop.Bridge.StopCommand
import Teleop.Bridge.ModeWalk
import Teleop.Analytics.FdrEntry
import Teleop.Analytics.RawFile
import Teleop.Analytics.DirectFile
import Teleop.Analytics.FdrWriter
import Teleop.Analytics.Recorder
import Teleop.Analytics.Shutdown
import Teleop.Analytics.Samples
import Teleop.Analytics.Replay
import Teleop.Analytics.Npy
import Teleop.Analytics.NpyFormat
import Teleop.Cloud.Recording
import Teleop.Cloud.Fanout
import Teleop.Hal.Mavlink
import Teleop.Hal.MavlinkWire
import Teleop.Hal.MavParser
import Teleop.Hal.MavChecksum
import Teleop.Hal.MavResync
import Teleop.Media.Encoder
import Teleop.Input.ControllerMap
import Teleop.Input.Pipeline
import Teleop.Input.Evdev
import Teleop.Input.Accumulation
import Teleop.Input.CoPilot
import Teleop.Ring.Layout
import Teleop.Core.Profile
import Teleop.Core.ProfileGrammar
import Teleop.Cli.Profile
import Teleop.Cli.Console
import Teleop.Sec.PolicyEdits
import Teleop.Link.CrcBitwise
import Teleop.Lib.FreeList
import Teleop.Link.Uring
import Teleop.Link.UringSlots
import Teleop.Hal.SimWorld
import Teleop.Hal.SimRotations
import Teleop.Hal.Can
import Teleop.Lib.Footprint
import Teleop.Media.BurnIn
import Teleop.Media.BurnInBoxes
import Teleop.Integration.Harness
import Teleop.Integration.Wiring
import Teleop.Integration.Flight
import Teleop.Lib.Smoothing
import Teleop.Hal.Motor
import Teleop.Hal.Euler
import Teleop.Hal.Drone
import Teleop.Integration.SimState
import Teleop.Integration.Sortie
import Teleop.Analytics.CrashRecovery
import Teleop.Safety.Latency
import Teleop.Cloud.Runtime
import Teleop.Cloud.Isolation
