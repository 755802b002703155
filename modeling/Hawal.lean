import Hawal.Lib.Run
import Hawal.Lib.Table
import Hawal.Lib.Python
import Hawal.Lib.Json
import Hawal.Lib.Decimal
import Hawal.Lib.Words
import Hawal.Lib.Dict
import Hawal.Lib.JsonText
import Hawal.Lib.JsonDump
import Hawal.Lib.JsonDepth
import Hawal.Lib.Sqlite
import Hawal.Lib.Counter
import Hawal.Lib.Tally
import Hawal.Lib.Chunks
import Hawal.Lib.Path
import Hawal.Panel.Database
import Hawal.Panel.Routes
import Hawal.Panel.Effects
import Hawal.Panel.Engines
import Hawal.Panel.Sync
import Hawal.Panel.CorePorts
import Hawal.Panel.References
import Hawal.Panel.Traffic
import Hawal.Panel.PortRules
import Hawal.Panel.Malformed
import Hawal.Panel.Settings
import Hawal.Panel.Static
import Hawal.Panel.Isolation
import Hawal.Agent.Daemon
import Hawal.Agent.Items
import Hawal.Agent.Reconcile
import Hawal.Agent.Firewall
import Hawal.Agent.Accounting
import Hawal.Agent.RestartNonce
import Hawal.Agent.Ports
import Hawal.Agent.Turns
import Hawal.Agent.Blocking
import Hawal.Lib.Bytes
import Hawal.Lib.Framing
import Hawal.Lib.Chan
import Hawal.Transport.Crypto
import Hawal.Transport.Frame
import Hawal.Transport.Codec
import Hawal.Transport.Output
import Hawal.Transport.Header
import Hawal.Transport.Stealth
import Hawal.Mux.Stream
import Hawal.Mux.Session
import Hawal.Mux.Table
import Hawal.Mux.Closing
import Hawal.Mux.Dispatch
import Hawal.Mux.Sending
import Hawal.Mux.Announce
import Hawal.Mux.Written
import Hawal.Mux.Pair
import Hawal.Mux.Wire
import Hawal.Mux.Delivery
import Hawal.Mux.EndOfStream
import Hawal.Mux.CircularWait
import Hawal.Mux.Moves
import Hawal.Mux.Steady
import Hawal.Mux.Conservation
import Hawal.Mux.Identity
import Hawal.Mux.Teardown
import Hawal.Mux.DeadWrite
import Hawal.Mux.CloseOnce
import Hawal.Mux.WriteContract
import Hawal.Forward.Pipe
import Hawal.Forward.HalfClose
import Hawal.Forward.Listeners
import Hawal.Adversary.World
import Hawal.Adversary.Handshake
import Hawal.Adversary.Replay
import Hawal.Forward.DialTargets
import Hawal.Agent.RawCounter
import Hawal.Panel.WsFrames
import Hawal.Panel.WsReading
import Hawal.Panel.EditForm
import Hawal.Panel.BackhaulToml
import Hawal.Panel.Installer
import Hawal.Lib.Surrogates
import Hawal.Lib.JsonAscii
import Hawal.Panel.Rows
import Hawal.Panel.Received
import Hawal.Panel.Answer
import Hawal.Panel.Broadcast
import Hawal.Panel.GeoIp
import Hawal.Agent.Reading
import Hawal.Agent.Launches
import Hawal.Fleet.Wire
import Hawal.Fleet.Contents
import Hawal.Fleet.Converge
import Hawal.Core.Config
import Hawal.Fleet.Cores
import Hawal.Fleet.Restarts
import Hawal.Fleet.Http
import Hawal.Fleet.Logs
import Hawal.Fleet.Traffic
