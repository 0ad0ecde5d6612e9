import Oxmux.Agent.Commands
import Oxmux.Agent.ControlBytes
import Oxmux.Agent.ControlMode
import Oxmux.Agent.Framing
import Oxmux.Agent.Message
import Oxmux.Agent.Resize
import Oxmux.Agent.Trickle
import Oxmux.Agent.Value
import Oxmux.Agent.WindowTree
import Oxmux.Auth.Handler
import Oxmux.Auth.Jwt
import Oxmux.Auth.Registration
import Oxmux.Client.AllPanes
import Oxmux.Client.Cleanup
import Oxmux.Client.Decoding
import Oxmux.Client.Direct
import Oxmux.Client.Encoding
import Oxmux.Client.Events
import Oxmux.Client.Follow
import Oxmux.Client.Grace
import Oxmux.Client.Handlers
import Oxmux.Client.Keys
import Oxmux.Client.Logins
import Oxmux.Client.MashedView
import Oxmux.Client.P2PClose
import Oxmux.Client.P2PSession
import Oxmux.Client.PaneId
import Oxmux.Client.ReadLoop
import Oxmux.Client.Reattach
import Oxmux.Client.Reconnect
import Oxmux.Client.Registered
import Oxmux.Client.Routing
import Oxmux.Client.Sockets
import Oxmux.Client.Store
import Oxmux.Client.Supervision
import Oxmux.Client.Terminals
import Oxmux.Client.Upgrade
import Oxmux.Client.Writes
import Oxmux.Deploy.Cleanup
import Oxmux.Deploy.Concurrent
import Oxmux.Deploy.Deployer
import Oxmux.Lib.AnyOrder
import Oxmux.Lib.Broadcast
import Oxmux.Lib.Checked
import Oxmux.Lib.Erasure
import Oxmux.Lib.Filling
import Oxmux.Lib.Frames
import Oxmux.Lib.Grouping
import Oxmux.Lib.Hex
import Oxmux.Lib.Lines
import Oxmux.Lib.Ordered
import Oxmux.Lib.Pipe
import Oxmux.Lib.Records
import Oxmux.Lib.Runs
import Oxmux.Lib.Shell
import Oxmux.Lib.Slices
import Oxmux.Lib.Split
import Oxmux.Lib.Steps
import Oxmux.Lib.Table
import Oxmux.Lib.Text
import Oxmux.Lib.Threads
import Oxmux.Lib.Utf8
import Oxmux.Session.Address
import Oxmux.Session.Atomicity
import Oxmux.Session.CallAlone
import Oxmux.Session.CallApart
import Oxmux.Session.CallCleanup
import Oxmux.Session.CallDelete
import Oxmux.Session.CallRoutes
import Oxmux.Session.Calls
import Oxmux.Session.Carried
import Oxmux.Session.ControlLine
import Oxmux.Session.Durable
import Oxmux.Session.EphemeralKeys
import Oxmux.Session.FailedConnect
import Oxmux.Session.JsonText
import Oxmux.Session.Listing
import Oxmux.Session.Loading
import Oxmux.Session.Manager
import Oxmux.Session.ManagerOps
import Oxmux.Session.Mirror
import Oxmux.Session.ReaderChunks
import Oxmux.Session.ReaderCuts
import Oxmux.Session.ReaderEnd
import Oxmux.Session.Report
import Oxmux.Session.Secrets
import Oxmux.Session.ShellLines
import Oxmux.Session.SshReader
import Oxmux.Session.Stored
import Oxmux.Session.Targets
import Oxmux.Session.Transport
import Oxmux.Session.TreeRoutes
import Oxmux.Session.Typed
import Oxmux.Session.Types
import Oxmux.Session.Visible
import Oxmux.System.Decoding
import Oxmux.System.Delivery
import Oxmux.System.Dialog
import Oxmux.System.Fallback
import Oxmux.System.Gateway
import Oxmux.System.Greeting
import Oxmux.System.InputIsolation
import Oxmux.System.KeyUploads
import Oxmux.System.Keystrokes
import Oxmux.System.Link
import Oxmux.System.LinkDelivery
import Oxmux.System.OutputIsolation
import Oxmux.System.Queues
import Oxmux.System.Relay
import Oxmux.System.Replica
import Oxmux.System.Silence
import Oxmux.System.Typing
import Oxmux.System.Upstream
import Oxmux.System.UserIsolation
import Oxmux.System.Wire
import Oxmux.Tmux.Control
import Oxmux.Tmux.ControlBlocks
import Oxmux.Tmux.ControlStream
import Oxmux.Tmux.Escape
import Oxmux.Tmux.Layout
import Oxmux.Tmux.LayoutPrint
import Oxmux.Tmux.LayoutSlices
import Oxmux.Tmux.Reference
import Oxmux.Ws.Decoding
import Oxmux.Ws.Encoding
import Oxmux.Ws.Protocol
import Oxmux.Ws.Registry
import Oxmux.Ws.Relay
import Oxmux.Ws.Resubscribe
import Oxmux.Ws.Secrecy
import Oxmux.Ws.Server
import Oxmux.Ws.SessionHandler
import Oxmux.Ws.WebTransport
