import LibreDarwin.Common.Carriage
import LibreDarwin.Common.Fields
import LibreDarwin.Common.History
import LibreDarwin.Common.Keyed
import LibreDarwin.Common.Ledger
import LibreDarwin.Common.Machine
import LibreDarwin.Common.Multimap
import LibreDarwin.Common.Mutual
import LibreDarwin.Common.Replace
import LibreDarwin.Common.Script
import LibreDarwin.Common.Utf8
import LibreDarwin.Frontend.Answer
import LibreDarwin.Frontend.Asked
import LibreDarwin.Frontend.Batch
import LibreDarwin.Frontend.Cards
import LibreDarwin.Frontend.Config
import LibreDarwin.Frontend.Confirm
import LibreDarwin.Frontend.Departed
import LibreDarwin.Frontend.Dispatched
import LibreDarwin.Frontend.Events
import LibreDarwin.Frontend.Gates
import LibreDarwin.Frontend.Identity
import LibreDarwin.Frontend.Launched
import LibreDarwin.Frontend.Life
import LibreDarwin.Frontend.Model.Answer
import LibreDarwin.Frontend.Model.Authorizer
import LibreDarwin.Frontend.Model.Cards
import LibreDarwin.Frontend.Model.Config
import LibreDarwin.Frontend.Model.Frontend
import LibreDarwin.Frontend.Model.Handlers
import LibreDarwin.Frontend.Model.Identity
import LibreDarwin.Frontend.Model.Life
import LibreDarwin.Frontend.Model.Monitor
import LibreDarwin.Frontend.Model.Recovery
import LibreDarwin.Frontend.Model.Request
import LibreDarwin.Frontend.Model.Result
import LibreDarwin.Frontend.Model.State
import LibreDarwin.Frontend.Monitor
import LibreDarwin.Frontend.Owned
import LibreDarwin.Frontend.Peers
import LibreDarwin.Frontend.Phases
import LibreDarwin.Frontend.PowerHold
import LibreDarwin.Frontend.Recovery
import LibreDarwin.Frontend.Reply
import LibreDarwin.Frontend.Result
import LibreDarwin.Frontend.Shown
import LibreDarwin.Frontend.Stores
import LibreDarwin.Frontend.Turn
import LibreDarwin.Frontend.Waiting
import LibreDarwin.Host.Approved
import LibreDarwin.Host.Dialogs
import LibreDarwin.Host.Model.Host
import LibreDarwin.Instance.Lock
import LibreDarwin.Instance.Model.Lock
import LibreDarwin.Listener.Guard
import LibreDarwin.Listener.Model.Guard
import LibreDarwin.Listener.Model.Servers
import LibreDarwin.Listener.Servers
import LibreDarwin.Listener.Undisturbed
import LibreDarwin.Prompter.Client
import LibreDarwin.Prompter.Consent
import LibreDarwin.Prompter.Dismissal
import LibreDarwin.Prompter.Exchange
import LibreDarwin.Prompter.Grammar
import LibreDarwin.Prompter.Heard
import LibreDarwin.Prompter.Model.Client
import LibreDarwin.Prompter.Model.Confirm
import LibreDarwin.Prompter.Model.Consent
import LibreDarwin.Prompter.Model.Exchange
import LibreDarwin.Prompter.Model.Library
import LibreDarwin.Prompter.Model.Panel
import LibreDarwin.Prompter.Model.Protocol
import LibreDarwin.Prompter.Model.Reset
import LibreDarwin.Prompter.Model.Server
import LibreDarwin.Prompter.Model.System
import LibreDarwin.Prompter.Model.Window
import LibreDarwin.Prompter.Model.Words
import LibreDarwin.Prompter.Numbers
import LibreDarwin.Prompter.OkGate
import LibreDarwin.Prompter.Parsing
import LibreDarwin.Prompter.Reading
import LibreDarwin.Prompter.Reset
import LibreDarwin.Prompter.RoundTrip
import LibreDarwin.Prompter.Server
import LibreDarwin.Prompter.Shown
import LibreDarwin.Prompter.Typed
import LibreDarwin.Prompter.Window
import LibreDarwin.Transport.Backpressure
import LibreDarwin.Transport.Closing
import LibreDarwin.Transport.Delivery
import LibreDarwin.Transport.Handles
import LibreDarwin.Transport.Integrity
import LibreDarwin.Transport.LastPublished
import LibreDarwin.Transport.Mail
import LibreDarwin.Transport.Model.Connection
import LibreDarwin.Transport.Model.Frame
import LibreDarwin.Transport.Model.Loop
import LibreDarwin.Transport.Model.OperationChannel
import LibreDarwin.Transport.Model.Presence
import LibreDarwin.Transport.Model.Queue
import LibreDarwin.Transport.Model.Seams
import LibreDarwin.Transport.Model.Slot
import LibreDarwin.Transport.Model.State
import LibreDarwin.Transport.Outbound
import LibreDarwin.Transport.Presence
import LibreDarwin.Transport.Queue
import LibreDarwin.Transport.Replica
import LibreDarwin.Transport.Roster
import LibreDarwin.Transport.Routing
import LibreDarwin.Transport.Run
import LibreDarwin.Transport.Sink
import LibreDarwin.Transport.Slot
import LibreDarwin.Transport.Table
import LibreDarwin.Transport.Trace
import LibreDarwin.Wire.Model.AnonFd
import LibreDarwin.Wire.Model.Cbor
import LibreDarwin.Wire.Model.Codec
import LibreDarwin.Wire.Model.Messages
