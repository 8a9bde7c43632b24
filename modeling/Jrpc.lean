import Jrpc.Runs
import Jrpc.Heap
import Jrpc.Chain
import Jrpc.Channel
import Jrpc.Outbox
import Jrpc.UnorderedMap
import Jrpc.Room
import Jrpc.Json
import Jrpc.JsonStore
import Jrpc.Cycles
import Jrpc.Message
import Jrpc.Queue
import Jrpc.Queues
import Jrpc.Connection
import Jrpc.Mailbox
import Jrpc.Build
import Jrpc.References
import Jrpc.Objects
import Jrpc.Release
import Jrpc.Protocol
import Jrpc.Receive
import Jrpc.Service
import Jrpc.Server
import Jrpc.UserCode
import Jrpc.Handlers
import Jrpc.Refinement
import Jrpc.Callbacks
import Jrpc.Delivery
import Jrpc.Disposal
import Jrpc.Calls
import Jrpc.Noise
import Jrpc.Frames
import Jrpc.Ids
import Jrpc.Layout
import Jrpc.Serialise
import Jrpc.Answers
import Jrpc.WriteFailure
import Jrpc.RoundTrip
import Jrpc.Balance
import Jrpc.Memory
import Jrpc.Threads
import Jrpc.Deadlock
import Jrpc.Settings
import Jrpc.Together
import Jrpc.Values
import Jrpc.Statements
import Jrpc.ChatServer
import Jrpc.Chatters
import Jrpc.ChatRuns
import Jrpc.ChatRoom
import Jrpc.Conversations
import Jrpc.ChatProgram
import Jrpc.ChatPage
import Jrpc.PageRuns
import Jrpc.Windows
import Jrpc.Reconnects
import Jrpc.Network
import Jrpc.OneLog
import Jrpc.Arrivals
import Jrpc.Authors
import Jrpc.CatchUp
