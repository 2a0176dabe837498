import LiteChat.Effect.Prog
import LiteChat.Effect.Rows
import LiteChat.Effect.Runs
import LiteChat.Effect.Journal
import LiteChat.Effect.Pieces
import LiteChat.Effect.Interleave
import LiteChat.Effect.Monitor
import LiteChat.Effect.Signals
import LiteChat.Effect.Search
import LiteChat.Effect.Ties
import LiteChat.Effect.Utf8
import LiteChat.Effect.Throwing
import LiteChat.Effect.Loops
import LiteChat.Effect.Codes
import LiteChat.Effect.Splices
import LiteChat.Model.Json
import LiteChat.Model.Database
import LiteChat.Model.Sessions
import LiteChat.Model.World
import LiteChat.Model.Process
import LiteChat.Model.Dao
import LiteChat.Model.UserManager
import LiteChat.Model.FriendManager
import LiteChat.Model.MessageManager
import LiteChat.Model.Server
import LiteChat.Model.ExceptionHandler
import LiteChat.Model.DBManager
import LiteChat.Model.ThreadPool
import LiteChat.Model.AcceptLoop
import LiteChat.Model.Wire
import LiteChat.Model.Chars
import LiteChat.Model.SendData
import LiteChat.Model.ServerLogger
import LiteChat.Model.FastWriter
import LiteChat.Spec.Logins
import LiteChat.Proof.Sessions
import LiteChat.Proof.Users
import LiteChat.Proof.Frame
import LiteChat.Proof.Messages
import LiteChat.Proof.Requests
import LiteChat.Proof.Events
import LiteChat.Proof.Authentication
import LiteChat.Proof.Routing
import LiteChat.Proof.Identity
import LiteChat.Proof.Presence
import LiteChat.Proof.OneSession
import LiteChat.Proof.Friends
import LiteChat.Proof.Delivery
import LiteChat.Proof.Framing
import LiteChat.Proof.Sending
import LiteChat.Proof.Threads
import LiteChat.Proof.OneWinner
import LiteChat.Proof.NewerLogin
import LiteChat.Proof.Calls
import LiteChat.Proof.Journal
import LiteChat.Proof.Bodies
import LiteChat.Proof.Refusals
import LiteChat.Proof.Success
import LiteChat.Proof.Answers
import LiteChat.Proof.Conservation
import LiteChat.Proof.Exits
import LiteChat.Proof.Counter
import LiteChat.Proof.Reuse
import LiteChat.Proof.Receiver
import LiteChat.Proof.Handover
import LiteChat.Proof.ExactlyOnce
import LiteChat.Proof.FriendLists
import LiteChat.Proof.FriendRows
import LiteChat.Proof.Names
import LiteChat.Proof.Cache
import LiteChat.Proof.DBManager
import LiteChat.Proof.ConnectionPool
import LiteChat.Proof.Reconnection
import LiteChat.Proof.ThreadPool
import LiteChat.Proof.TaskCalls
import LiteChat.Proof.Shutdown
import LiteChat.Proof.AcceptLoop
import LiteChat.Proof.Hands
import LiteChat.Proof.Harm
import LiteChat.Proof.Failures
import LiteChat.Proof.OfflinePush
import LiteChat.Proof.MessageOrder
import LiteChat.Proof.UpdateUser
import LiteChat.Proof.LoginChecks
import LiteChat.Proof.Kicks
import LiteChat.Proof.FrameLength
import LiteChat.Proof.FrameLimit
import LiteChat.Proof.LogFilter
import LiteChat.Proof.LogFiles
import LiteChat.Proof.Layouts
import LiteChat.Proof.StatusQueries
import LiteChat.Proof.History
import LiteChat.Proof.Heartbeat
import LiteChat.Proof.Attempts
import LiteChat.Proof.Exceptions
import LiteChat.Proof.Summaries
import LiteChat.Proof.UniqueFrames
import LiteChat.Proof.SendData
import LiteChat.Proof.LogSplices
import LiteChat.Effect.Obeys
import LiteChat.Effect.Simulates
import LiteChat.Proof.Clients
import LiteChat.Proof.Ordinary
import LiteChat.Proof.Accounts
import LiteChat.Proof.Impersonation
import LiteChat.Proof.Digests
import LiteChat.Model.Lifecycle
import LiteChat.Proof.Provenance
import LiteChat.Proof.AnswerOrder
import LiteChat.Proof.Resources
import LiteChat.Proof.Stopping
import LiteChat.Model.ServerMonitor
import LiteChat.Proof.ServerMonitor
import LiteChat.Proof.Contacts
import LiteChat.Proof.Listening
import LiteChat.Proof.LogRetention
