import SystemFunc.Lib.Steps
import SystemFunc.Lib.Progress
import SystemFunc.Lib.Children
import SystemFunc.Lib.Machine
import SystemFunc.Lib.RingBuf
import SystemFunc.Lib.BoundedFifo
import SystemFunc.Lib.Crowd
import SystemFunc.Lib.CondVar
import SystemFunc.Lib.Slots
import SystemFunc.Lib.LinkedList
import SystemFunc.Lib.Buffer
import SystemFunc.Lib.Lines
import SystemFunc.Lib.Walk
import SystemFunc.Lib.LexicalPath
import SystemFunc.Lib.LittleEndian
import SystemFunc.Lib.Merge
import SystemFunc.CLang
import SystemFunc.Queue.Defs
import SystemFunc.Queue.Refine
import SystemFunc.ThreadPool.Defs
import SystemFunc.ThreadPool.System
import SystemFunc.ThreadPool.Moves
import SystemFunc.ThreadPool.Account
import SystemFunc.ThreadPool.Tasks
import SystemFunc.ThreadPool.Wakeup
import SystemFunc.ThreadPool.Shrink
import SystemFunc.ThreadPool.Shutdown
import SystemFunc.ThreadPool.Settle
import SystemFunc.ThreadPool.Sizes
import SystemFunc.SemMutex.Defs
import SystemFunc.SemMutex.Exclusion
import SystemFunc.SemMutex.Release
import SystemFunc.ShmQueue.Defs
import SystemFunc.ShmQueue.Buffer
import SystemFunc.ShmQueue.Startup
import SystemFunc.SemList.Defs
import SystemFunc.SemList.Undisturbed
import SystemFunc.CondList.Defs
import SystemFunc.CondList.Conserve
import SystemFunc.Reactor.Defs
import SystemFunc.Reactor.Table
import SystemFunc.Reactor.Moves
import SystemFunc.Reactor.Sound
import SystemFunc.Reactor.Life
import SystemFunc.Reactor.Echo
import SystemFunc.Reactor.Edge
import SystemFunc.Reactor.Burst
import SystemFunc.Wrap.Defs
import SystemFunc.Wrap.Calls
import SystemFunc.Wrap.Line
import SystemFunc.Framed.Defs
import SystemFunc.Framed.Decode
import SystemFunc.Framed.Session
import SystemFunc.Framed.Serving
import SystemFunc.Framed.Replies
import SystemFunc.Framed.Waiting
import SystemFunc.CString
import SystemFunc.LineServer.Reading
import SystemFunc.LineServer.Echo
import SystemFunc.LineServer.Command
import SystemFunc.Url.Codec
import SystemFunc.Url.Decode
import SystemFunc.Url.RoundTrip
import SystemFunc.Url.Terminator
import SystemFunc.Url.Complete
import SystemFunc.Http.Request
import SystemFunc.Http.Serve
import SystemFunc.Http.Segments
import SystemFunc.Http.Confine
import SystemFunc.Http.Links
import SystemFunc.Http.Bounds
import SystemFunc.Http.Parent
import SystemFunc.Select.Defs
import SystemFunc.Select.Table
import SystemFunc.Select.Dispatch
import SystemFunc.Select.Limit
import SystemFunc.Aio.Defs
import SystemFunc.Aio.Account
import SystemFunc.Mailbox.Defs
import SystemFunc.Mailbox.Delivery
import SystemFunc.Coroutine.Range
import SystemFunc.Cat.Copy
import SystemFunc.Poll.Defs
import SystemFunc.Poll.Table
import SystemFunc.Poll.Room
import SystemFunc.Poll.Stale
import SystemFunc.Barrier.Merge
import SystemFunc.Barrier.Threads
import SystemFunc.Barrier.Parts
import SystemFunc.Barrier.Runs
import SystemFunc.DeadBlock.Solve
import SystemFunc.Ls.Defs
import SystemFunc.Ls.Visit
import SystemFunc.Fork.Reap
import SystemFunc.Lib.Entries
import SystemFunc.Multiprocess.Server
import SystemFunc.ThreadPool.Terminate
import SystemFunc.Epoll.Normal
import SystemFunc.Epoll.Table
import SystemFunc.Epoll.Echo
import SystemFunc.StrCli.Pair
import SystemFunc.StrCli.Linked
import SystemFunc.Lib.Readiness
import SystemFunc.Trigger.Defs
import SystemFunc.Trigger.Echo
import SystemFunc.Trigger.Reader
import SystemFunc.Lib.Components
import SystemFunc.Multithread.Server
import SystemFunc.Multithread.Owners
import SystemFunc.Multithread.Serving
import SystemFunc.Lib.KeyedFifo
import SystemFunc.MsgQueue.Defs
import SystemFunc.MsgQueue.Routing
import SystemFunc.MsgQueue.Input
import SystemFunc.Lib.DirTree
import SystemFunc.Http.Anchors
import SystemFunc.Http.Site
import SystemFunc.Http.Fetch
import SystemFunc.Daemon.Singleton
import SystemFunc.Daemon.Daemonize
import SystemFunc.Daemon.Session
import SystemFunc.Pipeline.Defs
import SystemFunc.Pipeline.Ends
import SystemFunc.Pipeline.Processes
import SystemFunc.Pipeline.Delivers
import SystemFunc.SendFd.Defs
import SystemFunc.SendFd.Passing
