import LuaPosix.Base.Backends
import LuaPosix.Base.Bitwise
import LuaPosix.Base.Mode
import LuaPosix.Compat.BackendsAgree
import LuaPosix.Compat.Calls
import LuaPosix.Compat.ChmodBits
import LuaPosix.Compat.ClauseBits
import LuaPosix.Compat.LowWord
import LuaPosix.Compat.ModeAccepted
import LuaPosix.Compat.ModeDocumented
import LuaPosix.Compat.ModeIdempotent
import LuaPosix.Compat.ModeMatch
import LuaPosix.Compat.ModeMeaning
import LuaPosix.Compat.ModeMunch
import LuaPosix.Compat.ModePrinted
import LuaPosix.Compat.ModeString
import LuaPosix.Compat.Umask
import LuaPosix.Lib.BoundedStack
import LuaPosix.Lib.Bytes
import LuaPosix.Lib.FirstMatch
import LuaPosix.Lib.Forking
import LuaPosix.Lib.LuaPattern
import LuaPosix.Lib.LuaPatternMatching
import LuaPosix.Lib.LuaSubstitution
import LuaPosix.Lib.Machine
import LuaPosix.Lib.MaskEdit
import LuaPosix.Lib.Pool
import LuaPosix.Lib.Simulation
import LuaPosix.Lib.Traversal
import LuaPosix.Lib.WhileLoop
import LuaPosix.Lua.Binding
import LuaPosix.Lua.Expressions
import LuaPosix.Lua.Fields
import LuaPosix.Lua.Frame
import LuaPosix.Lua.Heap
import LuaPosix.Lua.Number
import LuaPosix.Lua.Results
import LuaPosix.Lua.Sequence
import LuaPosix.Lua.Value
import LuaPosix.Posix.Accounts
import LuaPosix.Posix.ArgvSlots
import LuaPosix.Posix.Attributes
import LuaPosix.Posix.ChildExec
import LuaPosix.Posix.ChildSetup
import LuaPosix.Posix.Control
import LuaPosix.Posix.Dirent
import LuaPosix.Posix.Environment
import LuaPosix.Posix.ErrnoHistory
import LuaPosix.Posix.Euidaccess
import LuaPosix.Posix.ExactResults
import LuaPosix.Posix.Exec
import LuaPosix.Posix.Fcntl
import LuaPosix.Posix.FieldNames
import LuaPosix.Posix.Files
import LuaPosix.Posix.Getopt
import LuaPosix.Posix.IntegerFields
import LuaPosix.Posix.Interrupted
import LuaPosix.Posix.Leaks
import LuaPosix.Posix.LegacyCalls
import LuaPosix.Posix.LegacyExec
import LuaPosix.Posix.LegacyFailures
import LuaPosix.Posix.LegacyLimits
import LuaPosix.Posix.LegacyTime
import LuaPosix.Posix.LocalTime
import LuaPosix.Posix.LogMask
import LuaPosix.Posix.MessageBuffers
import LuaPosix.Posix.MessageQueue
import LuaPosix.Posix.Messages
import LuaPosix.Posix.Namespace
import LuaPosix.Posix.Narrowing
import LuaPosix.Posix.Openpty
import LuaPosix.Posix.Owner
import LuaPosix.Posix.Pathconf
import LuaPosix.Posix.Pclose
import LuaPosix.Posix.PipeEnds
import LuaPosix.Posix.Pipeline
import LuaPosix.Posix.Poll
import LuaPosix.Posix.PollLoop
import LuaPosix.Posix.PollReports
import LuaPosix.Posix.Popen
import LuaPosix.Posix.PopenRuns
import LuaPosix.Posix.Preloading
import LuaPosix.Posix.Process
import LuaPosix.Posix.Reading
import LuaPosix.Posix.Resource
import LuaPosix.Posix.Restoring
import LuaPosix.Posix.Rounds
import LuaPosix.Posix.Rpoll
import LuaPosix.Posix.Selection
import LuaPosix.Posix.Setenv
import LuaPosix.Posix.Sockaddr
import LuaPosix.Posix.SockaddrExact
import LuaPosix.Posix.SockaddrTrip
import LuaPosix.Posix.Sockets
import LuaPosix.Posix.Sockopt
import LuaPosix.Posix.Stages
import LuaPosix.Posix.StaleBytes
import LuaPosix.Posix.Stream
import LuaPosix.Posix.Strftime
import LuaPosix.Posix.Syslog
import LuaPosix.Posix.Termio
import LuaPosix.Posix.Time
import LuaPosix.Posix.Timeval
import LuaPosix.Posix.TimevalSums
import LuaPosix.Posix.Transfers
import LuaPosix.Posix.Uname
import LuaPosix.Posix.Wait
import LuaPosix.Posix.Wiring
import LuaPosix.Posix.WriteRange
import LuaPosix.Signal.Atomic
import LuaPosix.Signal.Deferral
import LuaPosix.Signal.Foreign
import LuaPosix.Signal.Handle
import LuaPosix.Signal.Isolation
import LuaPosix.Signal.Machine
import LuaPosix.Signal.Order
import LuaPosix.Signal.Previous
import LuaPosix.Signal.Psignal
import LuaPosix.Signal.Queue
import LuaPosix.Signal.Registered
