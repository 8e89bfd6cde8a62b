import Dbdky.Transition.Machine
import Dbdky.Port.EventLoop
import Dbdky.Port.EventLoopWakeup
import Dbdky.Port.EventLoopFunctors
import Dbdky.Port.EventLoopThread
import Dbdky.Utils.AsyncLogging
import Dbdky.Utils.AsyncLoggingBuffers
import Dbdky.Utils.AsyncLoggingBatches
import Dbdky.Utils.AsyncLoggingStop
import Dbdky.Memory.Block
import Dbdky.Port.Buffer
import Dbdky.Port.BufferFifo
import Dbdky.Ordered.OrderedSet
import Dbdky.Port.TimerQueue
import Dbdky.Port.TimerLifecycle
import Dbdky.Port.TimerCancel
import Dbdky.Port.TimerWakeup
import Dbdky.BussinessLogic.ComEntity
import Dbdky.BussinessLogic.ComEntityOutput
import Dbdky.Port.Channel
import Dbdky.Port.Poller
import Dbdky.Slots.SlotArray
import Dbdky.Port.EPollPoller
import Dbdky.Port.PollPoller
import Dbdky.Port.PollerEquivalence
import Dbdky.BussinessLogic.ComServer
import Dbdky.BussinessLogic.ComServerChannels
import Dbdky.CInt.Calc
import Dbdky.Gregorian.Calendar
import Dbdky.Utils.Date
import Dbdky.Utils.DateNumbering
import Dbdky.Coding.PrefixCode
import Dbdky.Memory.ByteOrder
import Dbdky.BussinessLogic.RS485Codec
import Dbdky.Ordered.LowerBound
import Dbdky.Utils.TimeZone
import Dbdky.Utils.TimeZoneFile
import Dbdky.Clock.Offsets
import Dbdky.Utils.TimeZoneLocal
import Dbdky.BussinessLogic.ConfigMgr
import Dbdky.Utils.LogFile
import Dbdky.Utils.LogFileRolling
import Dbdky.Sync.Waiters
import Dbdky.Utils.ThreadPool
import Dbdky.Utils.ThreadPoolStop
import Dbdky.Sync.Monitor
import Dbdky.Utils.BoundedBlockingQueue
import Dbdky.Port.TimerExpiry
import Dbdky.Port.EPollPollerRegistration
import Dbdky.Port.PollPollerSlots
import Dbdky.Port.PollPollerReadiness
import Dbdky.Utils.LogFileWrites
import Dbdky.BussinessLogic.ConfigMgrLoops
import Dbdky.Memory.Search
import Dbdky.Port.BufferSearch
import Dbdky.Port.BufferShrink
import Dbdky.Port.BufferCalls
import Dbdky.Port.BufferTape
import Dbdky.Gregorian.Succession
import Dbdky.Utils.DateOrder
import Dbdky.Utils.TimeZoneUtc
import Dbdky.Coding.Numeral
import Dbdky.Utils.LogStreamFormat
import Dbdky.Utils.LogStream
import Dbdky.Utils.Logging
import Dbdky.Utils.LoggingRecords
import Dbdky.BussinessLogic.ComServerRegistry
import Dbdky.BussinessLogic.LoopThread
import Dbdky.Ordered.Lexicographic
import Dbdky.Utils.StringPiece
import Dbdky.Utils.LogFileDays
import Dbdky.BussinessLogic.ComUtilWrite
import Dbdky.Utils.FileUtil
import Dbdky.BussinessLogic.ComUtilPorts
import Dbdky.Port.TimerSets
import Dbdky.Utils.Mutex
import Dbdky.Utils.ThreadPoolMutex
import Dbdky.Utils.CountDownLatch
import Dbdky.Utils.BlockingQueue
import Dbdky.Coding.FixedWidth
import Dbdky.Utils.Timestamp
import Dbdky.Utils.DateIsoString
import Dbdky.Utils.LogFileDirectory
import Dbdky.Utils.AsyncLoggingFiles
import Dbdky.Port.EPollPollerStarvation
import Dbdky.BussinessLogic.ComServerBalance
import Dbdky.BussinessLogic.ConfigMgrUpdate
import Dbdky.Utils.Thread
import Dbdky.BussinessLogic.ComEntityInput
import Dbdky.Port.TimerDestruction
import Dbdky.Port.TimerRounds
import Dbdky.Port.EventLoopThreadStart
import Dbdky.Utils.LogFileFlush
import Dbdky.Utils.ThreadPoolEnd
