import Mtcp.Wakeup
import Mtcp.Wheel
import Mtcp.EpollStale
import Mtcp.Readiness
import Mtcp.ListenerTable
import Mtcp.RssCore
import Mtcp.ReceiveStore
import Mtcp.Overlap
import Mtcp.AckOrder
import Mtcp.Leases
import Mtcp.TimerStates
import Mtcp.EndOfFile
import Mtcp.Lifetime
import Mtcp.RtoPositive
import Mtcp.DupAcks
import Mtcp.Overflow
import Mtcp.PeerWindow
import Mtcp.Flush
import Mtcp.AckRequests
import Mtcp.Timeouts
import Mtcp.OptionCodec
import Mtcp.IcmpEcho
import Mtcp.PoolPartition
import Mtcp.Arp
import Mtcp.Pipes
import Mtcp.MemoryPool
import Mtcp.EpollSelect
import Mtcp.LibosLimits
import Mtcp.SendBuffers
import Mtcp.HttpHeaders
import Mtcp.WholeRuns
