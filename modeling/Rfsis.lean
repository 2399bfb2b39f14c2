import Rfsis.Failover.Ownership
import Rfsis.Failover.Pair
import Rfsis.Echo.Isolation
import Rfsis.Sync.Delivery
import Rfsis.Echo.Connection
import Rfsis.Echo.CallEffect
import Rfsis.Echo.HalfClose
import Rfsis.Echo.Progress
import Rfsis.Echo.Datagram
import Rfsis.Echo.Trigger
import Rfsis.Accumulator
import Rfsis.Node.Heartbeat
import Rfsis.Sync.Addresses
import Rfsis.BinaryHeap
import Rfsis.Pico.Timers
import Rfsis.Pico.TimerRuns
import Rfsis.Pico.TimerChecks
import Rfsis.SearchTree
import Rfsis.Pico.Tree
import Rfsis.Pico.TreeBalance
import Rfsis.Pico.TcpQueue
import Rfsis.Pico.TcpInput
import Rfsis.Pico.TcpReceive
import Rfsis.Pico.TcpStream
import Rfsis.Pico.TcpFin
