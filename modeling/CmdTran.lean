import CmdTran.Workers.Theorems
import CmdTran.Overlap.Theorems
import CmdTran.Handover.Theorems
import CmdTran.Wakeup.Theorems
import CmdTran.Relay.Theorems
import CmdTran.Relay.Tasks
import CmdTran.Queue.Interleaving
import CmdTran.Queue.Failures
import CmdTran.Queue.Size
import CmdTran.Pool.Misuse
import CmdTran.Pool.Limit
import CmdTran.Stream.Theorems
import CmdTran.MemChain.SendLoop
import CmdTran.BlockList.Theorems
import CmdTran.Routing.History
import CmdTran.Routing.Senders
import CmdTran.Interest.Theorems
import CmdTran.Release.Theorems
import CmdTran.Flow.Theorems
import CmdTran.Flow.Dropped
import CmdTran.Parser.Accepts
import CmdTran.Listen.Theorems
import CmdTran.Dispatch.Theorems
import CmdTran.Dispatch.Startup
import CmdTran.Shutdown.Theorems
import CmdTran.Shutdown.Selection
import CmdTran.Parser.Resync
import CmdTran.Workers.Blocks
import CmdTran.Signals.Theorems
import CmdTran.Custody.Theorems
import CmdTran.Locks.Theorems
import CmdTran.Queue.Linear
import CmdTran.Pool.Destroy
import CmdTran.MemChain.Destroy
import CmdTran.Relay.Received
