import Mtl.Foundation.Simulation
import Mtl.Io.MessageBounds
import Mtl.Io.WatchHandles
import Mtl.Socket.BlockingDrain
import Mtl.Socket.BlockingWrite
import Mtl.Socket.CopyFromFile
import Mtl.Socket.CopyLifetime
import Mtl.Socket.CopyToFile
import Mtl.Socket.CopyWaits
import Mtl.Socket.DrainStreams
import Mtl.Socket.DrainerShutdown
import Mtl.Socket.Drains
import Mtl.Socket.OneWatcher
import Mtl.Socket.Pipelines
import Mtl.Socket.Transfer
import Mtl.Tasks.AtomicSections
import Mtl.Tasks.Callables
import Mtl.Tasks.ErrorRemoval
import Mtl.Tasks.FDTeardown
import Mtl.Tasks.LoopShutdown
import Mtl.Tasks.PostQuit
import Mtl.Tasks.QueueLock
import Mtl.Tasks.QueueReferences
import Mtl.Tasks.QueueSections
import Mtl.Tasks.Registrations
import Mtl.Tasks.TargetTimes
import Mtl.Tasks.TaskHandover
import Mtl.Tasks.TaskOrder
import Mtl.Threading.Thread
import Mtl.Threading.ThreadEnd
import Mtl.Vfs.Connections
import Mtl.Vmo.Containers
import Mtl.Vmo.SharedVmo
import Mtl.Waiter.Timeouts
