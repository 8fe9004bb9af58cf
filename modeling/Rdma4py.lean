import Rdma4py.Lib.Machine
import Rdma4py.Lib.Buckets
import Rdma4py.Lib.Bytes
import Rdma4py.Lib.CyclicIds
import Rdma4py.Lib.Dict
import Rdma4py.Lib.Enumerates
import Rdma4py.Lib.Memory
import Rdma4py.Lib.Tiling
import Rdma4py.Lib.TrueDiv
import Rdma4py.ReadScheduler.Theorems
import Rdma4py.ReadScheduler.AllOrNothing
import Rdma4py.ReadScheduler.BatchOutcome
import Rdma4py.ReadScheduler.Delivery
import Rdma4py.NvmeQueue.Theorems
import Rdma4py.NvmeQueue.ReleasedOnce
import Rdma4py.NvmeController.Theorems
import Rdma4py.NvmeController.Refinement
import Rdma4py.NvmeController.BringUp
import Rdma4py.Bindings.Theorems
import Rdma4py.Bindings.Lifetimes
import Rdma4py.GpuNetIO.Theorems
import Rdma4py.GpuNetIO.SharedPages
import Rdma4py.ProcessGroup.Theorems
import Rdma4py.ProcessGroup.RankAssignment
import Rdma4py.ProcessGroup.RoundTrip
import Rdma4py.ProcessGroup.Agreement
import Rdma4py.Transport.StaticTransfer
import Rdma4py.Transport.MixedModes
import Rdma4py.Transport.AnyPeer
import Rdma4py.Ring.Addresses
import Rdma4py.Ring.Theorems
import Rdma4py.Ring.Decomposition
import Rdma4py.Device.Theorems
import Rdma4py.Endpoint.Theorems
import Rdma4py.Efa.Theorems
