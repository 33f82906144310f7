import RosidlBufferBackends.Lib.Runs
import RosidlBufferBackends.Lib.OrderedMap
import RosidlBufferBackends.Lib.Ledger
import RosidlBufferBackends.Cuda.SharedState
import RosidlBufferBackends.Cuda.MemoryPool
import RosidlBufferBackends.Cuda.PoolPartition
import RosidlBufferBackends.Cuda.PoolGrowth
import RosidlBufferBackends.Cuda.PoolLifetime
import RosidlBufferBackends.Cuda.IpcManager
import RosidlBufferBackends.Cuda.ImportOutcome
import RosidlBufferBackends.Cuda.Descriptor
import RosidlBufferBackends.Cuda.Naming
import RosidlBufferBackends.Lib.Generations
import RosidlBufferBackends.Cuda.Exchange
import RosidlBufferBackends.Cuda.Wiring
import RosidlBufferBackends.Cuda.Staleness
import RosidlBufferBackends.Cuda.ImportCount
import RosidlBufferBackends.Cuda.GraceWindow
import RosidlBufferBackends.Cuda.Offers
import RosidlBufferBackends.Cuda.CountedImports
import RosidlBufferBackends.Cuda.RoundTrip
import RosidlBufferBackends.Cuda.Interleaving
import RosidlBufferBackends.Cuda.RecyclingWindow
import RosidlBufferBackends.Registry.EndpointRegistry
import RosidlBufferBackends.Registry.Host
import RosidlBufferBackends.Registry.HostSteps
import RosidlBufferBackends.Registry.Attachment
import RosidlBufferBackends.Registry.Exclusion
import RosidlBufferBackends.Registry.Visibility
import RosidlBufferBackends.Registry.Lookup
import RosidlBufferBackends.Buffers.CudaBuffer
import RosidlBufferBackends.Lib.Inventory
import RosidlBufferBackends.Buffers.Calls
import RosidlBufferBackends.Buffers.Custody
import RosidlBufferBackends.Buffers.DeferredRelease
import RosidlBufferBackends.Buffers.WriteOrder
import RosidlBufferBackends.Buffers.ExclusiveWrite
import RosidlBufferBackends.Buffers.Lineage
import RosidlBufferBackends.Cuda.Coherence
import RosidlBufferBackends.Cuda.CurrentImports
import RosidlBufferBackends.Dispatcher.Advertised
import RosidlBufferBackends.Dispatcher.ServedIdentity
import RosidlBufferBackends.Lib.Window
import RosidlBufferBackends.Plugin.Agreement
import RosidlBufferBackends.Plugin.Delivery
import RosidlBufferBackends.Plugin.DeliverySteps
import RosidlBufferBackends.Qc.FdBroker
import RosidlBufferBackends.Registry.Homes
import RosidlBufferBackends.Registry.Representation
import RosidlBufferBackends.Registry.SegmentLock
import RosidlBufferBackends.Lib.Checked
import RosidlBufferBackends.Lib.RowMajor
import RosidlBufferBackends.Plugin.Publications
import RosidlBufferBackends.Plugin.Publishing
import RosidlBufferBackends.Torch.Allocation
import RosidlBufferBackends.Torch.AllocationAgreement
import RosidlBufferBackends.Torch.OwnStorage
import RosidlBufferBackends.Torch.RoundTrips
import RosidlBufferBackends.Lib.Holdings
import RosidlBufferBackends.Qc.Import
import RosidlBufferBackends.Qc.Sharing.Broker
import RosidlBufferBackends.Qc.Sharing.Delivery
import RosidlBufferBackends.Qc.Sharing.Lifetime
import RosidlBufferBackends.Buffers.Effects
import RosidlBufferBackends.Buffers.Finalisation
import RosidlBufferBackends.Cuda.Capacity
import RosidlBufferBackends.Cuda.Exposure
import RosidlBufferBackends.Cuda.ResizeAccess
import RosidlBufferBackends.Cuda.ResizeEffects
import RosidlBufferBackends.Cuda.ResizeOutcome
import RosidlBufferBackends.Plugin.AttachResources
import RosidlBufferBackends.Plugin.RemoteReads
import RosidlBufferBackends.Qc.Capacity
import RosidlBufferBackends.Qc.Exposure
import RosidlBufferBackends.Qc.Retention
import RosidlBufferBackends.Qc.Shutdown.Handlers
import RosidlBufferBackends.Qc.Shutdown.Safety
import RosidlBufferBackends.Registry.Refresh
import RosidlBufferBackends.Torch.PythonAtomicity
import RosidlBufferBackends.Torch.PythonLoading
import RosidlBufferBackends.Dispatcher.Shutdown
import RosidlBufferBackends.Torch.SameSelection
import RosidlBufferBackends.Buffers.CallsReturn
import RosidlBufferBackends.Buffers.Contents
import RosidlBufferBackends.Buffers.HostCopies
