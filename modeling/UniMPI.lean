import UniMPI.NonblockingCollectives
import UniMPI.RequestSlots
import UniMPI.Core
import UniMPI.Lifecycle
import UniMPI.Dispatch
import UniMPI.RefCount
import UniMPI.InitPaths
import UniMPI.Dangling
import UniMPI.CleanFailure
import UniMPI.History
import UniMPI.StatusRecords
import UniMPI.BoundSlots
import UniMPI.Provenance
import UniMPI.StandardAbi
import UniMPI.Identity
import UniMPI.LifecycleOrder
import UniMPI.RequestedBackend
import UniMPI.ToolsLifecycle
import UniMPI.Topology
import UniMPI.NeighborAlltoallv
import UniMPI.Lib.AccessLog
import UniMPI.Accesses
import UniMPI.ArraySimulation
import UniMPI.StatusAccesses
import UniMPI.PreservedArrays
import UniMPI.SignificantArguments
import UniMPI.ErrorClass
import UniMPI.GraphDegree
import UniMPI.Lib.Conditionals
import UniMPI.Lib.LinePattern
import UniMPI.Lib.SourceText
import UniMPI.GuardChecker
import UniMPI.Lib.MachineInt
import UniMPI.StatusOffsets
import UniMPI.AlwaysPresent
import UniMPI.ToolsTransparency
import UniMPI.RequestTransparency
import UniMPI.StandardNames
import UniMPI.StatusLayout
import UniMPI.ErrorStrings
import UniMPI.Lib.Assignments
import UniMPI.Lib.Numeral
import UniMPI.SurfaceChecks
import UniMPI.TableFormat
import UniMPI.Lib.Inclusion
import UniMPI.VersionGating
import UniMPI.Sharing
import UniMPI.Diagnostics
import UniMPI.Programs
import UniMPI.Portability
