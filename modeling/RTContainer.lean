import RTContainer.Rtems.IpcIdentifiers
import RTContainer.Score.ContainerPause
import RTContainer.Score.IoShares
import RTContainer.Score.IoThrottle
import RTContainer.Score.ContainerVisit
import RTContainer.Score.ContainerDelete
import RTContainer.Score.DispatchConsistency
import RTContainer.Score.WatchdogTickle
import RTContainer.Score.CgroupReuse
import RTContainer.Score.SchedulerPriorityProperties
import RTContainer.Score.DeadlockDetection
import RTContainer.Score.PriorityInheritance
import RTContainer.Rtems.CreateRuns
import RTContainer.Score.PidRehoming
import RTContainer.Rfs.BufferRuns
import RTContainer.Rfs.LinkRuns
import RTContainer.Score.MountSelection
import RTContainer.Score.ContainerLogRuns
import RTContainer.Score.ContainerLogFailure
import RTContainer.Score.ContainerFsTrackingRuns
import RTContainer.Rtems.CgroupTaskRefusal
import RTContainer.Rtems.IpcPools
import RTContainer.Libnetworking.VethPairing
import RTContainer.Libnetworking.VethDelivery
import RTContainer.Score.UnlimitedObjectsReuse
import RTContainer.Score.ThreadQueueHeadsProperties
import RTContainer.Score.CoreMessageDelivery
import RTContainer.Score.CoreCeilingMutexProperties
import RTContainer.Score.WatchdogTimespec
import RTContainer.Rtems.Clock
import RTContainer.Rtems.RateMonotonicMachine
import RTContainer.Rtems.RateMonotonicStatistics
import RTContainer.Score.CoreRwlock
import RTContainer.Score.SchedulerCbs
import RTContainer.Score.SchedulerEdfProperties
import RTContainer.Rfs.Format
import RTContainer.Rfs.DirReading
import RTContainer.Rfs.Symlink
import RTContainer.Libtrace.RecordConservation
import RTContainer.Score.ObjectLookup
import RTContainer.Score.TimespecArithmetic
import RTContainer.Rfs.BlockSizes
import RTContainer.Score.PriorityTree
import RTContainer.Score.RBTree
import RTContainer.Score.SMPBarrier
import RTContainer.Score.SMPMCSLock
