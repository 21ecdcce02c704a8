import ZonedStorage.Arbiter.Allocation
import ZonedStorage.Arbiter.Fairness
import ZonedStorage.Backup.CopyFile
import ZonedStorage.Backup.Hints
import ZonedStorage.Batch.InStep
import ZonedStorage.Compaction.Reads
import ZonedStorage.Descriptors.FileCache
import ZonedStorage.Device.ZoneCounters
import ZonedStorage.File.RecordRoundTrip
import ZonedStorage.File.Sequential
import ZonedStorage.Heaps.BinaryHeap
import ZonedStorage.Integrated.Accounts
import ZonedStorage.Integrated.StripeWidth
import ZonedStorage.Journal.FreshMount
import ZonedStorage.Journal.FullZone
import ZonedStorage.Journal.CrashPoints
import ZonedStorage.Journal.ZoneFsRecovery
import ZonedStorage.Locking.LockLimit
import ZonedStorage.Manifest.RoundTrip
import ZonedStorage.Migration.Faithful
import ZonedStorage.Names.Bijection
import ZonedStorage.Names.Filenames
import ZonedStorage.Names.RandomAccess
import ZonedStorage.Names.RollBack
import ZonedStorage.Names.Spelling
import ZonedStorage.Namespace.SparseRecovery
import ZonedStorage.Remap.CleanBlocks
import ZonedStorage.Remap.Faithful
import ZonedStorage.Seqno.Thinning
import ZonedStorage.Tombstones.Covering
import ZonedStorage.Wal.Timestamps
import ZonedStorage.Wal.Truncated
import ZonedStorage.Writing.Deferred
