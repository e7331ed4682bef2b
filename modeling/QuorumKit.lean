import QuorumKit.LogEntry
import QuorumKit.Configuration
import QuorumKit.Library.Bytes
import QuorumKit.Library.FileSystem
import QuorumKit.Library.BoundedHeap
import QuorumKit.Library.FileTree
import QuorumKit.Library.SparseFile
import QuorumKit.Log.EntryCodec
import QuorumKit.Log.SegmentName
import QuorumKit.PeerId
import QuorumKit.Log.Segment
import QuorumKit.Log.SegmentLogStorage
import QuorumKit.Log.AppendSync
import QuorumKit.Log.SegmentFile
import QuorumKit.Log.TornTail
import QuorumKit.Log.SegmentLayout
import QuorumKit.Log.DirectoryScan
import QuorumKit.Log.Recovery
import QuorumKit.Log.CrashPoint
import QuorumKit.Log.TruncateCrash
import QuorumKit.Log.ResetCrash
import QuorumKit.Errno
import QuorumKit.Snapshot.SnapshotStorage
import QuorumKit.Snapshot.SnapshotCopier
import QuorumKit.Snapshot.SnapshotExecutor
import QuorumKit.Snapshot.SaveSnapshot
import QuorumKit.Snapshot.InstallSnapshot
import QuorumKit.Library.ThreadPool
import QuorumKit.Snapshot.InstallSessions
import QuorumKit.Snapshot.InstallProtocol
import QuorumKit.Snapshot.SnapshotJobs
import QuorumKit.Snapshot.FilteredCopy
import QuorumKit.Snapshot.FilteredInstall
import QuorumKit.Snapshot.FileSegData
import QuorumKit.Snapshot.FileService
import QuorumKit.Snapshot.RemoteFileCopier
import QuorumKit.Snapshot.FileCopy
import QuorumKit.Library.TransitionSystem
import QuorumKit.Library.RefCounts
import QuorumKit.Snapshot.ReferenceCounting
import QuorumKit.Meta.MixedMetaStorage
import QuorumKit.Meta.StoreOrder
import QuorumKit.Meta.VoteDurability
import QuorumKit.Library.IndexedLog
import QuorumKit.Library.SortedHistory
import QuorumKit.LogManager.LogStorage
import QuorumKit.Log.MemoryLogStorage
import QuorumKit.Log.SegmentSteps
import QuorumKit.Log.TruncateSteps
import QuorumKit.Log.StorageAgreement
import QuorumKit.LogManager.LogManager
import QuorumKit.Library.PendingTasks
import QuorumKit.LogManager.LogicalLog
import QuorumKit.LogManager.LogicalSteps
import QuorumKit.LogManager.ConflictResolution
import QuorumKit.LogManager.SoundSteps
import QuorumKit.LogManager.DiskSteps
import QuorumKit.LogManager.Runs
import QuorumKit.LogManager.SoundRuns
import QuorumKit.LogManager.StableClosure
import QuorumKit.LogManager.HeldClosures
import QuorumKit.LogManager.SnapshotWindow
import QuorumKit.LogManager.PendingLog
import QuorumKit.LogManager.FlushedLastLogId
import QuorumKit.LogManager.GetEntryRace
import QuorumKit.LogManager.FollowedLog
import QuorumKit.LogManager.FollowerAppend
import QuorumKit.LogManager.DiskLag
import QuorumKit.LogManager.ConfigurationHistory
import QuorumKit.Library.Quorum
import QuorumKit.Ballot.Ballot
import QuorumKit.Ballot.BallotBox
import QuorumKit.Ballot.CommitWindow
import QuorumKit.Ballot.QuorumPrefix
import QuorumKit.Fsm.FSMCaller
import QuorumKit.Fsm.SnapshotMeta
import QuorumKit.Fsm.IteratorRollback
import QuorumKit.Fsm.Delivery
import QuorumKit.Fsm.ClosureQueue
import QuorumKit.Node.NodeConfiguration
import QuorumKit.Node.NodeImpl
import QuorumKit.Node.LeaderStableClosure
import QuorumKit.Node.SelfVoteRuns
import QuorumKit.Node.LeaderLease
import QuorumKit.Node.QuorumTimestamp
import QuorumKit.Node.Election
import QuorumKit.Node.InactiveStates
import QuorumKit.Node.LiveCandidacy
import QuorumKit.Node.Runs
import QuorumKit.Node.Alignment
import QuorumKit.Node.ClosureDelivery
import QuorumKit.Node.ConfigurationChange
import QuorumKit.Node.ConfigurationRuns
import QuorumKit.Node.QuorumIntersection
import QuorumKit.AppendEntries
import QuorumKit.LogManager.SuffixCut
import QuorumKit.Node.FollowerLog
import QuorumKit.Replicator.Replicator
import QuorumKit.Replicator.InFlight
import QuorumKit.Replicator.Bookkeeping
import QuorumKit.Library.Spans
import QuorumKit.Node.AppendEntriesCache
import QuorumKit.Node.CachedRequests
import QuorumKit.Node.RunableRequests
import QuorumKit.Node.CacheTimers
import QuorumKit.Replicator.Probes
import QuorumKit.Log.CorruptConfiguration
import QuorumKit.Log.FailedAppend
import QuorumKit.Log.FailedRollover
import QuorumKit.Node.OwnVotes
import QuorumKit.Node.ElectionSafety
import QuorumKit.Library.RangeChain
import QuorumKit.Log.EntryIndex
import QuorumKit.Log.ReadableLog
import QuorumKit.ProtoBufFile
import QuorumKit.Snapshot.FileReader
import QuorumKit.Snapshot.BufferedRead
import QuorumKit.Snapshot.SnapshotThrottle
import QuorumKit.Snapshot.ThrottleArithmetic
import QuorumKit.RepeatedTimerTask
import QuorumKit.Node.ReadonlyMajority
import QuorumKit.Replicator.Probing
import QuorumKit.LogManager.WaitMap
import QuorumKit.Replicator.Waiters
import QuorumKit.Replicator.Indifference
import QuorumKit.Replicator.TimeoutNow
import QuorumKit.Node.Transferring
import QuorumKit.Node.LeadershipTransfer
import QuorumKit.Replicator.CatchUp
import QuorumKit.Replicator.CatchUpTimers
import QuorumKit.Replicator.CatchUpRuns
import QuorumKit.LogManager.StoredEntries
import QuorumKit.LogManager.AnsweredEntries
import QuorumKit.Snapshot.NodeRestart
import QuorumKit.Snapshot.CrashRuns
import QuorumKit.Snapshot.SegmentBuffer
import QuorumKit.LogManager.WaitIds
import QuorumKit.ConfigurationText
import QuorumKit.LogManager.AppendBatcher
import QuorumKit.LogManager.UndisturbedLog
import QuorumKit.Node.ReadCommittedUserLog
import QuorumKit.Group.LogMerge
import QuorumKit.Group.Candidates
import QuorumKit.Group.Group
import QuorumKit.Group.Records
import QuorumKit.Group.Servers
import QuorumKit.Group.Annals
import QuorumKit.Group.Commits
import QuorumKit.Group.Closures
import QuorumKit.Group.Requests
import QuorumKit.Group.Proposals
import QuorumKit.Group.Elections
import QuorumKit.Group.Followers
import QuorumKit.Group.Restarts
import QuorumKit.Group.Safety
import QuorumKit.Group.Agreement
import QuorumKit.Group.Checks
