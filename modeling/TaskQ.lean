import TaskQ.FailClosed
import TaskQ.Reserved
import TaskQ.Resume
import TaskQ.ClaimFence
import TaskQ.Resolve
import TaskQ.Wake
import TaskQ.CursorExact
import TaskQ.TwinAgree
import TaskQ.Abandon
import TaskQ.Refunds
import TaskQ.NodeIdentity
import TaskQ.Collect
import TaskQ.BatchClosed
import TaskQ.BulkTwinAgree
import TaskQ.DiIsolation
import TaskQ.ProgressFlush
import TaskQ.SpawnFlow
import TaskQ.RowKeys
import TaskQ.FinishedStamp
import TaskQ.WiringRules
import TaskQ.RunStatus
import TaskQ.EventTrail
import TaskQ.LoopBudget
import TaskQ.LoopAligned
import TaskQ.LoopFinish
import TaskQ.DeferVerdicts
import TaskQ.StatementArms
import TaskQ.ClaimCursor
import TaskQ.LeaseRenewal
import TaskQ.ReclaimFeed
import TaskQ.SlotLeases
import TaskQ.Disown
import TaskQ.Headroom
import TaskQ.Gcra
import TaskQ.BucketBackends
import TaskQ.Backoff
import TaskQ.CancelTicks
import TaskQ.CronEnqueue
import TaskQ.RingCounts
import TaskQ.RouteTags
import TaskQ.FlushFence
import TaskQ.EmitBound
import TaskQ.StoredTat
import TaskQ.OneInstance
import TaskQ.Classifiers
import TaskQ.BoundedCollect
import TaskQ.StallTally
import TaskQ.LimiterHints
