import Prequest.Lib.Table
import Prequest.Lib.Run
import Prequest.Command.Operation
import Prequest.Outbox.Emit
import Prequest.Approval.Row
import Prequest.Booking.Db
import Prequest.Approval.BookingGrant
import Prequest.Approval.TicketGrant
import Prequest.Approval.TicketGroup
import Prequest.Approval.TicketGrantRun
import Prequest.Lib.ReadCommitted
import Prequest.Approval.TicketGrantTx
import Prequest.Approval.TicketGrantRace
import Prequest.Approval.BookingGrantRun
import Prequest.Sla.Timer
import Prequest.Sla.Fire
import Prequest.Sla.Tick
import Prequest.Sla.TickRace
import Prequest.Sla.TickRaceRun
import Prequest.Orders.AttachPlan
import Prequest.Booking.EditChains
import Prequest.Booking.RoomApprovers
import Prequest.Outbox.WorkerRun
import Prequest.Workflow.Branches
import Prequest.Workflow.Termination
import Prequest.Workflow.Resume
import Prequest.Workflow.WakeRaceRun
import Prequest.Workflow.CancelCascade
import Prequest.Booking.CancelScope
import Prequest.Booking.LineScope
import Prequest.Booking.SetupRun
import Prequest.Booking.IdempotencyGate
import Prequest.Rules.BulkAgreement
import Prequest.Workflow.CompiledApproval
import Prequest.Booking.ChainRoundTrip
import Prequest.Booking.ConflictGuard
import Prequest.Booking.SlotCover
import Prequest.Booking.Restore
import Prequest.Booking.LinkedRows
import Prequest.Booking.EditScope
import Prequest.Booking.ScopeFailure
import Prequest.Booking.EditReplay
import Prequest.Booking.ScopePreview
import Prequest.Rules.OrderIndependence
import Prequest.Roles.Permission
import Prequest.Visitors.PassPool
import Prequest.Routing.Coverage
import Prequest.Lib.FirstHit
import Prequest.Routing.CoverageAgreement
import Prequest.Cases.StatusTransition
import Prequest.Cases.TimerPlan
import Prequest.Workflow.CaseCommands
import Prequest.Workflow.CaseRun
import Prequest.Workflow.VisitEffects
import Prequest.Workflow.Simulator
import Prequest.Workflow.SimulatorAgreement
import Prequest.Cases.StatusTimers
import Prequest.Cases.RepointRace
import Prequest.Cases.ParentChild
import Prequest.Cases.ParentChildRace
import Prequest.Cases.ParentChildRun
import Prequest.Visibility.Lists
import Prequest.Visibility.Gate
import Prequest.Visibility.Agreement
import Prequest.Visibility.Planning
import Prequest.Lib.Sweep
import Prequest.Visitors.Status
import Prequest.Privacy.Records
import Prequest.Privacy.Adapters
import Prequest.Privacy.Scrubs
import Prequest.Privacy.Retention
import Prequest.Privacy.Erasure
import Prequest.Privacy.HeldRows
import Prequest.Privacy.ErasureRounds
import Prequest.Privacy.RowsRead
import Prequest.Privacy.Completeness
import Prequest.Visitors.SweepWindow
import Prequest.Visitors.EodSweep
import Prequest.DailyList.Rows
import Prequest.DailyList.Selection
import Prequest.DailyList.Feed
import Prequest.DailyList.FeedSteps
import Prequest.DailyList.FeedRun
import Prequest.DailyList.Sender
import Prequest.DailyList.Fence
import Prequest.DailyList.FenceRun
import Prequest.Evaluation.HandlerRun
import Prequest.Dispatch.ReplayRun
import Prequest.Maintenance.CatchUp
import Prequest.Maintenance.Drift
import Prequest.Recurrence.Windows
import Prequest.Shared.IdempotencyKeys
import Prequest.Rules.Hydration
import Prequest.Sla.PauseBudget
import Prequest.Privacy.AuditDrain
import Prequest.Maintenance.PmStarvation
import Prequest.Outbox.EmitCalls
import Prequest.Orders.RuleJoin
import Prequest.Booking.OutcomeFingerprint
import Prequest.Roles.Catalog
import Prequest.Shared.HashStrip
import Prequest.Booking.LinkedRowRun
import Prequest.Organisation.OrgRun
import Prequest.Routing.DomainRegistry
import Prequest.Booking.PlanStability
import Prequest.Orders.ApprovalAssembly
import Prequest.Maintenance.AnchorDate
import Prequest.Booking.FreeSlots
import Prequest.Booking.Access
import Prequest.Booking.SkipOccurrence
import Prequest.Routing.PolicyStore
import Prequest.DailyList.Followup
import Prequest.Booking.RoomHold
