import WorkspaceRuntime.Store.Delegation

/-!
# Lease expiry and runtime sessions

The lease reaper takes expired attempts back to the queue, and a new runtime session does so for
every attempt of the sessions before it. An attempt whose external executor is verified and not
known to have stopped is not taken back: its task is marked `providerStateUnknown`.
-/

namespace WorkspaceRuntime

open Fallible

/-- A task that holds or held a lease: `running` or `cancel_requested`. -/
def Status.leased : Status → Bool
  | .running | .cancelRequested => true
  | .queued | .completed | .failed | .cancelled => false

/-- The order of the index on executor and status that the lease query scans. -/
def leaseOrder (a b : TaskId × Task) : Prop :=
  a.2.executorId.getD "" < b.2.executorId.getD "" ∨
    (a.2.executorId.getD "" = b.2.executorId.getD "" ∧ a.2.status.text ≤ b.2.status.text)

instance : DecidableRel leaseOrder := fun _ _ => inferInstanceAs (Decidable (_ ∨ _))

/-- A lease deadline that has passed. -/
def Task.overdue (row : Task) (now : Time) : Bool :=
  row.status.leased && row.leaseExpiresAt.any (· ≤ now)

namespace State

/-- `_overdue_lease_rows`. -/
def overdueLeaseRows (s : State) (now : Time) : List (TaskId × Task) :=
  (s.tasks.entries.filter fun e => e.2.overdue now).insertionSort leaseOrder

/-- The row updates of a lease expiry after the attempt has been reconciled. -/
def releaseExpired (s : State) (t : TaskId) (row : Task) (now : Time) : Except Err State := do
  let released := (s.requeueRun row.runId now).releaseReservations t row.leaseToken now
  let reset ← released.resetExecutionAttempt t released.currentRuntimeEpoch now
  return reset.appendEvent row.runId (some t)
    (.leaseExpired (s.reconciledAttempt t row.attemptId)) now

/-- One round of `_reap_expired_leases`; `overdue` is the row the query read. -/
def reapLease (now : Time) (s : State) (overdue : TaskId × Task) : Except Err State := do
  let t := overdue.1
  let row := overdue.2
  let latest ← orThrow (s.tasks.lookup t) (.keyError "status")
  if ¬latest.status.leased then
    return s
  else
    let contained ← s.containDelegatedChildren t row.attemptId now
    let binding ← contained.executionBinding t
    if unresolvedExternal binding then
      return (contained.markProviderUnknown t now).appendEvent row.runId (some t)
        (.providerStateUnknown row.attemptId) now
    else
      let reconciled ← (contained.requeueExpired t now).reconcileRuntimeAttempt t row.attemptId now
      reconciled.releaseExpired t row now

/-- `_reap_expired_leases`. -/
def reapExpiredLeases (s : State) (now : Time) : Except Err State := do
  let contained ← s.containOrphanedDelegations now
  (contained.overdueLeaseRows now).foldlM (reapLease now) contained

/-- `reap_overdue_leases`: nothing is written unless a lease is overdue. -/
def reapOverdueLeases (s : State) (now : Time) : Except Err State :=
  if s.overdueLeaseRows now = [] then .ok s else s.reapExpiredLeases now

/-! ## Runtime sessions -/

/-- A new session: the epoch advances, prepared bindings move to it, and the replay table of the
session before it is gone. -/
def openSession (s : State) (boot : String) (epoch : Nat) (now : Time) : State :=
  ({ s with
    lifecycle := { runtimeEpoch := epoch, bootId := boot }
    sessionReceipts := .empty }).refreshPrepared boot epoch now

/-- The restart of a task whose external state is not known. -/
def recoverUnknownTask (s : State) (previous : Nat) (t : TaskId) (row : Task) (latest : Status)
    (now : Time) : State :=
  let status := if latest = .cancelRequested then .cancelRequested else .queued
  (((s.recoverUnknown t status now).requeueRun row.runId now).releaseBinding t .stale
    now).appendEvent row.runId (some t)
    (.runtimeRecovered previous row.attemptId row.leaseFence true) now

/-- The row updates of a restart after the attempt has been reconciled. -/
def recoverTask (s : State) (previous : Nat) (t : TaskId) (row : Task) (now : Time) :
    Except Err State := do
  let released := ((s.recoverQueued t now).requeueRun row.runId now).releaseReservations t
    row.leaseToken now
  let reset ← released.resetExecutionAttempt t released.currentRuntimeEpoch now
  return reset.appendEvent row.runId (some t)
    (.runtimeRecovered previous (s.reconciledAttempt t row.attemptId) row.leaseFence false) now

/-- One round of the recovery loop of `begin_runtime_session`; `interrupted` is the row the query
read. -/
def recoverInterrupted (previous : Nat) (now : Time) (s : State) (interrupted : TaskId × Task) :
    Except Err State := do
  let t := interrupted.1
  let row := interrupted.2
  let latest ← orThrow (s.tasks.lookup t) (.keyError "status")
  if ¬latest.status.leased then
    return s
  else
    let contained ← s.containDelegatedChildren t row.attemptId now
    let binding ← contained.executionBinding t
    if unresolvedExternal binding then
      return contained.recoverUnknownTask previous t row latest.status now
    else
      let reconciled ← contained.reconcileRuntimeAttempt t row.attemptId now
      reconciled.recoverTask previous t row now

/-- The checkpoints of the session before become resumable. -/
def recoverCheckpoints (s : State) (previous : Nat) : State :=
  { s with checkpoints := s.checkpoints.mapRows fun _ c =>
      if c.runtimeEpoch = previous ∧ (c.state = .durable ∨ c.state = .rebootRequested) then
        { c with state := .recovered }
      else c }

/-- `begin_runtime_session`. -/
def beginRuntimeSession (s : State) (boot : String) (epochFloor : Option Int) (now : Time) :
    Except Err State := do
  require (boot ≠ "") (.validation "boot_id is required")
  require (0 ≤ epochFloor.getD 0) (.validation "runtime epoch floor must be non-negative")
  let previous := s.currentRuntimeEpoch
  let epoch := max previous (epochFloor.getD 0).toNat + 1
  let opened := s.openSession boot epoch now
  let recovered ← (opened.tasks.entries.filter fun e => e.2.status.leased).foldlM
    (recoverInterrupted previous now) opened
  return if previous = 0 then recovered else recovered.recoverCheckpoints previous

end State

end WorkspaceRuntime
