import WorkspaceRuntime.Store.Lease

/-!
# Settlement, failure and heartbeat of an attempt

The three transitions a worker makes on the task it holds. Each checks the lease and the fence that
are stored on the task before it writes.
-/

namespace WorkspaceRuntime

open Fallible

/-- One output that staging has verified: its digest is 64 hexadecimal digits, and the other fields
are those of the normalised output. -/
structure StagedOutput where
  digest : String
  isDigest : digest.toList.length = 64 ∧ digest.toList.all isHexDigit
  fields : Json.Fields := []

/-- The output as a settlement stores it. -/
def StagedOutput.toJson (o : StagedOutput) : Json :=
  .obj (o.fields.set "digest" (.str ("sha256:" ++ o.digest)))

/-- What a settlement brings besides its lease. The staging of the outputs, the check and
application of the effect, and the durability of the children's outputs read other tables; their
outcomes are given. -/
structure Settlement where
  effect : Option Json
  result : Json.Fields
  staged : List StagedOutput
  effectOutcome : Except Err Unit
  childOutputs : Except Err Unit

/-- The stored result: the worker's fields and the outputs. -/
def Settlement.resultJson (w : Settlement) : Json :=
  .obj (w.result.set "outputs" (.arr (w.staged.map StagedOutput.toJson)))

namespace State

variable (s : State) (t : TaskId) (lease : LeaseId)

/-- The lease checks that settlement, failure and heartbeat share. -/
def checkTaskLease (fence : Int) (now : Time) : Except Err Task := do
  let task ← orThrow (s.tasks.lookup t) (.notFound "task not found")
  require (task.status = .running ∧ task.leaseToken = some lease)
    (.lease "attempt lease is stale or already settled")
  require (fence = task.leaseFence) (.lease "attempt fence is stale")
  require (∀ deadline ∈ task.leaseExpiresAt, now < deadline) (.lease "attempt lease has expired")
  return task

/-- The checks of `assert_delegated_children_completed` on the children's rows. -/
def delegatedChildrenCompleted (a : AttemptId) : Except Err Unit := do
  let children := s.delegatedChildren t (some a)
  require (∀ c ∈ children, c.2.status = .completed)
    (.conflict "parent success requires every accepted child to complete")
  require (∀ c ∈ children, ∃ x ∈ c.2.attemptId.bind s.attempts.lookup,
      x.taskId = c.1 ∧ x.settled = true)
    (.conflict "accepted child attempt is not settled")

/-- `_publish_staged_outputs`: the objects are stored, and associated with the task's project. -/
def publishOutputs (project : Option ProjectId) (staged : List StagedOutput) : State :=
  { s with
    objects := s.objects ++ staged.map (·.digest)
    projectObjects := s.projectObjects ++
      project.toList.flatMap fun p => staged.map fun o => (p, o.digest) }

/-- The row updates of a settlement. -/
def completeTaskRows (task : Task) (lease : LeaseId) (a : AttemptId) (result : Json) (now : Time) :
    State :=
  (((((s.completeRow t result now).setRunStatus task.runId .completed now).settleAttemptRow
    a).releaseReservations t (some lease) now).releaseBinding t .released now).appendEvent
    task.runId (some t) .completed now

/-- `_settle_attempt`. -/
def settleTask (fence : Int) (a : AttemptId) (w : Settlement) (now : Time) : Except Err State := do
  let task ← s.checkTaskLease t lease fence now
  let _ ← s.loadSpec task.spec
  require (w.effect.isSome → w.effect = task.expectedEffect)
    (.validation "settlement effect was not predeclared")
  require (task.expectedEffect.isSome → w.effect.isSome)
    (.validation "declared settlement effect is required")
  let project := (s.runs.lookup task.runId).bind (·.projectId)
  require ((w.effect.bind (·.get? "effect_type")) = some (.str "generation.publish_v1") →
      project ≠ none)
    (.conflict "generation.publish_v1 requires a project-scoped task")
  s.delegatedChildrenCompleted t a
  w.childOutputs
  w.effectOutcome
  let published := s.publishOutputs project w.staged
  let refreshed ← (published.completeTaskRows t task lease a w.resultJson now)
    |>.refreshContinuationsForPredecessor t now
  let _ ← refreshed.getTask t
  return refreshed

/-- The row updates of a failure. -/
def failTaskRows (task : Task) (lease : LeaseId) (a : AttemptId) (failure : Json) (now : Time) :
    State :=
  (((((s.failRow t (.obj [("error", failure)]) now).setRunStatus task.runId .failed
    now).settleAttemptRow a).releaseReservations t (some lease) now).releaseBinding t .released
    now).appendEvent task.runId (some t) .failed now

/-- `fail_task`. -/
def failTask (fence : Int) (a : AttemptId) (failure : Json) (now : Time) : Except Err State := do
  let task ← s.checkTaskLease t lease fence now
  let contained ← s.containDelegatedChildren t (some a) now
  let refreshed ← (contained.failTaskRows t task lease a failure now)
    |>.refreshContinuationsForPredecessor t now
  let _ ← refreshed.getTask t
  return refreshed

/-- `heartbeat_task`, with the deadline it writes on the attempt. -/
def heartbeatTask (fence : Int) (a : AttemptId) (leaseSeconds : Int) (now : Time) :
    Except Err State := do
  require (0 < leaseSeconds) (.validation "lease_seconds must be positive")
  let task ← s.checkTaskLease t lease fence now
  let deadline := now + leaseSeconds * 1000
  let extended := s.extendLease t lease deadline now
  let next := { extended with
    executors := match task.executorId with
      | some x => extended.executors.modify x fun row => { row with lastSeenAt := some now }
      | none => extended.executors
    attempts := extended.attempts.modify a fun row => { row with leaseExpiresAt := deadline } }
  let _ ← next.getTask t
  return next

end State

end WorkspaceRuntime
