import WorkspaceRuntime.Service.Tasks

/-!
# Placement recovery and activations

The owner may move a task whose placement is lost to another one of the same provider account. The
decision is an event; the admission is not rewritten. Children that the lost placement delegated are
fenced.
-/

namespace WorkspaceRuntime

open Fallible

/-- A placement recovery request. The loss evidence is compared with the current target and with the
clock, and the qualification with the replacement target; the outcomes are given: the evidence as it
is recorded, and the evidence digest and the incarnation that the qualification names. -/
structure PlacementRecoveryRequest where
  body : Json
  key : Option String
  owner : Except Err Unit := .ok ()
  actor : String := "owner"
  lossEvidence : Json → Except Err Json := fun _ => .ok (.obj [])
  qualification : Json → Except Err (String × String) := fun _ => .ok ("", "")
  activation : Option String := none

/-- The fields of a placement recovery. -/
def placementRecoveryFields : List String :=
  ["schema_version", "expected_task_version", "expected_placement_version",
    "expected_original_target", "expected_current_target", "replacement_target", "reason",
    "loss_evidence", "qualification"]

/-- A version of a placement recovery. -/
def versionField (fields : Json.Fields) (field : String) : Except Err Nat :=
  match fields.get field with
  | some (.int n) => do
    require (0 ≤ n) (.validation (field ++ " must be a non-negative integer"))
    return n.toNat
  | _ => .error (.validation (field ++ " must be a non-negative integer"))

namespace State

variable (env : Env) (s : State) (t : TaskId) (task : Task)

/-- `_delegated_children` of the service: the tasks that name the task as their parent. -/
def lineageChildren (parent : TaskId) : Except Err (List (TaskId × Task)) := do
  let _ ← s.tasks.entries.mapM fun e => s.loadSpec e.2.spec
  return s.tasks.entries.filter fun e =>
    (s.lineageOf e.2).any fun lineage => lineage.parentTaskId = parent

/-- The task holds no unsettled attempt and no unreleased reservation. -/
def quiet (t : TaskId) : Bool :=
  s.unsettledAttempts t = [] && (s.taskReservations t).all fun r => r.2.releasedAt.isSome

/-- The children's part of `_assert_placement_recovery_quiescent`. -/
def childQuiescent (child : TaskId × Task) : Except Err Unit := do
  let binding ← s.executionBinding child.1
  require (¬child.2.status.leased ∧ child.2.unknown = false ∧ s.quiet child.1 ∧
      ∀ view ∈ binding, view.row.status ≠ .claimed)
    (.conflict "delegated child has unknown active work")

/-- `_assert_placement_recovery_quiescent`. -/
def assertPlacementRecoveryQuiescent (children : List (TaskId × Task)) : Except Err Unit := do
  require (task.status = .failed ∨ task.status = .cancelled)
    (.conflict "task must be terminal before placement recovery")
  require (task.unknown = false) (.conflict "old placement has unknown active work")
  require (s.unsettledAttempts t = []) (.conflict "old placement has unknown active work")
  require (s.quiet t) (.conflict "old placement still owns an active reservation")
  let binding ← s.executionBinding t
  let view ← orThrow binding (.conflict "task has no targeted execution binding")
  require (view.row.status ≠ .claimed)
    (.conflict "old placement still has a claimed execution binding")
  let _ ← children.mapM s.childQuiescent
  return ()

/-- One round of the loop of `recover_task_placement` over the children. -/
def fenceChild (parent : TaskId) (now : Time) (s : State) (child : TaskId × Task) : State :=
  let fenced := if child.2.status = .queued then
      ((s.fenceChildRow child.1 now).setRunStatus child.2.runId .cancelled now).fenceChildBinding
        child.1 now
    else s
  fenced.appendEvent child.2.runId (some child.1) (.placementFenced parent) now

/-- The writes of `recover_task_placement`. -/
def recoverPlacementRows (children : List (TaskId × Task)) (decision : PlacementDecision)
    (activation : Option String) (now : Time) : Except Err State := do
  let fenced := children.foldl (fenceChild t now) s
  require (∃ b ∈ fenced.bindings.lookup t, b.status ≠ .claimed)
    (.conflict "execution binding changed during placement recovery")
  let recovered := ((fenced.replaceBinding t decision.replacementTarget now).touchTask t
    now).appendEvent task.runId (some t) (.placementRecovered decision) now
  let revoked := match activation with
    | some id => recovered.appendEvent task.runId (some t) (.activationRevoked id) now
    | none => recovered
  let _ ← revoked.getTask t
  return revoked

/-- The replacement target of a placement recovery, checked against the current one. -/
def checkReplacement (current replacement : Json) : Except Err Unit := do
  require (current.get? "kind" = some (.str "runpod") ∧ replacement.get? "kind" = some (.str "runpod"))
    (.validation "placement recovery currently supports exact RunPod targets")
  require (replacement.get? "provider_account_ref" = current.get? "provider_account_ref")
    (.authorization "replacement target belongs to a different provider account")
  require (replacement ≠ current)
    (.conflict "replacement target must differ from the lost placement")

/-- The checks of `recover_task_placement` on the task, and the decision they lead to. -/
def placementDecisionFor (fields : Json.Fields) (r : PlacementRecoveryRequest) :
    Except Err PlacementDecision := do
  let taskVersion ← versionField fields "expected_task_version"
  let placementVersion ← versionField fields "expected_placement_version"
  let stored ← s.executionRequestFromRow task
  let request ← orThrow stored (.conflict "placement recovery requires a targeted task")
  let original ← normalizeExecutionTarget (fields.get "expected_original_target")
  require (some original = request.get? "target")
    (.conflict "original immutable placement does not match admission")
  let effective ← s.effectiveExecutionTarget t
  let current ← orThrow effective (.keyError "target")
  let expected ← normalizeExecutionTarget (fields.get "expected_current_target")
  require (expected = current) (.conflict "current effective placement changed")
  let version := ((s.placementRecovery t).map (·.placementVersion)).getD 0
  require (placementVersion = version) (.conflict "stale placement version")
  require (taskVersion = task.attempt + 1) (.conflict "stale task version")
  let replacement ← normalizeExecutionTarget (fields.get "replacement_target")
  checkReplacement current replacement
  let lossEvidence ← r.lossEvidence current
  let (evidenceDigest, executorIncarnation) ← r.qualification replacement
  return { placementVersion := version + 1, runId := task.runId, originalTarget := original,
           previousEffectiveTarget := current, replacementTarget := replacement, evidenceDigest,
           executorIncarnation, taskVersion, lossEvidence, ownerActor := r.actor
           reason := strip (((fields.get "reason").bind Json.asStr).getD "")
           superseded := s.bindings.lookup t, createdAt := env.now }

/-- `recover_task_placement`; the answer is whether it was a replay. -/
def recoverTaskPlacement (r : PlacementRecoveryRequest) : Except Err (State × Bool) := do
  r.owner
  let key ← requireIdempotencyKey r.key
  let fields ← wireObject r.body placementRecoveryFields placementRecoveryFields
  require (fields.get "schema_version" = some (.int 1))
    (.validation "placement recovery schema_version is unsupported")
  require (∃ text ∈ (fields.get "reason").bind Json.asStr,
      text.toList.any (fun c => !c.isWhitespace) ∧ text.toList.length ≤ 1024)
    (.validation "placement recovery reason is invalid")
  let task ← s.getTask t
  if ← s.commandReplay .taskPlacementRecover t key (commandHash t r.body) env.now then
    return (s, true)
  else
    let decision ← s.placementDecisionFor env t task fields r
    let children ← s.lineageChildren t
    s.assertPlacementRecoveryQuiescent t task children
    let recovered ← s.recoverPlacementRows t task children decision r.activation env.now
    let recorded ← recovered.commandRecord .taskPlacementRecover t key (commandHash t r.body) env.now
    return (recorded, false)

/-- `revoke_remote_activation`. `current` is the outcome of the checks on the activation's events. -/
def revokeRemoteActivation (activation : String) (current : Except Err Unit) :
    Except Err State := do
  current
  let task ← s.getTask t
  (s.appendEvent task.runId (some t) (.activationRevoked activation) env.now)
    |>.containDelegatedChildren t none env.now

end State

end WorkspaceRuntime
