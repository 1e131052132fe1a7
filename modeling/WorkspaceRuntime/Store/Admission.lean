import WorkspaceRuntime.Store.Executor
import WorkspaceRuntime.Store.Retention

/-!
# Task admission

`createTask` is `create_task`: it validates the request, publishes the snapshots of the spec, answers a
repeated admission from the stored rows, and otherwise inserts the run, the task, the execution binding
of a targeted task, and the dependency rows of a continuation, which it tries to admit at once.
-/

namespace WorkspaceRuntime

open Fallible

/-- The parts of a spec that freezing a render and rewriting snapshots may replace. `frozenInputs` are
the inputs of the timeline that a managed render is frozen at. -/
structure PreparedSpec where
  spec : Option Json
  frozenInputs : Option (List String) := none
  storageEstimate : Option StorageEstimate
  deriving DecidableEq, Repr

/-- A request to admit a task. Freezing and snapshot rewriting read the timeline tables, and the
effect checks the generation tables; their outcomes are given, as is which completed renders still
have their outputs. `published` are the objects that freezing and rewriting publish until they end or
raise. -/
structure TaskCreation where
  capability : CapabilityId
  spec : TaskSpec
  project : Option ProjectId := none
  idempotencyKey : Option String := none
  expectedEffect : Option Json := none
  capabilityDigest : Option String := none
  enforceReadiness : Bool := false
  executionRequest : Option Json := none
  prepared : Except Err PreparedSpec :=
    .ok { spec := spec.spec, storageEstimate := spec.storageEstimate }
  published : List String := []
  effectCheck : Except Err Unit := .ok ()
  reusableOutput : TaskId → Bool := fun _ => false

/-- How an admission ended: a new task, or the stored answer to an admission made before and the task
it names. -/
inductive Admitted where
  | created (task : TaskId)
  | replayed (task : TaskId)
  deriving DecidableEq, Repr

/-- The task that an admission names. -/
def Admitted.task : Admitted → TaskId
  | created t | replayed t => t

/-- `canonical_task_spec_for_compare`. -/
def TaskSpec.forCompare (spec : TaskSpec) : TaskSpec := { spec with runtimeReuseToolchain := none }

/-- The effect as it is stored: an empty one is none. -/
def storedEffect (effect : Option Json) : Option Json := effect.filter Json.truthy

/-- A task's own evidence of its admission. -/
def Task.sameAdmission (row : Task) (prior : TaskSpec) (request : Option Json)
    (identity : AdmissionIdentity) : Bool :=
  prior.forCompare = identity.spec.forCompare && request = identity.executionRequest
    && row.expectedEffect = storedEffect identity.expectedEffect

/-- `digest_conflict` of a replay: the stored digests agree with each other and with the request. -/
def digestConflict (stored spec requested : Option String) : Bool :=
  stored = some "" || spec = some ""
    || (stored.isSome && spec.isSome && stored ≠ spec)
    || (requested.isSome && (stored.orElse fun _ => spec) ≠ requested)

/-- The input list of `_freeze_managed_render_inputs`: inputs that the caller supplied must be those
of the timeline. -/
def freezeInputs (supplied : List String) (frozen : Option (List String)) :
    Except Err (List String) :=
  match frozen with
  | none => .ok supplied
  | some ordered => do
    let normalized ← suppliedInputs supplied
    require (supplied = [] ∨ normalized = ordered)
      (.conflict "render input_object_ids do not match the canonical timeline registry")
    return ordered

/-- The spec of an admission after freezing, snapshot rewriting and snapshot references. -/
def preparedSpec (env : Env) (create : TaskCreation) (prepared : PreparedSpec)
    (requiredFacts : Option Json) : Except Err TaskSpec := do
  let inputObjectIds ← freezeInputs create.spec.inputObjectIds prepared.frozenInputs
  let spec := { create.spec with
    spec := prepared.spec, inputObjectIds
    storageEstimate := prepared.storageEstimate, requiredFacts }
  let snapshots ← env.snapshotRefs spec create.project
  return if snapshots = [] then spec
    else { spec with inputObjectIds := (spec.inputObjectIds ++ snapshots).eraseDups }

/-- The execution request of an admission, normalised. -/
def admittedRequest (create : TaskCreation) : Except Err (Option Json) :=
  match create.executionRequest with
  | some value => some <$> normalizeExecutionRequest value create.spec.inputObjectIds
  | none => .ok none

/-- The required facts of an admission, normalised. -/
def admittedFacts (create : TaskCreation) : Except Err (Option Json) :=
  match create.spec.requiredFacts with
  | some facts => (fun f => some f.toJson) <$> normalizeExecutionFacts "required_facts" facts
  | none => .ok none

namespace State

variable (env : Env) (s : State)

/-- The run that an earlier admission with this key created. -/
def admittedRun (project : Option ProjectId) (key : String) : Option (RunId × Run) :=
  s.runs.entries.find? fun e => e.2.projectId = project ∧ e.2.idempotencyKey = some key

/-- The task of a run. -/
def taskOfRun (r : RunId) : Option (TaskId × Task) :=
  s.tasks.entries.find? fun e => e.2.runId = r

/-- The replay checks of an admission whose key has a run. -/
def checkReplay (run : Run) (task : Task) (identity : AdmissionIdentity) : Except Err Unit := do
  require (run.spec ≠ none ∧ task.spec ≠ none) (.windowExpired
    "task admission is outside its replay and spec retention windows; the command was not executed again")
  let prior ← s.loadSpec run.spec
  let request ← s.executionRequestFromRow task
  require (task.sameAdmission prior request identity ∧ run.capability = identity.capability ∧
      task.capability = identity.capability ∧
      ¬digestConflict task.capabilityDigest prior.capabilityDigest identity.capabilityDigest)
    (.conflict "idempotency key was already used with different input")

/-- Keep or renew the creation receipt of a replay. -/
def keepReceipt (key : CommandKind × String × String) (receipt : Receipt) : State :=
  { s with receipts := s.receipts.upsert key receipt }

/-- An admission whose key has a run: the stored task answers. -/
def replayRun (run : RunId × Run) (identity : AdmissionIdentity) (key : String) (now : Time) :
    Except Err (State × Admitted) := do
  let task ← orThrow (s.taskOfRun run.1)
    (.conflict "persisted task admission identity is unavailable")
  s.checkReplay run.2 task.2 identity
  let ledgerKey := (CommandKind.taskCreate, projectAggregate identity.project, key)
  match s.receipts.lookup ledgerKey with
  | some receipt =>
    if receipt.request = .admission identity then
      if task.2.status.terminal then
        require (now - resultWindow ≤ receipt.createdAt) (.windowExpired
          "idempotency result is outside its replay window; the command was not executed again")
        return (s, .replayed task.1)
      else
        let _ ← s.getTask task.1
        return (s, .replayed task.1)
    else
      let _ ← s.getTask task.1
      return (s.keepReceipt ledgerKey { receipt with request := .admission identity },
        .replayed task.1)
  | none =>
    let _ ← s.getTask task.1
    return (s.keepReceipt ledgerKey
      { request := .admission identity, createdAt := now, primaryStream := some run.1 },
      .replayed task.1)

/-- An admission whose key has a receipt but no run of its own: it was attached to an earlier
render. -/
def replayAttached (receipt : Receipt) (identity : AdmissionIdentity) (now : Time) :
    Except Err (State × Admitted) := do
  require (receipt.request = .admission identity)
    (.conflict "idempotency key was already used with different input")
  let attached := receipt.primaryStream.bind s.taskOfRun
  match attached.filter fun e => !e.2.status.terminal with
  | some task =>
    let _ ← s.getTask task.1
    return (s, .replayed task.1)
  | none =>
    require (now - resultWindow ≤ receipt.createdAt) (.windowExpired
      "idempotency result is outside its replay window; the command was not executed again")
    -- the stored result has no spec: it is read back from the task
    let task ← orThrow (attached.filter fun e => e.2.spec.isSome)
      (.windowExpired "task or run is unavailable for replay")
    return (s, .replayed task.1)

/-- The tasks an admission is compared with, the latest run first. -/
def reuseCandidates (identity : AdmissionIdentity) : List (Run × TaskId × Task) :=
  (s.tasks.entries.filterMap fun e =>
    ((s.runs.lookup e.2.runId).filter fun run => run.projectId = identity.project
      ∧ run.capability = identity.capability
      ∧ (e.2.status ≠ .failed ∧ e.2.status ≠ .cancelled)).map fun run => (run, e)).insertionSort
    fun a b => b.1.createdAt ≤ a.1.createdAt

/-- The toolchains of the executors, from `xs` on, that could render the task. -/
def renderToolchains (env : Env) (s : State) (capability : CapabilityId) (digest : Option String)
    (facts : Option Json) : List (ExecutorId × Executor) → Except Err (List String)
  | [] => .ok []
  | x :: xs => do
    let able ← match executorToolchainDigest x.2 with
      | some _ => s.executorCanRun env (some x.2) capability digest false facts
      | none => .ok false
    let rest ← s.renderToolchains env capability digest facts xs
    return if able then (executorToolchainDigest x.2).toList ++ rest else rest

/-- The toolchain that a render may be reused under: the only one of the live render hosts, when
the spec pins its source. -/
def renderToolchain (identity : AdmissionIdentity) : Except Err (Option String) := do
  let toolchains ← s.renderToolchains env identity.capability identity.capabilityDigest
    identity.spec.requiredFacts s.executors.entries
  let context := (identity.spec.spec.bind (·.get? "authority_context"))
  let source := (context.bind (·.get? "render_toolchain_digest")).bind Json.asStr
  return if source.any (fun d => d.toList.take 7 = "sha256:".toList && (objectDigest d).isSome)
    then (match toolchains.eraseDups with
      | [only] => some only
      | _ => none)
    else none

/-- The loop over the candidates: the task the admission attaches to, if there is one. -/
def reuseCandidate (s : State) (create : TaskCreation) (identity : AdmissionIdentity)
    (toolchain : Option String) : List (Run × TaskId × Task) → Except Err (Option TaskId)
  | [] => .ok none
  | (_, t, task) :: rest => do
    let prior ← s.loadSpec task.spec
    if ¬(task.capabilityDigest = identity.capabilityDigest
        ∧ task.sameAdmission prior task.executionRequest identity) then
      s.reuseCandidate create identity toolchain rest
    else if task.waitingReason = some .providerStateUnknown then
      .error (.conflict
        "provider/executor state must be reconciled by authorized checkpoint resume before retry")
    else if identity.capability = "rendering.render" ∧
        (task.status = .queued ∨ task.status = .running ∨
          (task.status = .completed ∧ toolchain.isSome ∧
            prior.runtimeReuseToolchain = some toolchain ∧ create.reusableOutput t)) then
      return some t
    else
      s.reuseCandidate create identity toolchain rest

/-- The pinned digest and the waiting reason of a new task, from the capability's registration. -/
def capabilityReadiness (create : TaskCreation) :
    Except Err (Option String × Option WaitingReason) :=
  match s.capabilities.lookup create.capability with
  | some registered => do
    require (∀ d ∈ create.capabilityDigest, d = registered.definitionDigest)
      (.conflict "capability definition digest does not match registered capability")
    require (registered.status = .ready ∨ create.enforceReadiness = false)
      (.unavailable "capability is not ready for admission")
    return (some registered.definitionDigest,
      if registered.status = .ready then none else some .capabilityUnavailable)
  | none => .ok (create.capabilityDigest,
      if create.capabilityDigest.isSome then some .capabilityUnavailable else none)

/-- Why a new task of a ready capability waits for an executor. -/
def executorReadiness (capability : CapabilityId) (digest : Option String) (facts : Option Json) :
    Except Err (Option WaitingReason) := do
  if ← s.matchingLiveExecutor env capability digest facts then
    return none
  else if facts.isSome then
    if ← s.matchingLiveExecutor env capability digest none then
      return some .waitingForExecutorFacts
    else
      return some .capabilityUnavailable
  else
    return some .capabilityUnavailable

/-- The pinned digest and the waiting reason of a new task. -/
def admissionReadiness (create : TaskCreation) (spec : TaskSpec) :
    Except Err (Option String × Option WaitingReason) := do
  let base ← s.capabilityReadiness create
  if create.enforceReadiness ∧ base.2 = none then
    let waiting ← s.executorReadiness env create.capability base.1 spec.requiredFacts
    return (base.1, waiting)
  else
    return base

/-- The sweep that an admission makes when some terminal task is past the retention window. -/
def retireIfDue (s : State) : Except Err State :=
  if s.tasks.entries.any fun e => e.2.spec.isSome && e.2.status.terminal
      && e.2.updatedAt < env.now - days env.retentionDays then
    s.retireTerminalSpecs env
  else .ok s

/-- The prepared binding of a targeted task. -/
def insertBinding (task : Task) : Except Err State :=
  match task.executionRequest with
  | none => .ok s
  | some request => do
    let binding : Binding :=
      { bindingId := env.newBinding, runId := env.newRun, sessionId := s.lifecycle.bootId,
        runtimeEpoch := s.currentRuntimeEpoch, capabilityId := task.capability,
        selected := (request.get? "target").getD .null, updatedAt := env.now }
    let bindings ← orThrow (s.bindings.insertNew env.newTask binding)
      (.integrity "execution_bindings")
    return { s with bindings }

/-- The inserted run, task and binding of an admission. -/
def insertTask (run : Run) (task : Task) : Except Err State := do
  let runs ← orThrow (s.runs.insertNew env.newRun run) (.integrity "runs")
  let tasks ← orThrow (s.tasks.insertNew env.newTask task) (.integrity "tasks")
  ({ s with runs, tasks }).insertBinding env task

/-- The dependency rows of a continuation, from this ordinal on. -/
def insertDependencies (s : State) (t : TaskId) : Nat → List TaskId → Except Err State
  | _, [] => .ok s
  | ordinal, p :: ps => do
    let dependencies ← orThrow (s.dependencies.insertNew (t, ordinal) p)
      (.integrity "task_dependencies")
    ({ s with dependencies }).insertDependencies t (ordinal + 1) ps

/-- A new continuation is tried at once. -/
def tryLinked (t : TaskId) (predecessors : List TaskId) (now : Time) : Except Err State :=
  if predecessors = [] then .ok s else s.admitContinuation t now

/-- The last part of `create_task`: a new run and task. -/
def admitNew (create : TaskCreation) (identity : AdmissionIdentity) (predecessors : List TaskId)
    (toolchain : Option String) : Except Err (State × Admitted) := do
  let (digest, waiting) ← s.admissionReadiness env create identity.spec
  let stored ← s.storagePreflight env create.capability identity.spec.storageEstimate
  require (stored = true) (.conflict
    "task admission refused: storage estimate would cross the free-space floor")
  s.validateContinuationPredecessors identity.project predecessors
  let waiting := if predecessors = [] then waiting else some .waitingForDependencies
  let swept ← s.retireIfDue env
  let spec := if create.capability = "rendering.render" then
    { identity.spec with runtimeReuseToolchain := some toolchain } else identity.spec
  let run : Run :=
    { projectId := identity.project, capability := create.capability, spec := some spec,
      status := .queued, idempotencyKey := create.idempotencyKey, createdAt := env.now,
      updatedAt := env.now }
  let task : Task :=
    { runId := env.newRun, capability := create.capability, spec := some spec, status := .queued,
      capabilityDigest := digest, waitingReason := waiting,
      expectedEffect := storedEffect create.expectedEffect
      executionRequest := identity.executionRequest,
      createdAt := env.now, updatedAt := env.now }
  let inserted ← (swept.storeSpec spec).insertTask env run task
  let linked ← (inserted.appendEvent env.newRun (some env.newTask) (.admitted create.capability)
    env.now).insertDependencies env.newTask 0 predecessors
  let tried ← linked.tryLinked env.newTask predecessors env.now
  let _ ← tried.getTask env.newTask
  let recorded := match create.idempotencyKey with
    | some key => tried.keepReceipt (.taskCreate, projectAggregate identity.project, key)
        { request := .admission identity, createdAt := env.now, primaryStream := some env.newRun }
    | none => tried
  return (recorded, .created env.newTask)

/-- The toolchain that a render may be reused under; other capabilities have none. -/
def reuseToolchain (identity : AdmissionIdentity) : Except Err (Option String) :=
  if identity.capability = "rendering.render" then s.renderToolchain env identity else .ok none

/-- The reuse stage of `create_task`: an admission with a key may attach to an earlier render. -/
def admitOrAttach (create : TaskCreation) (identity : AdmissionIdentity)
    (predecessors : List TaskId) : Except Err (State × Admitted) :=
  match create.idempotencyKey with
  | none => s.admitNew env create identity predecessors none
  | some key => do
    let toolchain ← s.reuseToolchain env identity
    match ← s.reuseCandidate create identity toolchain (s.reuseCandidates identity) with
    | some t =>
      let row ← s.getTask t
      return (s.keepReceipt (.taskCreate, projectAggregate identity.project, key)
        { request := .admission identity, createdAt := env.now, primaryStream := some row.runId },
        .replayed t)
    | none => s.admitNew env create identity predecessors toolchain

/-- The objects that freezing and snapshot rewriting publish: those that are stored are kept. -/
def publishSnapshots (project : Option ProjectId) (digests : List String) : State :=
  { s with
    objects := insertMissing s.objects digests
    projectObjects := insertMissing s.projectObjects
      (project.toList.flatMap fun p => digests.map (p, ·)) }

/-- The checks of an admission before it publishes anything: its request and facts, normalised. -/
def checkAdmission (create : TaskCreation) : Except Err (Option Json × Option Json) := do
  require (create.capability ≠ "") (.validation "capability is required")
  let executionRequest ← admittedRequest create
  let requiredFacts ← admittedFacts create
  require (∀ p ∈ create.project, p ∈ s.projects) (.notFound "project not found")
  return (executionRequest, requiredFacts)

/-- The checks of an admission before it looks for an earlier one: what the request is compared by,
and its predecessors. -/
def resolveAdmission (create : TaskCreation) (executionRequest : Option Json)
    (requiredFacts : Option Json) : Except Err (AdmissionIdentity × List TaskId) := do
  let prepared ← create.prepared
  let spec ← preparedSpec env create prepared requiredFacts
  let predecessors ← continuationPredecessors spec
  create.effectCheck
  s.validateTaskInputs create.project spec
  return ({ capability := create.capability, spec, executionRequest, project := create.project,
            expectedEffect := create.expectedEffect, capabilityDigest := create.capabilityDigest },
    predecessors)

/-- An admission after its publications. -/
def admitTask (create : TaskCreation) (executionRequest : Option Json) (requiredFacts : Option Json) :
    Except Err (State × Admitted) := do
  let (identity, predecessors) ← s.resolveAdmission env create executionRequest requiredFacts
  match create.idempotencyKey with
  | none => s.admitOrAttach env create identity predecessors
  | some key =>
    match s.admittedRun create.project key,
        s.receipts.lookup (.taskCreate, projectAggregate create.project, key) with
    | some run, _ => s.replayRun run identity key env.now
    | none, some receipt => s.replayAttached receipt identity env.now
    | none, none => s.admitOrAttach env create identity predecessors

/-- `create_task`. A render is admitted in one transaction. Any other admission opens its transaction
after its snapshots are published, so an exception leaves them. -/
def createTask (create : TaskCreation) : State × Except Err Admitted :=
  match s.checkAdmission create with
  | .error e => (s, .error e)
  | .ok (executionRequest, requiredFacts) =>
    let published := s.publishSnapshots create.project create.published
    match published.admitTask env create executionRequest requiredFacts with
    | .ok (admitted, answer) => (admitted, .ok answer)
    | .error e => (if create.capability = "rendering.render" then s else published, .error e)

end State

/-- A call inside a transaction: an exception rolls back what it wrote. -/
def inTransaction {α : Type} : State × Except Err α → Except Err (State × α)
  | (s, .ok a) => .ok (s, a)
  | (_, .error e) => .error e

end WorkspaceRuntime
