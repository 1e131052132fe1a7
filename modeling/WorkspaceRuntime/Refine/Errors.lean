import WorkspaceRuntime.Store.Admission

/-!
# The refusal of equal work

An admission is refused with one message when work that it equals is not reconciled. Nothing that an
admission does after its comparison with earlier work raises that error, so that the error says that
such work was found.
-/

namespace WorkspaceRuntime

open Fallible State

/-- The refusal of an admission that equals work whose external state is not known. -/
abbrev Err.unreconciled : Err :=
  .conflict "provider/executor state must be reconciled by authorized checkpoint resume before retry"

variable {env : Env} {s : State} {field : String} {capability : CapabilityId}
  {digest : Option String} {facts : Option Json} {create : TaskCreation}
  {identity : AdmissionIdentity} {t : TaskId} {project : Option ProjectId}

/-! ## Requests and facts -/

@[simp] theorem avoids_normalizeAliasedTarget {kind : String} {target : Json.Fields} :
    Avoids .unreconciled (normalizeAliasedTarget kind field target) := by
  simp [normalizeAliasedTarget]

@[simp] theorem avoids_normalizeExecutionTarget {value : Option Json} :
    Avoids .unreconciled (normalizeExecutionTarget value) := by
  simp only [normalizeExecutionTarget, avoids_bind, avoids_orThrow]
  refine ⟨by simp, fun target _ => ?_⟩
  split <;> simp

@[simp] theorem avoids_declaredInputs : ∀ (items : List Json) (names : List String),
    Avoids .unreconciled (declaredInputs items names)
  | [], _ => by simp [declaredInputs]
  | _ :: items, names => by simp [declaredInputs, avoids_declaredInputs items]

@[simp] theorem avoids_suppliedInputs {ids : List String} :
    Avoids .unreconciled (suppliedInputs ids) :=
  avoids_mapM (fun _ => by simp) ids

@[simp] theorem avoids_checkRemoteActivation {required target : Json} :
    Avoids .unreconciled (checkRemoteActivation required target) := by
  unfold checkRemoteActivation
  split <;> simp

@[simp] theorem avoids_checkPresent {field : Option Json} {check : Json → Except Err Unit}
    (h : ∀ value, Avoids .unreconciled (check value)) :
    Avoids .unreconciled (checkPresent field check) := by
  cases field with
  | none => exact avoids_ok
  | some value => exact h value

@[simp] theorem avoids_normalizeExecutionRequest {value : Json} {ids : List String} :
    Avoids .unreconciled (normalizeExecutionRequest value ids) := by
  simp [normalizeExecutionRequest, checkMirroredInputs]

@[simp] theorem avoids_checkExactFact {key : String} {fact : Json} :
    Avoids .unreconciled (checkExactFact field key fact) := by
  unfold checkExactFact
  split
  · cases fact <;> simp [checkPortFact]
  · simp

@[simp] theorem avoids_checkMinimumFact {key : String} {fact : Json} :
    Avoids .unreconciled (checkMinimumFact field key fact) := by
  cases fact <;> simp [checkMinimumFact]

@[simp] theorem avoids_normalizeExecutionFacts {value : Json} :
    Avoids .unreconciled (normalizeExecutionFacts field value) := by
  simp [normalizeExecutionFacts, avoids_mapM]

/-! ## Readiness and storage -/

@[simp] theorem avoids_storagePreflight {estimate : Option StorageEstimate} :
    Avoids .unreconciled (s.storagePreflight env capability estimate) := by
  cases estimate <;> simp [storagePreflight, validateStorageEstimate]

@[simp] theorem avoids_descriptorCanRun {x : Executor} {descriptor : Json.Fields} {row : Capability}
    {storage : Bool} : Avoids .unreconciled
      (s.descriptorCanRun env x descriptor capability row digest storage facts) := by
  cases facts <;> simp [descriptorCanRun, executionFactsMatch]

@[simp] theorem avoids_executorCanRun {x : Option Executor} {storage : Bool} :
    Avoids .unreconciled (s.executorCanRun env x capability digest storage facts) := by
  cases x with
  | none => exact avoids_ok
  | some x =>
    simp only [executorCanRun, avoids_ite, avoids_ok, implies_true, true_and]
    intro
    split <;> simp

@[simp] theorem avoids_anyExecutorCanRun : ∀ xs : List (ExecutorId × Executor),
      Avoids .unreconciled (s.anyExecutorCanRun env capability digest facts xs)
  | [] => avoids_ok
  | _ :: xs => by simp [anyExecutorCanRun, avoids_anyExecutorCanRun xs]

@[simp] theorem avoids_admissionReadiness {spec : TaskSpec} :
    Avoids .unreconciled (s.admissionReadiness env create spec) := by
  have hbase : Avoids .unreconciled (s.capabilityReadiness create) := by
    unfold capabilityReadiness
    split <;> simp
  simp [admissionReadiness, hbase, executorReadiness, matchingLiveExecutor]

/-- The toolchain of a render. -/
@[simp] theorem avoids_renderToolchains : ∀ xs : List (ExecutorId × Executor),
      Avoids .unreconciled (s.renderToolchains env capability digest facts xs)
  | [] => avoids_ok
  | x :: xs => by
    simp only [renderToolchains]
    split <;> simp [avoids_renderToolchains xs]

@[simp] theorem avoids_reuseToolchain :
    Avoids .unreconciled (s.reuseToolchain env identity) := by
  simp only [reuseToolchain, renderToolchain, avoids_ite, avoids_bind,
    avoids_renderToolchains, pure_eq_ok, avoids_ok, implies_true, and_true]

/-! ## The rows of a new task -/

@[simp] theorem avoids_loadSpec {spec : Option TaskSpec} :
    Avoids .unreconciled (s.loadSpec spec) := by
  cases spec <;> simp [loadSpec]

@[simp] theorem avoids_executionRequestFromRow {row : Task} :
    Avoids .unreconciled (s.executionRequestFromRow row) := by
  simp only [executionRequestFromRow, avoids_bind, avoids_loadSpec, true_and]
  intro spec _
  split <;> simp

@[simp] theorem avoids_getTask : Avoids .unreconciled (s.getTask t) := by
  have hbinding : Avoids .unreconciled (s.executionBinding t) := by
    unfold executionBinding storedRequest
    split
    · simp
    · split <;> simp
  simp [getTask, hbinding]

@[simp] theorem avoids_inputDigests : ∀ ids seen : List String,
    Avoids .unreconciled (inputDigests ids seen)
  | [], _ => avoids_ok
  | _ :: ids, seen => by simp [inputDigests, avoids_inputDigests ids]

@[simp] theorem avoids_validateTaskInputs {spec : TaskSpec} :
    Avoids .unreconciled (s.validateTaskInputs project spec) := by
  simp only [validateTaskInputs]
  split <;> simp [validateStorageEstimate]

@[simp] theorem avoids_admitContinuation {now : Time} :
    Avoids .unreconciled (s.admitContinuation t now) := by
  have hresolve : ∀ task rows, Avoids .unreconciled (s.resolveContinuation t task rows now) := by
    intro task rows
    have hchildren : Avoids .unreconciled (rows.mapM resolveChild) :=
      avoids_mapM (fun r => by simp [resolveChild]) rows
    simp [resolveContinuation, hchildren, setResolvedChildren]
  simp only [admitContinuation, avoids_ite, avoids_ok, implies_true, true_and]
  intro
  split
  · simp
  · simp only [avoids_ite, avoids_ok, implies_true, true_and]
    intros
    split
    · simp
    · exact hresolve _ _

@[simp] theorem avoids_insertDependencies : ∀ (s : State) (n : Nat) (ps : List TaskId),
    Avoids .unreconciled (s.insertDependencies t n ps)
  | _, _, [] => avoids_ok
  | s, n, _ :: ps => by
    simp only [insertDependencies, avoids_bind, avoids_orThrow]
    exact ⟨by simp, fun _ _ => avoids_insertDependencies _ _ ps⟩

@[simp] theorem avoids_validateContinuationPredecessors :
    ∀ ps : List TaskId, Avoids .unreconciled (s.validateContinuationPredecessors project ps)
  | [] => avoids_ok
  | _ :: ps => by
    simp [validateContinuationPredecessors, avoids_validateContinuationPredecessors ps]

@[simp] theorem avoids_insertTask {run : Run} {task : Task} :
    Avoids .unreconciled (s.insertTask env run task) := by
  have hbinding : ∀ s : State, Avoids .unreconciled (s.insertBinding env task) := by
    intro s
    unfold insertBinding
    split <;> simp
  simp [insertTask, hbinding]

/-- A new task is not refused with that error. -/
theorem avoids_admitNew {predecessors : List TaskId} {toolchain : Option String} :
    Avoids .unreconciled (s.admitNew env create identity predecessors toolchain) := by
  simp [admitNew, retireIfDue, retireTerminalSpecs, tryLinked]

end WorkspaceRuntime
