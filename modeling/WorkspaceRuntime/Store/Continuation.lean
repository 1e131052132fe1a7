import Mathlib.Data.List.Sort
import WorkspaceRuntime.Store.Binding

/-!
# Continuations

A continuation is a task that waits for two predecessors and takes its inputs from their outputs.
`admitContinuation` resolves the inputs once, when both predecessors are completed; it is tried when
the continuation is created, when a predecessor changes, and when the continuation is claimed.
-/

namespace WorkspaceRuntime

open Fallible

/-! ## Task inputs -/

/-- `_validate_storage_estimate`. -/
def validateStorageEstimate (estimate : StorageEstimate) : Except Err Unit := do
  require (estimate.scratchBytes ≤ maxStorageEstimateBytes)
    (.validation "storage_estimate.scratch_bytes is out of range")
  require (estimate.outputBytes ≤ maxStorageEstimateBytes)
    (.validation "storage_estimate.output_bytes is out of range")
  require (estimate.scratchBytes + estimate.outputBytes ≤ maxStorageEstimateBytes)
    (.validation "storage_estimate total is out of range")

/-- The digests of an input list, which must be distinct; `seen` are those before it. -/
def inputDigests : List String → List String → Except Err (List String)
  | [], seen => .ok seen
  | id :: ids, seen => do
    let digest ← orThrow (objectDigest id)
      (.validation "input_object_ids must contain sha256 object IDs")
    require (digest ∉ seen) (.validation "input_object_ids must be unique")
    inputDigests ids (seen ++ [digest])

/-- The object is stored and associated with the project. -/
def State.associated (s : State) (project : Option ProjectId) (digest : String) : Prop :=
  ∃ p ∈ project, digest ∈ s.objects ∧ (p, digest) ∈ s.projectObjects

instance (s : State) (project : Option ProjectId) (digest : String) :
    Decidable (s.associated project digest) :=
  inferInstanceAs (Decidable (∃ p ∈ project, _))

/-- `_validate_task_inputs`. -/
def State.validateTaskInputs (s : State) (project : Option ProjectId) (spec : TaskSpec) :
    Except Err Unit := do
  match spec.storageEstimate with
  | some estimate => validateStorageEstimate estimate
  | none => pure ()
  let digests ← inputDigests spec.inputObjectIds []
  require (digests ≠ [] → project ≠ none)
    (.validation "project is required when input_object_ids are supplied")
  require (∀ d ∈ digests, s.associated project d)
    (.conflict "task input object is not associated with the task project")

/-! ## Dependency edges -/

/-- One edge of `runtime_dependencies`. -/
def edgePredecessor (edge : Json) : Except Err TaskId := do
  let fields ← orThrow edge.asObj (.validation "runtime dependency edges must be objects")
  let predecessor ← orThrow ((fields.get "from_task_id").bind Json.asStr)
    (.validation "runtime dependency edge requires from_task_id")
  require (predecessor ≠ "") (.validation "runtime dependency edge requires from_task_id")
  require (fields.get "to" = some (.str "self") ∧
      fields.get "requires_event" = some (.str "task.succeeded") ∧
      fields.get "fence" = some (.str "runtime_task"))
    (.validation "runtime dependency edge must require fenced task.succeeded for self")
  return predecessor

/-- The `runtime_dependencies` of a spec that names some. -/
def TaskSpec.runtimeDependencies (spec : TaskSpec) : Option Json :=
  match spec.spec.bind (·.get? "runtime_dependencies") with
  | some .null | none => none
  | some dependencies => some dependencies

/-- `_continuation_predecessors`: the two predecessors in order, or none. -/
def continuationPredecessors (spec : TaskSpec) : Except Err (List TaskId) :=
  match spec.runtimeDependencies with
  | none => .ok []
  | some dependencies => do
    let fields ← orThrow dependencies.asObj (.validation "runtime_dependencies must be an object")
    let shape := Err.validation
      "runtime continuation requires exactly two ordered dependency edges"
    let edges ← orThrow ((fields.get "edges").bind Json.asArr) shape
    require (edges.length = 2) shape
    require (((fields.get "aggregation").bind (·.get? "kind")) = some (.str "ordered_cas_inputs"))
      (.validation "runtime continuation requires ordered_cas_inputs aggregation")
    require (spec.inputObjectIds = [])
      (.validation "runtime continuation inputs are derived from predecessor outputs")
    let predecessors ← edges.mapM edgePredecessor
    require predecessors.Nodup
      (.validation "runtime continuation predecessor task ids must be unique")
    return predecessors

/-! ## Admission -/

/-- A dependency row joined with its predecessor. -/
structure DependencyRow where
  ordinal : Nat
  taskId : TaskId
  row : Task
  deriving DecidableEq

/-- The predecessor of the task with this ordinal. -/
def State.dependencyRow (s : State) (t : TaskId) (ordinal : Nat) : Option DependencyRow :=
  (s.dependencies.lookup (t, ordinal)).bind fun p =>
    (s.tasks.lookup p).map fun row => { ordinal, taskId := p, row }

/-- `_continuation_rows`, in ordinal order. -/
def State.continuationRows (s : State) (t : TaskId) : List DependencyRow :=
  [0, 1].filterMap (s.dependencyRow t)

/-- `_continuation_waiting_reason`. -/
def continuationWaitingReason (rows : List DependencyRow) : Option WaitingReason :=
  if ∃ r ∈ rows, r.row.status = .cancelled then some .dependencyCancelled
  else if ∃ r ∈ rows, r.row.status = .failed then some .dependencyFailed
  else if ∃ r ∈ rows, r.row.status ≠ .completed then some .waitingForDependencies
  else none

/-- The outputs of a stored result. -/
def Task.outputs (row : Task) : Option (List Json) :=
  ((row.result.getD (.obj [])).get? "outputs").bind Json.asArr

/-- The digest of a settled output, when it is an object id. -/
def outputDigest (output : Json) : Option String :=
  ((output.get? "digest").bind Json.asStr).filter fun d => (objectDigest d).isSome

/-- The outputs of one predecessor, each with a valid digest. -/
def resolveChild (r : DependencyRow) : Except Err ResolvedChild := do
  let outputs ← orThrow r.row.outputs
    (.validation "runtime continuation predecessor result has no outputs")
  require (∀ o ∈ outputs, (outputDigest o).isSome)
    (.validation "runtime continuation predecessor output is invalid")
  return { taskId := r.taskId, ordinal := r.ordinal, outputs }

/-- Append a digest unless it is there. -/
def appendNew (inputs : List String) (digest : String) : List String :=
  if digest ∈ inputs then inputs else inputs ++ [digest]

/-- The output digests of the predecessors, in order. -/
def childDigests (children : List ResolvedChild) : List String :=
  (children.flatMap (·.outputs)).filterMap outputDigest

/-- The inputs a continuation derives from its predecessors. -/
def orderedInputs (children : List ResolvedChild) : List String :=
  (childDigests children).foldl appendNew []

/-- `resolved_children` as it is written into the spec. -/
def resolvedChildrenJson (children : List ResolvedChild) : Json :=
  .arr (children.map fun c =>
    .obj [("ordinal", .int c.ordinal), ("outputs", .arr c.outputs), ("task_id", .str c.taskId)])

/-- `spec["spec"]["runtime_dependencies"]["resolved_children"] = resolved_children`. -/
def setResolvedChildren (spec : TaskSpec) (children : List ResolvedChild) :
    Except Err TaskSpec := do
  let inner ← orThrow spec.spec (.keyError "spec")
  let fields ← orThrow inner.asObj (.keyError "spec")
  let dependencies ← orThrow ((fields.get "runtime_dependencies").bind Json.asObj)
    (.keyError "runtime_dependencies")
  let resolved := dependencies.set "resolved_children" (resolvedChildrenJson children)
  return { spec with spec := some (.obj (fields.set "runtime_dependencies" (.obj resolved))) }

namespace State

/-- The branch of `_admit_continuation` in which both predecessors are completed. -/
def resolveContinuation (s : State) (t : TaskId) (task : Task) (rows : List DependencyRow)
    (now : Time) : Except Err State := do
  let children ← rows.mapM resolveChild
  let spec ← s.loadSpec task.spec
  let resolved ← setResolvedChildren { spec with inputObjectIds := orderedInputs children } children
  let run ← orThrow (s.runs.lookup task.runId) (.keyError "run")
  s.validateTaskInputs run.projectId resolved
  let admission : ContinuationAdmission :=
    { children, inputObjectIds := orderedInputs children, admittedAt := now }
  return (s.admitRow t admission resolved).appendEvent task.runId (some t)
    (.continuationAdmitted admission) now

/-- `_admit_continuation`. -/
def admitContinuation (s : State) (t : TaskId) (now : Time) : Except Err State :=
  let rows := s.continuationRows t
  if rows = [] then .ok s
  else match s.tasks.lookup t with
    | none => .ok s
    | some task =>
      if task.status ≠ .queued then .ok s
      else if (s.admissions.lookup t).isSome then .ok s
      else match continuationWaitingReason rows with
        | some reason => .ok (s.setWaitingReason t (some reason) now)
        | none => s.resolveContinuation t task rows now

/-- One round of `_refresh_continuations_for_predecessor`. -/
def refreshContinuation (now : Time) (s : State) (t : TaskId) : Except Err State := do
  let tried ← s.admitContinuation t now
  let reason := continuationWaitingReason (tried.continuationRows t)
  return if (tried.admissions.lookup t).isSome then tried else tried.setWaitingReason t reason now

/-- The continuations that name the task as a predecessor, in id order. -/
def continuationsOf (s : State) (p : TaskId) : List TaskId :=
  ((s.dependencies.entries.filter fun e => e.2 = p).map fun e => e.1.1).insertionSort (· ≤ ·)

/-- `_refresh_continuations_for_predecessor`. -/
def refreshContinuationsForPredecessor (s : State) (p : TaskId) (now : Time) : Except Err State :=
  (s.continuationsOf p).foldlM (refreshContinuation now) s

/-- `_validate_continuation_predecessors`. -/
def validateContinuationPredecessors (s : State) (project : Option ProjectId) :
    List TaskId → Except Err Unit
  | [] => .ok ()
  | p :: ps => do
    let row ← orThrow (s.tasks.lookup p)
      (.notFound "runtime continuation predecessor task not found")
    let run ← orThrow (s.runs.lookup row.runId)
      (.notFound "runtime continuation predecessor task not found")
    require (run.projectId = project)
      (.conflict "runtime continuation predecessor is outside the task project")
    s.validateContinuationPredecessors project ps

end State

end WorkspaceRuntime
