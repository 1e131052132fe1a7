import WorkspaceRuntime.Model.Request
import WorkspaceRuntime.Model.Rows

/-!
# Reading tasks and their execution bindings

A task row names its spec by digest and keeps its admitted execution request, which every read
validates again against the input list of the current spec. A targeted task has one binding row; it
is `prepared` while the task waits and `claimed` while an attempt holds it.
-/

namespace WorkspaceRuntime

open Fallible

namespace State

/-- `_load_spec`: a retired spec reads as the body without keys. -/
def loadSpec (s : State) (digest : Option TaskSpec) : Except Err TaskSpec :=
  match digest with
  | none => .ok {}
  | some spec => do
    require (spec ∈ s.specs) (.validation "task spec reference is missing or corrupt")
    return spec

/-- `_execution_request_from_row`. A spec body has no nested request of its own, so the legacy read
path finds none. -/
def executionRequestFromRow (s : State) (row : Task) : Except Err (Option Json) := do
  let spec ← s.loadSpec row.spec
  match row.executionRequest with
  | some request => some <$> normalizeExecutionRequest request spec.inputObjectIds
  | none => return none

/-- The stored request of a task; none when there is no such task. -/
def storedRequest (s : State) (t : TaskId) : Except Err (Option Json) :=
  match s.tasks.lookup t with
  | some row => s.executionRequestFromRow row
  | none => .ok none

/-- The decision an event records, when it is a placement recovery of the task. -/
def placementDecision (t : TaskId) (e : Event) : Option PlacementDecision :=
  match e.kind with
  | .placementRecovered decision => if e.taskId = some t then some decision else none
  | _ => none

/-- `placement_recovery`: the latest decision for the task. -/
def placementRecovery (s : State) (t : TaskId) : Option PlacementDecision :=
  (s.events.filterMap (placementDecision t)).getLast?

end State

/-- `_execution_binding_from_row`: the binding with what it derives from the request and the
recovery decisions. -/
structure BindingView where
  row : Binding
  originalTarget : Option Json
  effectiveTarget : Json
  placementVersion : Nat
  deriving DecidableEq, Repr

/-- The binding belongs to an attempt whose external executor is verified and not known to have
stopped. -/
def Binding.unresolvedExternal (b : Binding) : Bool :=
  (b.status = .claimed || b.status = .stale) &&
    match b.placement with
    | some p => p.verified && p.actual.asObj.any (fun fields => !fields.isEmpty)
    | none => false

/-- `unresolved_external` on what `execution_binding` returned. -/
def unresolvedExternal : Option BindingView → Bool
  | some view => view.row.unresolvedExternal
  | none => false

namespace State

/-- `execution_binding`. -/
def executionBinding (s : State) (t : TaskId) : Except Err (Option BindingView) :=
  match s.bindings.lookup t with
  | none => .ok none
  | some b => do
    let request ← s.storedRequest t
    let recovery := s.placementRecovery t
    return some {
      row := b
      originalTarget := request.bind (·.get? "target")
      effectiveTarget := (recovery.map (·.replacementTarget)).getD b.selected
      placementVersion := (recovery.map (·.placementVersion)).getD 0 }

/-- `effective_execution_target`. -/
def effectiveExecutionTarget (s : State) (t : TaskId) : Except Err (Option Json) :=
  match s.placementRecovery t with
  | some decision => .ok (some decision.replacementTarget)
  | none => do
    let request ← s.storedRequest t
    return request.bind (·.get? "target")

/-- `get_task`: the row, once its spec, its request and its binding have been read. -/
def getTask (s : State) (t : TaskId) : Except Err Task := do
  let row ← orThrow (s.tasks.lookup t) (.notFound "task not found")
  let _ ← orThrow (s.runs.lookup row.runId) (.keyError "run")
  let _ ← s.executionRequestFromRow row
  let _ ← s.executionBinding t
  return row

/-- `bind_execution_attempt`. -/
def bindExecutionAttempt (s : State) (t : TaskId) (a : AttemptId) (lease : LeaseId) (fence : Nat)
    (executor : ExecutorId) (epoch : Nat) (placement : Option Placement) (now : Time) :
    Except Err (State × Option BindingView) := do
  match ← s.executionBinding t, placement with
  | none, _ => return (s, none)
  | some _, none =>
    .error (.conflict "verified actual placement does not match execution selector")
  | some current, some p =>
    require (executionPlacementMatches current.row.selected p)
      (.conflict "verified actual placement does not match execution selector")
    require (current.row.status = .prepared)
      (.conflict "execution binding is no longer claimable")
    let bound := s.claimBinding t a lease fence executor epoch p now
    let view ← bound.executionBinding t
    return (bound, view)

/-- `reset_execution_attempt`. -/
def resetExecutionAttempt (s : State) (t : TaskId) (epoch : Nat) (now : Time) :
    Except Err State := do
  let selected ← s.effectiveExecutionTarget t
  return s.resetBinding t selected epoch now

end State

end WorkspaceRuntime
