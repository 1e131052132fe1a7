import WorkspaceRuntime.Store.Continuation

/-!
# Retention of specs

A sweep releases the specs of terminal tasks that are past the retention window: the rows keep their
summaries, and a spec body goes once neither a task nor a run names it.
-/

namespace WorkspaceRuntime

open Fallible

/-- The idempotency aggregate of a project. -/
def projectAggregate (project : Option ProjectId) : String := project.getD "unscoped"

namespace State

/-- The run's creation receipt is still inside the replay window. -/
def replayable (s : State) (run : Run) (replayCutoff : Time) : Bool :=
  run.idempotencyKey.any fun key =>
    (s.receipts.lookup (.taskCreate, projectAggregate run.projectId, key)).any
      fun receipt => replayCutoff ≤ receipt.createdAt

/-- Some continuation that is not terminal names the task as a predecessor. -/
def neededByContinuation (s : State) (t : TaskId) : Bool :=
  s.dependencies.entries.any fun e =>
    e.2 = t && (s.tasks.lookup e.1.1).any fun c => !c.status.terminal

/-- The task's spec, effect and request are retired by the sweep. -/
def retirable (s : State) (cutoff replayCutoff : Time) (t : TaskId) (row : Task) : Bool :=
  row.spec.isSome && row.status.terminal && row.updatedAt < cutoff
    && (s.runs.lookup row.runId).any (fun run =>
      run.status.terminal && run.updatedAt < cutoff && !s.replayable run replayCutoff)
    && !s.neededByContinuation t

/-- The first `UPDATE` of the sweep. -/
def retireTasks (s : State) (cutoff replayCutoff : Time) : State :=
  { s with tasks := s.tasks.mapRows fun t row =>
      if s.retirable cutoff replayCutoff t row then
        { row with spec := none, expectedEffect := none, executionRequest := none }
      else row }

/-- The second `UPDATE` of the sweep. -/
def retireRuns (s : State) (cutoff : Time) : State :=
  { s with runs := s.runs.mapRows fun r run =>
      if run.status.terminal && run.updatedAt < cutoff
          && !(s.tasks.entries.any fun e => e.2.runId = r && e.2.spec.isSome) then
        { run with spec := none }
      else run }

/-- A task or a run names the spec. -/
def referenced (s : State) (spec : TaskSpec) : Bool :=
  (s.tasks.entries.any fun e => e.2.spec = some spec)
    || s.runs.entries.any fun e => e.2.spec = some spec

/-- The `DELETE` of the sweep. -/
def removeSpecs (s : State) : State :=
  { s with specs := s.specs.filter s.referenced }

/-- `retire_terminal_specs`. -/
def retireTerminalSpecs (env : Env) (s : State) : Except Err State := do
  require (2 ≤ env.retentionDays) (.validation "retention_days must be an integer of at least 2")
  let cutoff := env.now - days env.retentionDays
  return ((s.retireTasks cutoff (env.now - resultWindow)).retireRuns cutoff).removeSpecs

end State

end WorkspaceRuntime
