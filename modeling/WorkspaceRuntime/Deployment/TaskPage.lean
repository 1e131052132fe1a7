import Mathlib.Data.List.Dedup
import Mathlib.Data.List.Perm.Subperm
import WorkspaceRuntime.Deployment.Read

/-!
# Reading a page of tasks

`get_task` reads one task with a query for each of its parts. `_task_page` first reads the parts of
all the tasks of a page, each kind with one query: the rows, their runs, the specs that they share,
their bindings and their latest events. Both then build the value of a task with `_task_result`. The
limit of the database on the variables of a query is left out.
-/

namespace WorkspaceRuntime

open Fallible

/-! ## Values -/

/-- What a read of a task returns. What repeats a column of the row or a field of the spec is left
out; a binding carries the recovery that it was read with. -/
structure TaskValue where
  run : Run
  task : Task
  specRetired : Bool
  executionRequest : Option Json
  spec : Json.Fields
  generationIntent : Option Json
  binding : Option (BindingView × Option PlacementDecision)

/-- `_task_result`. -/
def taskResult (run : Run) (task : Task) (spec : TaskSpec) (executionRequest : Option Json)
    (binding : Option (BindingView × Option PlacementDecision)) : TaskValue :=
  let (public_, generationIntent) := Deployment.publicTaskSpec spec.storedFields
  { run, task, specRetired := task.spec.isNone, executionRequest, spec := public_, generationIntent
    binding }

/-- `_execution_request_from_row`, with a spec that has been read. -/
def requestFromRow (row : Task) (spec : TaskSpec) : Except Err (Option Json) :=
  match row.executionRequest with
  | some request => some <$> normalizeExecutionRequest request spec.inputObjectIds
  | none => .ok none

/-- `_execution_binding_from_row`, with a request and a recovery that have been read. -/
def bindingFromRow (request : Option Json) (recovery : Option PlacementDecision) (b : Binding) :
    BindingView where
  row := b
  originalTarget := request.bind (·.get? "target")
  effectiveTarget := (recovery.map (·.replacementTarget)).getD b.selected
  placementVersion := (recovery.map (·.placementVersion)).getD 0

/-- The recovery that an event records, and the task it is about. -/
def recoveredEvent (e : Event) : Option (TaskId × PlacementDecision) :=
  match e.taskId, e.kind with
  | some t, .placementRecovered decision => some (t, decision)
  | _, _ => none

/-- The progress that an event records, and the task it is about. -/
def progressEvent (e : Event) : Option (TaskId × Json) :=
  match e.taskId, e.kind with
  | some t, .progress payload => some (t, payload)
  | _, _ => none

/-- The payload of the last event of a task. -/
def latest {α : Type} (t : TaskId) (events : List (TaskId × α)) : Option α :=
  (events.filter (·.1 = t)).getLast?.map Prod.snd

namespace State

variable (s : State) (ids : List TaskId) (t : TaskId)

/-! ## One task -/

/-- The value of `get_task`. -/
def readTask : Except Err TaskValue := do
  let row ← s.getTask t
  let run ← orThrow (s.runs.lookup row.runId) (.keyError "run")
  let spec ← s.loadSpec row.spec
  let request ← s.executionRequestFromRow row
  let binding ← s.executionBinding t
  return taskResult run row spec request (binding.map fun view => (view, s.placementRecovery t))

/-- The latest progress event of the task, if its payload is an object. -/
def latestProgress : Option Json :=
  (latest t (s.events.filterMap progressEvent)).filter (·.asObj.isSome)

/-! ## A page -/

/-- The rows of a page. -/
def pageRows : Table TaskId Task := s.tasks.filter fun t _ => t ∈ ids

/-- The digests that they name. -/
def pageDigests : List TaskSpec := ((s.pageRows ids).entries.filterMap (·.2.spec)).dedup

/-- The specs that are stored under these digests. -/
def pageSpecs : List TaskSpec := (s.specs.filter (· ∈ s.pageDigests ids)).dedup

/-- The spec of a row, among those of the page. -/
def pageSpec (row : Task) : Except Err TaskSpec :=
  match row.spec with
  | none => .ok {}
  | some spec => do
    require (spec ∈ s.pageSpecs ids) (.keyError "spec_digest")
    return spec

/-- One round of the loop of `_task_page`, with what was read for the page. -/
def pageTask : Except Err TaskValue := do
  let row ← orThrow ((s.pageRows ids).lookup t) (.keyError t)
  let spec ← s.pageSpec ids row
  let request ← requestFromRow row spec
  let runs := s.runs.filter fun r _ => r ∈ (s.pageRows ids).entries.map (·.2.runId)
  let run ← orThrow (runs.lookup row.runId) (.keyError row.runId)
  let recovery := latest t ((s.events.filterMap recoveredEvent).filter (·.1 ∈ ids))
  let bindings := s.bindings.filter fun t _ => t ∈ ids
  return taskResult run row spec request
    ((bindings.lookup t).map fun b => (bindingFromRow request recovery b, recovery))

/-- The progress that the round finds. -/
def pageProgress : Option Json :=
  (latest t ((s.events.filterMap progressEvent).filter (·.1 ∈ ids))).filter (·.asObj.isSome)

/-- `_task_page`: what the rounds of the loop enter into the values and into the progress. -/
def taskPage : Except Err (List (TaskId × TaskValue) × List (TaskId × Json)) := do
  if ids = [] then
    return ([], [])
  else
    require ((s.pageSpecs ids).length = (s.pageDigests ids).length)
      (.validation "task spec reference is missing or corrupt")
    let values ← ids.mapM fun t => return (t, ← s.pageTask ids t)
    return (values, ids.filterMap fun t => (s.pageProgress ids t).map (t, ·))

/-! ## Both read the same -/

variable {s t ids} {v : TaskValue}

theorem readTask_eq_ok :
    s.readTask t = .ok v ↔ ∃ row spec request run, s.tasks.lookup t = some row ∧
      s.loadSpec row.spec = .ok spec ∧ requestFromRow row spec = .ok request ∧
      s.runs.lookup row.runId = some run ∧ taskResult run row spec request
        ((s.bindings.lookup t).map fun b =>
          (bindingFromRow request (s.placementRecovery t) b, s.placementRecovery t)) = v := by
  have hrequest : ∀ row, s.executionRequestFromRow row =
      (s.loadSpec row.spec >>= requestFromRow row) := fun _ => rfl
  have hbinding : ∀ {row request}, s.tasks.lookup t = some row →
      s.executionRequestFromRow row = .ok request → s.executionBinding t =
        .ok ((s.bindings.lookup t).map (bindingFromRow request (s.placementRecovery t))) := by
    intro row request hrow hread
    unfold executionBinding
    cases s.bindings.lookup t with
    | none => rfl
    | some b => simp [storedRequest, hrow, hread, bindingFromRow]
  simp only [readTask, getTask, bind_eq_ok, orThrow_eq_ok, return_ok]
  constructor
  · rintro ⟨_, ⟨row, hrow, _, -, _, -, _, -, rfl⟩, run, hrun, spec, hspec, request, hread, view,
      hview, rfl⟩
    obtain rfl := Except.ok.inj ((hbinding hrow hread).symm.trans hview)
    rw [hrequest, hspec, ok_bind] at hread
    exact ⟨row, spec, request, run, hrow, hspec, hread, hrun, by rw [Option.map_map]; rfl⟩
  · rintro ⟨row, spec, request, run, hrow, hspec, hread, hrun, rfl⟩
    have hread : s.executionRequestFromRow row = .ok request := by
      rw [hrequest, hspec, ok_bind, hread]
    exact ⟨row, ⟨row, hrow, run, hrun, request, hread, _, hbinding hrow hread, rfl⟩, run, hrun, spec,
      hspec, request, hread, _, hbinding hrow hread, by rw [Option.map_map]; rfl⟩

theorem mem_pageSpecs {spec : TaskSpec} :
    spec ∈ s.pageSpecs ids ↔ spec ∈ s.specs ∧ spec ∈ s.pageDigests ids := by
  simp [pageSpecs]

/-- As many specs are found as there are digests when each of them is stored. -/
theorem pageSpecs_length :
    (s.pageSpecs ids).length = (s.pageDigests ids).length ↔
      ∀ spec ∈ s.pageDigests ids, spec ∈ s.specs := by
  have hsub : (s.pageSpecs ids).Subperm (s.pageDigests ids) :=
    List.subperm_of_subset (List.nodup_dedup _) fun _ h => (mem_pageSpecs.mp h).2
  constructor
  · intro h spec hspec
    exact (mem_pageSpecs.mp ((hsub.perm_of_length_le h.ge).mem_iff.mpr hspec)).1
  · intro h
    have hsup : (s.pageDigests ids).Subperm (s.pageSpecs ids) :=
      List.subperm_of_subset (List.nodup_dedup _) fun spec hspec =>
        mem_pageSpecs.mpr ⟨h spec hspec, hspec⟩
    exact hsub.length_le.antisymm hsup.length_le

theorem mem_pageDigests {spec : TaskSpec} : spec ∈ s.pageDigests ids ↔
    ∃ t ∈ ids, ∃ row, s.tasks.lookup t = some row ∧ row.spec = some spec := by
  simp only [pageDigests, pageRows, Table.filter, List.mem_dedup, List.mem_filterMap,
    List.mem_filter, decide_eq_true_eq, Prod.exists, Table.lookup_eq_some_iff]
  constructor
  · rintro ⟨t, row, ⟨hrow, ht⟩, hspec⟩
    exact ⟨t, ht, row, hrow, hspec⟩
  · rintro ⟨t, ht, row, hrow, hspec⟩
    exact ⟨t, row, ⟨hrow, ht⟩, hspec⟩

theorem pageSpec_eq_ok {row : Task} {spec : TaskSpec} (ht : t ∈ ids)
    (hrow : s.tasks.lookup t = some row) :
    s.pageSpec ids row = .ok spec ↔ s.loadSpec row.spec = .ok spec := by
  unfold pageSpec loadSpec
  cases hdigest : row.spec with
  | none => exact Iff.rfl
  | some digest =>
    have hmem := mem_pageDigests.mpr ⟨t, ht, row, hrow, hdigest⟩
    simp only [bind_eq_ok, require_eq_ok, mem_pageSpecs, hmem, and_true]

/-- The latest event of a task is among those of the page. -/
theorem latest_filter {α : Type} (events : List (TaskId × α)) (ht : t ∈ ids) :
    latest t (events.filter (·.1 ∈ ids)) = latest t events := by
  unfold latest
  rw [List.filter_filter]
  congr 3
  funext e
  by_cases he : e.1 = t <;> simp [he, ht]

theorem latest_recovered : latest t (s.events.filterMap recoveredEvent) = s.placementRecovery t := by
  have hevent : ∀ e, placementDecision t e =
      ((recoveredEvent e).filter (·.1 = t)).map Prod.snd := by
    intro e
    unfold placementDecision recoveredEvent
    cases e.kind <;> cases e.taskId <;> simp [Option.filter_some]
  rw [latest, placementRecovery, funext hevent, ← List.map_filterMap, ← List.filter_filterMap,
    List.getLast?_map]

/-- A round of the loop reads what a read of the task does. -/
theorem pageTask_eq_ok (ht : t ∈ ids) : s.pageTask ids t = .ok v ↔ s.readTask t = .ok v := by
  have hkey : decide (t ∈ ids) = true := decide_eq_true ht
  have hrow : (s.pageRows ids).lookup t = s.tasks.lookup t :=
    Table.lookup_filter_key hkey
  have hbinding : (s.bindings.filter fun t _ => t ∈ ids).lookup t = s.bindings.lookup t :=
    Table.lookup_filter_key hkey
  have hrun : ∀ {row}, s.tasks.lookup t = some row → (s.runs.filter fun r _ =>
      r ∈ (s.pageRows ids).entries.map (·.2.runId)).lookup row.runId = s.runs.lookup row.runId := by
    intro row h
    have hmem : (t, row) ∈ (s.pageRows ids).entries := Table.lookup_eq_some_iff.mp (hrow.trans h)
    exact Table.lookup_filter_key (decide_eq_true (List.mem_map.mpr ⟨_, hmem, rfl⟩))
  simp only [pageTask, readTask_eq_ok, bind_eq_ok, orThrow_eq_ok, return_ok, hrow, hbinding,
    latest_filter _ ht, latest_recovered]
  constructor
  · rintro ⟨row, h, spec, hspec, request, hrequest, run, hlookup, rfl⟩
    exact ⟨row, spec, request, run, h, (pageSpec_eq_ok ht h).mp hspec, hrequest,
      (hrun h).symm.trans hlookup, rfl⟩
  · rintro ⟨row, spec, request, run, h, hspec, hrequest, hlookup, rfl⟩
    exact ⟨row, h, spec, (pageSpec_eq_ok ht h).mpr hspec, request, hrequest, run,
      (hrun h).trans hlookup, rfl⟩

/-- A digest without a spec fails the read of a task that names it. -/
theorem stored_of_reads (h : ∀ t ∈ ids, ∃ v, s.readTask t = .ok v) :
    ∀ spec ∈ s.pageDigests ids, spec ∈ s.specs := by
  intro spec hspec
  obtain ⟨t, ht, row, hrow, hdigest⟩ := mem_pageDigests.mp hspec
  obtain ⟨v, hv⟩ := h t ht
  obtain ⟨row', loaded, _, _, hrow', hloaded, -⟩ := readTask_eq_ok.mp hv
  obtain rfl := Option.some.inj (hrow.symm.trans hrow')
  simp only [loadSpec, hdigest, bind_eq_ok, require_eq_ok] at hloaded
  exact hloaded.choose_spec.1

theorem taskPage_eq_ok {values : List (TaskId × TaskValue)} {progress : List (TaskId × Json)} :
    s.taskPage ids = .ok (values, progress) ↔ (∀ spec ∈ s.pageDigests ids, spec ∈ s.specs) ∧
      ids.mapM (fun t => return (t, ← s.pageTask ids t)) = .ok values ∧
      ids.filterMap (fun t => (s.pageProgress ids t).map (t, ·)) = progress := by
  unfold taskPage
  split
  next hnil =>
    subst hnil
    simp [pageDigests, pageRows, Table.filter]
  next =>
    simp [bind_eq_ok, pageSpecs_length]

/-- **Bulk reads.** A page is read exactly when each of its tasks can be read alone, and then its
values and its progress are those of the single reads. -/
theorem bulk_reads_agree (s : State) (ids : List TaskId) :
    ((∃ page, s.taskPage ids = .ok page) ↔ ∀ t ∈ ids, ∃ v, s.readTask t = .ok v) ∧
      ∀ values progress, s.taskPage ids = .ok (values, progress) →
        (∀ t v, (t, v) ∈ values ↔ t ∈ ids ∧ s.readTask t = .ok v) ∧
        ∀ t p, (t, p) ∈ progress ↔ t ∈ ids ∧ s.latestProgress t = some p := by
  refine ⟨⟨?_, fun h => ?_⟩, fun values progress h => ?_⟩
  · rintro ⟨⟨values, progress⟩, h⟩ t ht
    obtain ⟨-, hvalues, -⟩ := taskPage_eq_ok.mp h
    obtain ⟨_, hround, -⟩ := mem_of_mapM hvalues ht
    obtain ⟨v, hv, -⟩ := bind_eq_ok.mp hround
    exact ⟨v, (pageTask_eq_ok ht).mp hv⟩
  · have hround : ∀ t ∈ ids, ∃ e, (return (t, ← s.pageTask ids t)) = Except.ok e := by
      intro t ht
      obtain ⟨v, hv⟩ := h t ht
      exact ⟨(t, v), bind_eq_ok.mpr ⟨v, (pageTask_eq_ok ht).mpr hv, rfl⟩⟩
    obtain ⟨values, hvalues⟩ := mapM_succeeds hround
    exact ⟨_, taskPage_eq_ok.mpr ⟨stored_of_reads h, hvalues, rfl⟩⟩
  · obtain ⟨-, hvalues, rfl⟩ := taskPage_eq_ok.mp h
    refine ⟨fun t v => ⟨fun hmem => ?_, fun ⟨ht, hv⟩ => ?_⟩, fun t p => ?_⟩
    · obtain ⟨u, hu, hround⟩ := exists_of_mem_mapM hvalues hmem
      obtain ⟨w, hw, heq⟩ := bind_eq_ok.mp hround
      obtain ⟨rfl, rfl⟩ := Prod.mk.inj (Except.ok.inj heq)
      exact ⟨hu, (pageTask_eq_ok hu).mp hw⟩
    · obtain ⟨e, hround, hmem⟩ := mem_of_mapM hvalues ht
      rw [(pageTask_eq_ok ht).mpr hv, ok_bind] at hround
      exact Except.ok.inj hround ▸ hmem
    · simp only [List.mem_filterMap, Option.map_eq_some_iff, Prod.mk.injEq]
      constructor
      · rintro ⟨u, hu, _, hp, rfl, rfl⟩
        exact ⟨hu, by rwa [pageProgress, latest_filter _ hu] at hp⟩
      · rintro ⟨ht, hp⟩
        exact ⟨t, ht, p, by rwa [pageProgress, latest_filter _ ht], rfl, rfl⟩

end State

end WorkspaceRuntime
