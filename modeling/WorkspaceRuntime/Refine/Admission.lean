import WorkspaceRuntime.Refine.Continuation
import WorkspaceRuntime.Refine.Frame

/-!
# Retention and admission

A sweep retires the specs of terminal tasks. An admission inserts the rows of one task, all of them
at once as far as the invariant is concerned (`Inserts`), and then tries a continuation.
-/

namespace WorkspaceRuntime

open Fallible State Table

variable {now : Time} {env : Env} {s s' : State} {t : TaskId} {A : TaskId → Label → Prop}
  {project : Option ProjectId} {task : Task} {sp : TaskSpec} {predecessors : List TaskId}
  {identity : AdmissionIdentity} {create : TaskCreation} {digest : Option String}
  {waiting : Option WaitingReason} {facts executionRequest : Option Json} {a : Admitted}

/-! ## Retention -/

/-- The sweep at this time releases the spec of the task. -/
def State.retires (env : Env) (s : State) (t : TaskId) (row : Task) : Bool :=
  s.retirable (env.now - days env.retentionDays) (env.now - resultWindow) t row

/-- The label of a sweep, for the tasks that it retires. -/
def retireLabels (env : Env) (s : State) (t : TaskId) (l : Label) : Prop :=
  l = .retire ∧ ∃ row, s.tasks.lookup t = some row ∧ s.retires env t row = true

theorem Evolves.retireTasks :
    Evolves now (retireLabels env s) s
      (s.retireTasks (env.now - days env.retentionDays) (env.now - resultWindow)) := by
  let cutoff := env.now - days env.retentionDays
  let replayCutoff := env.now - resultWindow
  have hlookup : ∀ t, (s.retireTasks cutoff replayCutoff).tasks.lookup t =
      (s.tasks.lookup t).map fun row => if s.retirable cutoff replayCutoff t row then
        { row with spec := none, expectedEffect := none, executionRequest := none } else row :=
    fun t => lookup_mapRows _ _ _
  have hpath : ∀ t, Life now (retireLabels env s t) (s.view t)
      ((s.retireTasks cutoff replayCutoff).view t) := by
    intro t
    have hview : (s.retireTasks cutoff replayCutoff).view t =
        { s.view t with row := (s.retireTasks cutoff replayCutoff).tasks.lookup t } := rfl
    rw [hview, hlookup]
    cases hrow : s.tasks.lookup t with
    | none => exact .of_eq (by rw [Option.map_none, ← hrow]; rfl)
    | some row =>
      rw [Option.map_some]
      split
      next hret =>
        have hdone : row.status.terminal = true := by
          simp only [retirable, Bool.and_eq_true] at hret
          exact hret.1.1.1.2
        exact .single ⟨rfl, row, hrow, hret⟩ (.retire hrow hdone)
      next => exact .of_eq (by rw [← hrow]; rfl)
  have htables : SameTables s (s.retireTasks cutoff replayCutoff) :=
    ⟨rfl, rfl, rfl, fun _ h => h, rfl, rfl, rfl, rfl⟩
  refine .tame hpath (fun _ _ => id) (by rintro t _ ⟨rfl, -⟩; decide) htables.grow fun hs =>
    { hs with
      spec := fun t row sp hrow hsp => ?_
      attempt := htables.attemptsFenced hs.attempt fun t => (hpath t).later }
  rw [hlookup] at hrow
  obtain ⟨row₀, hrow₀, rfl⟩ := Option.map_eq_some_iff.mp hrow
  split at hsp
  · simp at hsp
  · exact hs.spec t row₀ sp hrow₀ hsp

theorem Evolves.retireRuns (cutoff : Time) :
    Evolves now A s (s.retireRuns cutoff) := by
  refine .frame (fun _ => rfl) { Grow.refl s with runs := fun r run hrun => ?_ } fun hs =>
    { hs with }
  simp only [State.retireRuns, lookup_mapRows, hrun, Option.map_some]
  split <;> exact ⟨_, rfl, rfl, rfl⟩

/-- The sweep deletes no spec that a task names. -/
theorem Evolves.removeSpecs : Evolves now A s s.removeSpecs := by
  refine .frame (fun _ => rfl) { Grow.refl s with } fun hs =>
    { hs with spec := fun t row sp hrow hsp => ?_ }
  have hrow : s.tasks.lookup t = some row := hrow
  refine List.mem_filter.mpr ⟨hs.spec t row sp hrow hsp, ?_⟩
  simp only [referenced, Bool.or_eq_true, List.any_eq_true, decide_eq_true_eq]
  exact .inl ⟨(t, row), lookup_eq_some_iff.mp hrow, hsp⟩

theorem State.retireTerminalSpecs_evolves (h : s.retireTerminalSpecs env = .ok s') :
    Evolves now (retireLabels env s) s s' := by
  simp only [retireTerminalSpecs, bind_eq_ok, require_eq_ok, return_ok] at h
  obtain ⟨_, -, rfl⟩ := h
  exact (Evolves.retireTasks.trans (.retireRuns _)).trans .removeSpecs

theorem State.retireIfDue_evolves (h : s.retireIfDue env = .ok s') :
    Evolves now (retireLabels env s) s s' := by
  unfold retireIfDue at h
  split at h
  · exact retireTerminalSpecs_evolves h
  · cases h
    exact .refl _

/-! ## Insertion -/

/-- A delegated spec names an attempt of a parent that is no child itself. -/
def State.Rooted (s : State) (sp : TaskSpec) : Prop :=
  ∀ lin ∈ sp.delegatedParent, (s.view lin.parentTaskId).Roots lin

/-- A run and a task were inserted, with a binding that is bound to no attempt and one dependency row
per predecessor. -/
structure Inserts (r : RunId) (t : TaskId) (run : Run) (task : Task) (predecessors : List TaskId)
    (s s' : State) : Prop where
  newTask : s.tasks.lookup t = none
  newRun : s.runs.lookup r = none
  other : ∀ t', t' ≠ t → s'.view t' = s.view t'
  row : s'.tasks.lookup t = some task
  binding : Prepared (s'.bindings.lookup t)
  selected : ∀ b ∈ s'.bindings.lookup t, ∃ q, task.executionRequest = some q ∧
    b.selected = (q.get? "target").getD .null
  decisions : (s'.view t).decisions = (s.view t).decisions
  admissions : s'.admissions = s.admissions
  reservations : s'.reservations = s.reservations
  dep : ∀ i, s'.dependencies.lookup (t, i) = predecessors[i]?
  runs : ∀ r', s'.runs.lookup r' = if r' = r then some run else s.runs.lookup r'
  tables : SameTables { s with runs := s'.runs } s'
  spec : ∀ sp ∈ task.spec, sp ∈ s'.specs

namespace Inserts

variable {r : RunId} {run : Run} {task : Task} {predecessors : List TaskId} {sp : TaskSpec}

/-- A task that was there is another one, and its rows are as they were. -/
theorem of_row (h : Inserts r t run task predecessors s s') {t' : TaskId}
    (hrow : (s.view t').row ≠ none) : t' ≠ t ∧ s'.view t' = s.view t' := by
  have hne : t' ≠ t := by
    rintro rfl
    exact hrow h.newTask
  exact ⟨hne, h.other t' hne⟩

theorem run_of_some (h : Inserts r t run task predecessors s s') {r' : RunId} {x : Run}
    (hx : s.runs.lookup r' = some x) : s'.runs.lookup r' = some x := by
  have hne : r' ≠ r := by
    rintro rfl
    simp [h.newRun] at hx
  rw [h.runs, if_neg hne, hx]

theorem grow (h : Inserts r t run task predecessors s s') : Grow s s' := by
  have hg := h.tables.grow
  exact ⟨hg.epoch, hg.attempts, fun r' x hx => ⟨x, h.run_of_some hx, .refl x⟩, hg.objects,
    hg.projectObjects⟩

/-- The projects of the tasks that were there. -/
theorem projectOf_eq (h : Inserts r t run task predecessors s s') {t' : TaskId}
    (hp : s.projectOf t' ≠ none) : t' ≠ t ∧ s'.projectOf t' = s.projectOf t' := by
  obtain ⟨p, hp⟩ := Option.ne_none_iff_exists'.mp hp
  obtain ⟨row, hrow, -⟩ := Option.bind_eq_some_iff.mp hp
  have hsome : (s.view t').row ≠ none := by
    rw [show (s.view t').row = some row from hrow]
    simp
  obtain ⟨hne, hview⟩ := h.of_row hsome
  exact ⟨hne, (projectOf_mono hp (hview ▸ .refl _) h.grow).trans hp.symm⟩

theorem projectOf_new (h : Inserts r t run task predecessors s s') (hrun : task.runId = r) :
    s'.projectOf t = some run.projectId := by
  simp [projectOf, h.row, hrun, h.runs]

/-- The tables that the new task shares with those that were there. -/
theorem shared (h : Inserts r t run task predecessors s s') (hs : Shared s) : Shared s' where
  spec := by
    intro t' row sp hrow hsp
    by_cases ht : t' = t
    · subst ht
      obtain rfl := Option.mem_unique h.row hrow
      exact h.spec sp hsp
    · have hrow' : s.tasks.lookup t' = some row :=
        (congrArg View.row (h.other _ ht)).symm.trans hrow
      exact h.tables.specs sp (hs.spec t' row sp hrow' hsp)
  attempt := by
    intro a x hx
    obtain ⟨hepoch, row, hrow, hfence⟩ := hs.attempt a x (h.tables.attempts ▸ hx)
    have hsome : (s.view x.taskId).row ≠ none := by
      rw [show (s.view x.taskId).row = some row from hrow]
      simp
    have hview := congrArg View.row (h.of_row hsome).2
    exact ⟨by simpa [currentRuntimeEpoch, h.tables.lifecycle] using hepoch, row,
      hview.trans hrow, hfence⟩
  executors := by
    have hexec : ExecutorsRegistered { s with runs := s'.runs } := hs.executors
    exact h.tables.executorsRegistered hexec

/-- The rows of the new task and those that were there fit each other. -/
theorem inv (h : Inserts r t run task predecessors s s') (hi : Inv s) (hrun : task.runId = r)
    (hcreated : (s'.view t).Created task sp)
    (hpred : ∀ p ∈ predecessors, s.projectOf p = some run.projectId)
    (hlin : s.Rooted sp) : Inv s' := by
  have hproj : ∀ t' row, s.tasks.lookup t' = some row → s.projectOf t' ≠ none := by
    intro t' row hrow
    obtain ⟨x, -, hx⟩ := hi.projectOf_row hrow
    simp [hx]
  have hold : ∀ {t' row}, t' ≠ t → s'.tasks.lookup t' = some row → s.tasks.lookup t' = some row :=
    fun hne hrow => (congrArg View.row (h.other _ hne)).symm.trans hrow
  refine ⟨h.shared hi.toShared, ?_, ?_, ?_, ?_, ?_, ?_, ?_⟩
  · intro t'
    by_cases ht : t' = t
    · exact ht ▸ hcreated.wf
    · exact h.other t' ht ▸ hi.view t'
  · intro t' row hrow
    by_cases ht : t' = t
    · subst ht
      obtain rfl := Option.mem_unique h.row hrow
      simp [hrun, h.runs]
    · obtain ⟨x, hx⟩ := Option.ne_none_iff_exists'.mp (hi.run t' row (hold ht hrow))
      simp [h.run_of_some hx]
  · -- the run is new, so no task that was there has it
    have hother : ∀ t' row, t' ≠ t → s'.tasks.lookup t' = some row → row.runId ≠ task.runId := by
      intro t' row ht hrow hid
      refine hi.run t' row (hold ht hrow) ?_
      rw [hid, hrun, h.newRun]
    intro t₁ t₂ row₁ row₂ hrow₁ hrow₂ hid
    by_cases h₁ : t₁ = t
    · by_cases h₂ : t₂ = t
      · rw [h₁, h₂]
      · subst h₁
        obtain rfl := Option.mem_unique h.row hrow₁
        exact absurd hid.symm (hother t₂ row₂ h₂ hrow₂)
    · by_cases h₂ : t₂ = t
      · subst h₂
        obtain rfl := Option.mem_unique h.row hrow₂
        exact absurd hid (hother t₁ row₁ h₁ hrow₁)
      · exact hi.single t₁ t₂ row₁ row₂ (hold h₁ hrow₁) (hold h₂ hrow₂) hid
  · intro t' lin hlineage
    have hparent : (s.view lin.parentTaskId).Roots lin := by
      by_cases ht : t' = t
      · subst ht
        refine hlin lin ?_
        simpa [View.lineage, hcreated.stored, hcreated.spec] using hlineage
      · exact hi.lineage t' lin (h.other t' ht ▸ hlineage)
    rw [(h.of_row hparent.row).2]
    exact hparent
  · intro c i p hdep
    by_cases hc : c = t
    · subst hc
      rw [h.dep] at hdep
      have hp := hpred p (List.mem_of_getElem? hdep)
      obtain ⟨hne, hpeq⟩ := h.projectOf_eq (by rw [hp]; simp)
      rw [h.projectOf_new hrun, hpeq, hp]
      exact ⟨hne, by simp, rfl⟩
    · obtain ⟨hne, hsome, heq⟩ := hi.dep c i p
        ((congrFun (congrArg View.dep (h.other c hc)) i).symm.trans hdep)
      rw [(h.projectOf_eq hsome).2, (h.projectOf_eq (heq ▸ hsome)).2]
      exact ⟨hne, hsome, heq⟩
  · intro t' result hdone
    have ht : t' ≠ t := by
      rintro rfl
      simp [View.Done, hcreated.stored, hcreated.status] at hdone
    rw [h.other t' ht] at hdone
    obtain ⟨staged, hout, hpub⟩ := hi.result t' result hdone
    obtain ⟨row, hrow, -⟩ := Option.map_eq_some_iff.mp hdone
    refine ⟨staged, hout, fun o ho => ⟨h.grow.objects _ (hpub o ho).1, fun p hp => ?_⟩⟩
    rw [(h.projectOf_eq (hproj t' row hrow)).2] at hp
    exact h.grow.projectObjects _ ((hpub o ho).2 p hp)
  · have hback : ∀ {t' k lease x}, (s'.view t').Holds k lease x → (s.view t').Holds k lease x := by
      rintro t' k lease x ⟨res, hres, hrest⟩
      have heq : (s'.view t').hold k = (s.view t').hold k := by simp [view, h.reservations]
      exact ⟨res, heq ▸ hres, hrest⟩
    exact fun t' t'' k lease lease' x hh hh' => hi.unique t' t'' k lease lease' x (hback hh) (hback hh')

theorem evolves (h : Inserts r t run task predecessors s s') (hi : Inv s) (hrun : task.runId = r)
    (hcreated : (s'.view t).Created task sp)
    (hpred : ∀ p ∈ predecessors, s.projectOf p = some run.projectId)
    (hlin : s.Rooted sp) (hA : A t (.create sp.delegatedParent)) : Evolves now A s s' := by
  have hpath : ∀ t', Life now (fun l => t' = t ∧ l = .create sp.delegatedParent) (s.view t')
      (s'.view t') := by
    intro t'
    by_cases ht : t' = t
    · subst ht
      rw [(hi.view t').blank h.newTask]
      exact .single ⟨rfl, rfl⟩ (.create hcreated)
    · exact .of_eq (h.other t' ht).symm
  exact ⟨fun t' => (hpath t').mono fun l hl => hl.1 ▸ hl.2 ▸ hA, h.grow, .of_path hpath (by simp),
    fun _ => h.inv hi hrun hcreated hpred hlin⟩

end Inserts

/-! ## The rows of an admission -/

theorem State.insertBinding_ok (h : s.insertBinding env task = .ok s') :
    ∃ bindings, s' = { s with bindings } ∧
      (∀ t, t ≠ env.newTask → bindings.lookup t = s.bindings.lookup t) ∧
      (s.bindings.lookup env.newTask = none → ∀ b ∈ bindings.lookup env.newTask,
        b.status = .prepared ∧ ∃ q, task.executionRequest = some q ∧
          b.selected = (q.get? "target").getD .null) := by
  unfold insertBinding at h
  split at h
  next =>
    refine ⟨s.bindings, (Except.ok.inj h).symm, fun _ _ => rfl, fun hnone b hb => ?_⟩
    simp [hnone] at hb
  next request hrequest =>
    simp only [bind_eq_ok, orThrow_eq_ok, return_ok] at h
    obtain ⟨bindings, hins, rfl⟩ := h
    refine ⟨bindings, rfl, fun t ht => by rw [lookup_insertNew hins, if_neg ht], fun _ => ?_⟩
    rw [lookup_insertNew hins, if_pos rfl]
    rintro b ⟨⟩
    exact ⟨rfl, request, hrequest, rfl⟩

/-- The ordinals count up from the first one. -/
theorem State.insertDependencies_ok : ∀ {ps : List TaskId} {n : Nat} {s s' : State},
    s.insertDependencies t n ps = .ok s' →
      ∃ dependencies, s' = { s with dependencies } ∧
        (∀ c i, c ≠ t → dependencies.lookup (c, i) = s.dependencies.lookup (c, i)) ∧
        ∀ i, dependencies.lookup (t, i) =
          if n ≤ i ∧ i < n + ps.length then ps[i - n]? else s.dependencies.lookup (t, i)
  | [], n, s, s', h => by
    refine ⟨s.dependencies, (Except.ok.inj h).symm, fun _ _ _ => rfl, fun i => ?_⟩
    rw [if_neg]
    simp only [List.length_nil]
    omega
  | p :: ps, n, s, s', h => by
    simp only [insertDependencies, bind_eq_ok, orThrow_eq_ok] at h
    obtain ⟨first, hins, h⟩ := h
    obtain ⟨dependencies, rfl, hother, hnew⟩ := insertDependencies_ok h
    refine ⟨dependencies, rfl, fun c i hc => ?_, fun i => ?_⟩
    · rw [hother c i hc]
      simp [lookup_insertNew hins, hc]
    · rw [hnew]
      simp only [lookup_insertNew hins, Prod.mk.injEq, true_and, List.length_cons]
      by_cases hi : i = n
      · subst hi
        rw [if_neg (by omega), if_pos rfl, if_pos (by omega)]
        simp
      · by_cases hlt : n < i ∧ i < n + 1 + ps.length
        · rw [if_pos (by omega), if_pos (by omega)]
          obtain ⟨k, rfl⟩ : ∃ k, i = n + 1 + k := ⟨i - n - 1, by omega⟩
          rw [show n + 1 + k - (n + 1) = k by omega, show n + 1 + k - n = k + 1 by omega]
          simp
        · rw [if_neg (by omega), if_neg hi, if_neg (by omega)]

/-- The statements that insert a task make one insertion. -/
theorem Inv.inserts (hi : Inv s) {run : Run} {inserted linked : State} {kind : EventKind}
    (hkind : kind.decision = none) (hspec : task.spec = some sp)
    (hins : (s.storeSpec sp).insertTask env run task = .ok inserted)
    (hlink : (inserted.appendEvent env.newRun (some env.newTask) kind env.now).insertDependencies
      env.newTask 0 predecessors = .ok linked) :
    Inserts env.newRun env.newTask run task predecessors s linked := by
  simp only [State.insertTask, bind_eq_ok, orThrow_eq_ok] at hins
  obtain ⟨runs, hruns, tasks, htasks, hins⟩ := hins
  obtain ⟨bindings, rfl, hbind, hres⟩ := State.insertBinding_ok hins
  obtain ⟨dependencies, rfl, hdep, hnew⟩ := State.insertDependencies_ok hlink
  have hnone : s.tasks.lookup env.newTask = none := insertNew_eq_some_iff.mp ⟨_, htasks⟩
  have hblank := (hi.view env.newTask).blank hnone
  have hunbound : s.bindings.lookup env.newTask = none := congrArg View.binding hblank
  have hdecisions := fun t =>
    congrArg View.decisions (s.view_appendEvent env.newRun (some env.newTask) env.now hkind t)
  simp only [State.view, State.appendEvent] at hdecisions
  refine
    { newTask := hnone
      newRun := insertNew_eq_some_iff.mp ⟨_, hruns⟩
      other := fun t' ht => ?_
      row := ?_
      binding := fun b hb => (hres hunbound b hb).1
      selected := fun b hb => (hres hunbound b hb).2
      decisions := hdecisions env.newTask
      admissions := rfl
      reservations := rfl
      dep := fun i => ?_
      runs := fun r' => lookup_insertNew hruns r'
      tables := ⟨rfl, rfl, rfl, fun _ h => State.mem_storeSpec h, rfl, rfl, rfl, rfl⟩
      spec := fun sp' hsp' => ?_ }
  · have hrow : tasks.lookup t' = s.tasks.lookup t' := by
      rw [lookup_insertNew htasks, if_neg ht]
      rfl
    have hb : bindings.lookup t' = s.bindings.lookup t' := hbind t' ht
    have hd : (fun i => dependencies.lookup (t', i)) = fun i => s.dependencies.lookup (t', i) :=
      funext fun i => hdep t' i ht
    simp only [State.view, State.appendEvent, State.storeSpec, hrow, hb, hd, hdecisions]
  · show tasks.lookup env.newTask = some task
    rw [lookup_insertNew htasks, if_pos rfl]
  · show dependencies.lookup (env.newTask, i) = _
    have hold : s.dependencies.lookup (env.newTask, i) = none :=
      congrFun (congrArg View.dep hblank) i
    rw [hnew]
    split
    next => rfl
    next hlt =>
      rw [List.getElem?_eq_none (by omega)]
      exact hold
  · obtain rfl := Option.mem_unique hspec hsp'
    exact State.storeSpec_mem

/-! ## The checks of an admission -/

theorem State.validateTaskInputs_ok {u : Unit} (h : s.validateTaskInputs project sp = .ok u) :
    ∀ e ∈ sp.storageEstimate, validateStorageEstimate e = .ok () := by
  rintro e he
  simp only [validateTaskInputs, Option.mem_def.mp he, bind_eq_ok] at h
  exact h.choose_spec.1

/-- A spec without dependencies has no predecessors; a continuation has two, and no inputs. -/
theorem continuationPredecessors_ok (h : continuationPredecessors sp = .ok predecessors) :
    predecessors = [] ∨
      predecessors.length = 2 ∧ sp.Continues ∧ sp.inputObjectIds = [] := by
  unfold continuationPredecessors at h
  split at h
  next => exact .inl (Except.ok.inj h).symm
  next dependencies hdeps =>
    simp only [bind_eq_ok, orThrow_eq_ok, require_eq_ok, return_ok] at h
    obtain ⟨fields, hfields, edges, -, _, htwo, _, -, _, hinputs, ps, hps, _, -, rfl⟩ := h
    refine .inr ⟨(length_mapM hps).trans htwo, ?_, hinputs⟩
    obtain rfl := Json.asObj_eq_some.mp hfields
    unfold TaskSpec.runtimeDependencies at hdeps
    split at hdeps
    next => cases hdeps
    next => cases hdeps
    next value hvalue =>
      cases hdeps
      obtain ⟨body, hbody, hget⟩ := Option.bind_eq_some_iff.mp hvalue
      obtain ⟨outer, rfl, hget⟩ := Json.get?_eq_some.mp hget
      exact ⟨outer, fields, hbody, hget⟩

/-- The predecessors of a new continuation are tasks of its project. -/
theorem State.validateContinuationPredecessors_ok {u : Unit} :
    ∀ {ps : List TaskId}, s.validateContinuationPredecessors project ps = .ok u →
      ∀ p ∈ ps, s.projectOf p = some project
  | [], _, p, hp => by simp at hp
  | q :: ps, h, p, hp => by
    simp only [validateContinuationPredecessors, bind_eq_ok, orThrow_eq_ok, require_eq_ok] at h
    obtain ⟨row, hrow, run, hrun, _, hproj, h⟩ := h
    rcases List.mem_cons.mp hp with rfl | hp
    · simp [projectOf, hrow, hrun, hproj]
    · exact validateContinuationPredecessors_ok h p hp

/-- A stored request that can be read is read as it is. -/
theorem State.executionRequestFromRow_ok {row : Task} {request : Option Json} {q : Json}
    (hspec : row.spec = some sp) (hq : row.executionRequest = some q)
    (h : s.executionRequestFromRow row = .ok request) :
    ∃ q', normalizeExecutionRequest q sp.inputObjectIds = .ok q' := by
  simp only [executionRequestFromRow, hspec, hq, bind_eq_ok] at h
  obtain ⟨sp', hload, h⟩ := h
  obtain rfl : sp' = sp := by simpa using (loadSpec_ok hload).1.symm
  obtain ⟨q', hq', -⟩ := map_eq_ok.mp h
  exact ⟨q', hq'⟩

/-- What an admission has checked before it reads the stored tasks. -/
structure AdmissionIdentity.Checked (identity : AdmissionIdentity) (predecessors : List TaskId) :
    Prop where
  storage : ∀ e ∈ identity.spec.storageEstimate, validateStorageEstimate e = .ok ()
  predecessors : continuationPredecessors identity.spec = .ok predecessors
  /-- The request was normalised with the inputs before freezing, which leaves no inputs only where
  there were none. -/
  request : ∀ q ∈ identity.executionRequest, ∃ value inputs,
    normalizeExecutionRequest value inputs = .ok q ∧ (identity.spec.inputObjectIds = [] → inputs = [])

/-- The labels of an admission: the sweep, the new task with its delegation, and the admission of a
continuation. -/
def createLabels (env : Env) (s : State) (lineage : Option Lineage) (t : TaskId) (l : Label) : Prop :=
  retireLabels env s t l ∨ l.Quiet ∨ t = env.newTask ∧ l = .create lineage

/-- The task that is inserted for these checks is a new task's. -/
theorem Inserts.created {r : RunId} {run : Run} (h : Inserts r t run task predecessors s s')
    (hi : Inv s) (hchecked : identity.Checked predecessors) (hbody : identity.spec.SameBody sp)
    (hspec : task.spec = some sp) (hstatus : task.status = .queued) (hfence : task.leaseFence = 0)
    (htoken : task.leaseToken = none) (hdeadline : task.leaseExpiresAt = none)
    (hwaiting : task.unknown = false) (hrequest : task.executionRequest = identity.executionRequest)
    (hread : predecessors = [] → ∃ row, s'.getTask t = .ok row) :
    (s'.view t).Created task sp := by
  have hblank := (hi.view t).blank h.newTask
  have hpair : predecessors = [] ∨ ∃ p q, predecessors = [p, q] ∧ identity.spec.Continues ∧
      identity.spec.inputObjectIds = [] := by
    rcases continuationPredecessors_ok hchecked.predecessors with h | ⟨htwo, hcont, hin⟩
    · exact .inl h
    · obtain ⟨p, q, rfl⟩ := List.length_eq_two.mp htwo
      exact .inr ⟨p, q, rfl, hcont, hin⟩
  have hdep : ∀ i, (s'.view t).dep i = predecessors[i]? := h.dep
  refine
    { stored := h.row, spec := hspec, status := hstatus, fence := hfence, token := htoken
      deadline := hdeadline, waiting := hwaiting, prepared := h.binding, selected := h.selected
      decisions := h.decisions.trans (congrArg View.decisions hblank)
      admission := ?_, hold := fun k => ?_, grant := fun a => ?_, dep_lt := fun i p hp => ?_, dep_pair := ?_
      storage := ?_, request := fun q hq => ?_, continuation := fun hsome => ?_ }
  · show s'.admissions.lookup t = none
    rw [h.admissions]
    exact congrArg View.admission hblank
  · show s'.reservations.lookup (t, k) = none
    rw [h.reservations]
    exact congrFun (congrArg View.hold hblank) k
  · have hattempts : s'.attempts = s.attempts := h.tables.attempts
    show ((s'.attempts.lookup a).filter (·.taskId = t)).map Attempt.grant = none
    rw [hattempts]
    exact congrFun (congrArg View.grant hblank) a
  · rw [hdep] at hp
    have hlt := (List.getElem?_eq_some_iff.mp hp).1
    rcases hpair with rfl | ⟨_, _, rfl, -⟩
    · simp at hlt
    · exact hlt
  · rw [hdep, hdep]
    rcases hpair with rfl | ⟨_, _, rfl, -⟩ <;> rfl
  · rw [hbody.storage]
    exact hchecked.storage
  · have hq' : q ∈ identity.executionRequest := hrequest ▸ hq
    obtain ⟨value, inputs, hvalue, hempty⟩ := hchecked.request q hq'
    rcases hpair with rfl | ⟨_, _, rfl, -, hin⟩
    · -- the final read of the new task accepts the request with the frozen inputs
      obtain ⟨row, hrow⟩ := hread rfl
      obtain ⟨hlookup, request, hreq⟩ := getTask_reads hrow
      obtain rfl := Option.mem_unique h.row hlookup
      obtain ⟨q', hq'⟩ := executionRequestFromRow_ok hspec hq hreq
      rw [hq', normalizeExecutionRequest_again hvalue hq']
    · rw [hbody.inputs, hin]
      rw [hempty hin] at hvalue
      exact normalizeExecutionRequest_idem hvalue
  · rw [hdep] at hsome
    rcases hpair with rfl | ⟨_, _, rfl, ⟨fields, deps, hf, hd⟩, hin⟩
    · simp at hsome
    · exact ⟨⟨fields, deps, hbody.body.trans hf, hd⟩, hbody.inputs.trans hin⟩

/-- A sweep does not touch the parents of a delegated spec. -/
theorem State.Rooted.retired (h : s.Rooted sp) (he : Evolves now (retireLabels env s) s s') :
    s'.Rooted sp := by
  intro lin hlin
  exact (he.path lin.parentTaskId).roots (by simp [retireLabels]) (h lin hlin)

theorem State.tryLinked_ok (h : s.tryLinked t predecessors now = .ok s') :
    (predecessors = [] ∧ s' = s) ∨ s.admitContinuation t now = .ok s' := by
  unfold tryLinked at h
  split at h
  next hnil => exact .inl ⟨hnil, (Except.ok.inj h).symm⟩
  next => exact .inr h

theorem State.capabilityReadiness_ne (h : s.capabilityReadiness create = .ok (digest, waiting)) :
    waiting ≠ some .providerStateUnknown := by
  unfold capabilityReadiness at h
  split at h
  · simp only [bind_eq_ok, return_ok, Prod.mk.injEq] at h
    obtain ⟨_, -, _, -, -, rfl⟩ := h
    split <;> simp
  · simp only [Except.ok.injEq, Prod.mk.injEq] at h
    rw [← h.2]
    split <;> simp

theorem State.executorReadiness_ne {capability : CapabilityId}
    (h : s.executorReadiness env capability digest facts = .ok waiting) :
    waiting ≠ some .providerStateUnknown := by
  simp only [executorReadiness, bind_eq_ok, pure_eq_ok] at h
  obtain ⟨matching, -, h⟩ := h
  split at h
  · simp only [Except.ok.injEq] at h
    simp [← h]
  · split at h
    · obtain ⟨other, -, h⟩ := bind_eq_ok.mp h
      split at h <;> simp only [Except.ok.injEq] at h <;> simp [← h]
    · simp only [Except.ok.injEq] at h
      simp [← h]

/-- A new task is not marked as one with unknown external work. -/
theorem State.admissionReadiness_ne (h : s.admissionReadiness env create sp = .ok (digest, waiting)) :
    waiting ≠ some .providerStateUnknown := by
  simp only [admissionReadiness, bind_eq_ok, pure_eq_ok] at h
  obtain ⟨⟨base, reason⟩, hbase, h⟩ := h
  split at h
  · obtain ⟨waiting', hwait, h⟩ := bind_eq_ok.mp h
    obtain ⟨-, rfl⟩ := Prod.mk.inj (Except.ok.inj h)
    exact executorReadiness_ne hwait
  · obtain ⟨-, rfl⟩ := Prod.mk.inj (Except.ok.inj h)
    exact capabilityReadiness_ne hbase

theorem Inv.admitNew (hi : Inv s) {toolchain : Option String}
    (hchecked : identity.Checked predecessors) (hroot : s.Rooted identity.spec)
    (h : s.admitNew env create identity predecessors toolchain = .ok (s', a)) :
    Evolves env.now (createLabels env s identity.spec.delegatedParent) s s' := by
  simp only [State.admitNew, bind_eq_ok, Prod.exists, return_ok,
    Prod.mk.injEq] at h
  obtain ⟨digest, waiting, hready, _, -, _, -, _, hvalid, swept, hswept, inserted, hins, linked,
    hlinked, tried, htried, row, hget, rfl, -⟩ := h
  have hsweep : Evolves env.now (retireLabels env s) s swept := retireIfDue_evolves hswept
  have hi₁ := hsweep.inv hi
  have hinserts := hi₁.inserts rfl rfl hins hlinked
  have hread : predecessors = [] → ∃ row, linked.getTask env.newTask = .ok row := by
    rintro rfl
    exact ⟨row, (Except.ok.inj htried) ▸ hget⟩
  have hcreated := hinserts.created hi₁ hchecked (by split <;> exact ⟨rfl, rfl, rfl, rfl⟩) rfl rfl rfl rfl rfl
    (by
      have := admissionReadiness_ne hready
      simp only [Task.unknown]
      split <;> simp_all)
    rfl hread
  have hpred : ∀ p ∈ predecessors, swept.projectOf p = some identity.project := fun p hp =>
    projectOf_mono (validateContinuationPredecessors_ok hvalid p hp)
      (hsweep.path p).later hsweep.grow
  have hroot₁ : swept.Rooted identity.spec := hroot.retired hsweep
  have hcreate : Evolves env.now (createLabels env s identity.spec.delegatedParent) swept linked :=
    hinserts.evolves hi₁ rfl hcreated hpred
      (fun lin hlin => hroot₁ lin (by split at hlin <;> exact hlin))
      (.inr (.inr ⟨rfl, by split <;> rfl⟩))
  have htry : Evolves env.now (createLabels env s identity.spec.delegatedParent) linked tried := by
    rcases tryLinked_ok htried with ⟨-, rfl⟩ | htried
    · exact .refl _
    · exact ((hcreate.inv hi₁).admitContinuation htried).mono fun _ _ hl => .inr (.inl hl)
  have hadmitted := ((hsweep.mono fun _ _ hl => .inl hl).trans hcreate).trans htry
  split
  · exact hadmitted.trans (Records.evolves rfl)
  · exact hadmitted

/-! ## `create_task` -/

/-- Freezing leaves no inputs only where none were supplied. -/
theorem freezeInputs_nil {supplied : List String} {frozen : Option (List String)}
    (h : freezeInputs supplied frozen = .ok []) : supplied = [] := by
  unfold freezeInputs at h
  split at h
  next => exact Except.ok.inj h
  next ordered =>
    simp only [bind_eq_ok, require_eq_ok, return_ok] at h
    obtain ⟨normalized, hnorm, _, hsame, rfl⟩ := h
    rcases hsame with hnil | rfl
    · exact hnil
    · have := length_mapM hnorm
      exact List.length_eq_zero_iff.mp this.symm

/-- What preparing a spec keeps of the one supplied. -/
theorem preparedSpec_ok {prepared : PreparedSpec}
    (h : preparedSpec env create prepared facts = .ok sp) :
    sp.delegatedParent = create.spec.delegatedParent ∧
      (sp.inputObjectIds = [] → create.spec.inputObjectIds = []) := by
  simp only [preparedSpec, bind_eq_ok, return_ok] at h
  obtain ⟨inputs, hinputs, snapshots, -, rfl⟩ := h
  split
  · refine ⟨rfl, fun hnil => ?_⟩
    exact freezeInputs_nil (hinputs.trans (congrArg _ hnil))
  next hne =>
    refine ⟨rfl, fun hnil => ?_⟩
    obtain ⟨x, xs, hcons⟩ := List.exists_cons_of_ne_nil
      (List.append_ne_nil_of_right_ne_nil inputs hne)
    simp [hcons, List.eraseDups_cons] at hnil

theorem State.replayRun_records {run : RunId × Run} {key : String} {at_ : Time}
    (h : s.replayRun run identity key at_ = .ok (s', a)) :
    Records s s' := by
  simp only [replayRun, bind_eq_ok] at h
  obtain ⟨task, -, _, -, h⟩ := h
  split at h
  · split at h
    · split at h <;> simp only [bind_eq_ok, return_ok, Prod.mk.injEq] at h <;>
        obtain ⟨_, -, rfl, -⟩ := h <;> rfl
    · simp only [bind_eq_ok, return_ok, Prod.mk.injEq] at h
      obtain ⟨_, -, rfl, -⟩ := h
      rfl
  · simp only [bind_eq_ok, return_ok, Prod.mk.injEq] at h
    obtain ⟨_, -, rfl, -⟩ := h
    rfl

theorem State.replayAttached_eq {receipt : Receipt} {at_ : Time}
    (h : s.replayAttached receipt identity at_ = .ok (s', a)) : s' = s := by
  simp only [replayAttached, bind_eq_ok] at h
  obtain ⟨_, -, h⟩ := h
  split at h <;> simp only [bind_eq_ok, return_ok, Prod.mk.injEq] at h
  · obtain ⟨_, -, rfl, -⟩ := h
    rfl
  · obtain ⟨_, -, _, -, rfl, -⟩ := h
    rfl

theorem Inv.admitOrAttach (hi : Inv s) (hchecked : identity.Checked predecessors)
    (hroot : s.Rooted identity.spec) (h : s.admitOrAttach env create identity predecessors = .ok (s', a)) :
    Evolves env.now (createLabels env s identity.spec.delegatedParent) s s' := by
  unfold State.admitOrAttach at h
  split at h
  next => exact hi.admitNew hchecked hroot h
  next key _ =>
    simp only [bind_eq_ok] at h
    obtain ⟨toolchain, -, candidate, -, h⟩ := h
    split at h
    · simp only [bind_eq_ok, return_ok, Prod.mk.injEq] at h
      obtain ⟨_, -, rfl, -⟩ := h
      exact Records.evolves rfl
    · exact hi.admitNew hchecked hroot h

/-- What the checks before the publications leave of the request. -/
theorem State.checkAdmission_ok (h : s.checkAdmission create = .ok (executionRequest, facts)) :
    ∀ q ∈ executionRequest, ∃ value,
      normalizeExecutionRequest value create.spec.inputObjectIds = .ok q := by
  simp only [checkAdmission, bind_eq_ok, return_ok, Prod.mk.injEq] at h
  obtain ⟨_, -, _, hrequest, _, -, _, -, rfl, rfl⟩ := h
  intro q hq
  unfold admittedRequest at hrequest
  split at hrequest
  next value _ =>
    obtain ⟨q', hn, rfl⟩ := map_eq_ok.mp hrequest
    obtain rfl := Option.some.inj hq
    exact ⟨value, hn⟩
  next =>
    cases hrequest
    simp at hq

theorem Evolves.publishSnapshots {digests : List String} :
    Evolves now A s (s.publishSnapshots project digests) :=
  .publish (fun _ => mem_insertMissing_left) fun _ => mem_insertMissing_left

/-- The identity that a request resolves to is checked, and keeps the lineage of its spec. -/
theorem State.resolveAdmission_ok (hrequest : ∀ q ∈ executionRequest, ∃ value,
      normalizeExecutionRequest value create.spec.inputObjectIds = .ok q)
    (h : s.resolveAdmission env create executionRequest facts = .ok (identity, predecessors)) :
    identity.Checked predecessors ∧
      identity.spec.delegatedParent = create.spec.delegatedParent := by
  simp only [resolveAdmission, bind_eq_ok, return_ok, Prod.mk.injEq] at h
  obtain ⟨prepared, -, spec, hspec, _, hpreds, _, -, _, hinputs, rfl, rfl⟩ := h
  obtain ⟨hparent, hempty⟩ := preparedSpec_ok hspec
  refine ⟨⟨validateTaskInputs_ok hinputs, hpreds, fun q hq => ?_⟩, hparent⟩
  obtain ⟨value, hn⟩ := hrequest q hq
  exact ⟨value, _, hn, hempty⟩

theorem State.resolveAdmission_project
    (h : s.resolveAdmission env create executionRequest facts = .ok (identity, predecessors)) :
    identity.project = create.project := by
  simp only [resolveAdmission, bind_eq_ok, return_ok, Prod.mk.injEq] at h
  obtain ⟨_, -, _, -, _, -, _, -, _, -, rfl, rfl⟩ := h
  rfl

theorem Inv.admitTask (hi : Inv s) (hroot : s.Rooted create.spec)
    (hrequest : ∀ q ∈ executionRequest, ∃ value,
      normalizeExecutionRequest value create.spec.inputObjectIds = .ok q)
    (h : s.admitTask env create executionRequest facts = .ok (s', a)) :
    Evolves env.now (createLabels env s create.spec.delegatedParent) s s' := by
  simp only [State.admitTask, bind_eq_ok, Prod.exists] at h
  obtain ⟨identity, predecessors, hresolved, h⟩ := h
  obtain ⟨hchecked, hparent⟩ := resolveAdmission_ok hrequest hresolved
  have hroot' : s.Rooted identity.spec := fun lin hlin => hroot lin (hparent ▸ hlin)
  split at h
  next => exact hparent ▸ hi.admitOrAttach hchecked hroot' h
  next =>
    split at h
    next => exact (replayRun_records h).evolves
    next =>
      obtain rfl := replayAttached_eq h
      exact .refl _
    next => exact hparent ▸ hi.admitOrAttach hchecked hroot' h

/-- An admission, whether it returns or raises. -/
theorem Inv.createTask (hi : Inv s) (hroot : s.Rooted create.spec) :
    Evolves env.now (createLabels env s create.spec.delegatedParent) s (s.createTask env create).1 := by
  unfold State.createTask
  split
  next => exact .refl _
  next executionRequest facts hchecks =>
    have hpublish : Evolves env.now (createLabels env s create.spec.delegatedParent) s
        (s.publishSnapshots create.project create.published) := .publishSnapshots
    dsimp only
    split
    next admitted =>
      exact hpublish.trans ((hpublish.inv hi).admitTask hroot (checkAdmission_ok hchecks) admitted)
    next =>
      split
      · exact .refl _
      · exact hpublish

/-- A call in a transaction that returns is one that returned. -/
theorem inTransaction_eq_ok {α : Type} {x : State × Except Err α} {a : α} :
    inTransaction x = .ok (s', a) ↔ x = (s', .ok a) := by
  obtain ⟨s, a | e⟩ := x <;> simp [inTransaction]

end WorkspaceRuntime
