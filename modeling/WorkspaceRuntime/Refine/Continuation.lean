import WorkspaceRuntime.Refine.Rows

/-!
# Continuations

The admission of a continuation, and the refresh that a change of a predecessor sets off, move tasks
by quiet steps only. What an attempt at an admission does is said once, by `Tries`.
-/

namespace WorkspaceRuntime

open Fallible State

variable {now : Time} {s s' : State} {t p q : TaskId} {row task rp rq : Task}
  {o : Option BindingView} {i : Nat} {children : List ResolvedChild} {A : TaskId → Label → Prop}

/-! ## Reading a task and its binding -/

theorem State.getTask_reads (h : s.getTask t = .ok row) :
    s.tasks.lookup t = some row ∧ ∃ request, s.executionRequestFromRow row = .ok request := by
  simp only [getTask, bind_eq_ok, orThrow_eq_ok, return_ok] at h
  obtain ⟨_, hrow, _, -, request, hrequest, _, -, rfl⟩ := h
  exact ⟨hrow, request, hrequest⟩

theorem State.getTask_ok (h : s.getTask t = .ok row) : s.tasks.lookup t = some row :=
  (getTask_reads h).1

theorem State.executionBinding_ok (h : s.executionBinding t = .ok o) :
    o.map (·.row) = s.bindings.lookup t := by
  unfold executionBinding at h
  split at h
  next hb => simp_all
  next b hb =>
    simp only [bind_eq_ok, return_ok] at h
    obtain ⟨request, -, rfl⟩ := h
    simp [hb]

/-- `unresolved_external` of a binding that was read is that of the view. -/
theorem State.unresolvedExternal_iff (h : s.executionBinding t = .ok o) :
    unresolvedExternal o = true ↔ (s.view t).unresolved := by
  have hb : (s.view t).binding = o.map (·.row) := (executionBinding_ok h).symm
  cases o <;> simp [View.unresolved, hb, unresolvedExternal]

/-! ## Dependency rows -/

/-- The two predecessors of a continuation. -/
structure Predecessors (s : State) (t : TaskId) (p q : TaskId) (rp rq : Task) : Prop where
  first : s.dependencies.lookup (t, 0) = some p
  second : s.dependencies.lookup (t, 1) = some q
  row_first : s.tasks.lookup p = some rp
  row_second : s.tasks.lookup q = some rq
  rows : s.continuationRows t = [⟨0, p, rp⟩, ⟨1, q, rq⟩]

/-- A predecessor exists. -/
theorem Inv.predecessor_row (hi : Inv s) (h : s.dependencies.lookup (t, i) = some p) :
    ∃ rp, s.tasks.lookup p = some rp := by
  obtain ⟨-, hsome, -⟩ := hi.dep t i p h
  cases hrow : s.tasks.lookup p with
  | none => simp [projectOf, hrow] at hsome
  | some rp => exact ⟨rp, rfl⟩

/-- A task has no dependency rows, or both. -/
theorem Inv.predecessors (hi : Inv s) (t : TaskId) :
    (s.continuationRows t = [] ∧ ∀ i, s.dependencies.lookup (t, i) = none) ∨
      ∃ p q rp rq, Predecessors s t p q rp rq := by
  have hpair : (s.dependencies.lookup (t, 0)).isSome = (s.dependencies.lookup (t, 1)).isSome :=
    (hi.view t).dep_pair
  cases h0 : s.dependencies.lookup (t, 0) with
  | none =>
    have h1 : s.dependencies.lookup (t, 1) = none := by simpa [h0] using hpair.symm
    refine .inl ⟨by simp [continuationRows, dependencyRow, h0, h1], fun i => ?_⟩
    cases hi' : s.dependencies.lookup (t, i) with
    | none => rfl
    | some p =>
      have hlt := (hi.view t).dep_lt i p hi'
      rcases (by omega : i = 0 ∨ i = 1) with rfl | rfl
      · exact absurd hi' (by simp [h0])
      · exact absurd hi' (by simp [h1])
  | some p =>
    obtain ⟨q, h1⟩ : ∃ q, s.dependencies.lookup (t, 1) = some q := by
      rw [← Option.isSome_iff_exists, ← hpair, h0]
      rfl
    obtain ⟨rp, hp⟩ := hi.predecessor_row h0
    obtain ⟨rq, hq⟩ := hi.predecessor_row h1
    refine .inr ⟨p, q, rp, rq, h0, h1, hp, hq, ?_⟩
    simp [continuationRows, dependencyRow, h0, h1, hp, hq]

/-- A queued continuation that is not admitted was never started, so it has no external work. -/
theorem Inv.pending_resolved (hi : Inv s) (hrow : s.tasks.lookup t = some row)
    (hqueued : row.status = .queued) (hnone : s.admissions.lookup t = none)
    (hdep : s.dependencies.lookup (t, i) = some p) : ¬(s.view t).unresolved := by
  intro hu
  have hw := (hi.view t).row row hrow
  have := hw.started (hw.queued_fence hqueued hu) hnone i
  exact absurd (hdep.symm.trans this) (by simp)

/-! ## Admission and refresh -/

theorem continuationWaitingReason_ne (rows : List DependencyRow) :
    continuationWaitingReason rows ≠ some .providerStateUnknown := by
  unfold continuationWaitingReason
  split_ifs <;> simp

theorem resolveChild_ok {r : DependencyRow} {c : ResolvedChild} (h : resolveChild r = .ok c) :
    c.taskId = r.taskId ∧ c.ordinal = r.ordinal ∧ r.row.outputs = some c.outputs ∧
      ∀ o ∈ c.outputs, (outputDigest o).isSome := by
  simp only [resolveChild, bind_eq_ok, orThrow_eq_ok, require_eq_ok, return_ok] at h
  obtain ⟨outputs, hout, _, hdig, rfl⟩ := h
  exact ⟨rfl, rfl, hout, hdig⟩

/-- A granted admission: what it resolved, and the state it leaves. -/
structure Admits (s : State) (t : TaskId) (task : Task) (now : Time) (s' : State)
    (children : List ResolvedChild) (sp sp' : TaskSpec) : Prop where
  resolves : (s.continuationRows t).mapM resolveChild = .ok children
  spec : task.spec = some sp
  resolved : setResolvedChildren { sp with inputObjectIds := orderedInputs children } children =
    .ok sp'
  valid : ∀ run, s.runs.lookup task.runId = some run →
    s.validateTaskInputs run.projectId sp' = .ok ()
  after : s' = (s.admitRow t
    { children, inputObjectIds := orderedInputs children, admittedAt := now } sp').appendEvent
      task.runId (some t) (.continuationAdmitted
        { children, inputObjectIds := orderedInputs children, admittedAt := now }) now

theorem State.resolveContinuation_ok
    (h : s.resolveContinuation t task (s.continuationRows t) now = .ok s') :
    ∃ children sp sp', Admits s t task now s' children sp sp' := by
  simp only [resolveContinuation, bind_eq_ok, return_ok] at h
  obtain ⟨children, hchildren, sp, hload, sp', hset, run, hrun, _, hvalid, rfl⟩ := h
  have hruns : ∀ run', s.runs.lookup task.runId = some run' → run = run' := fun run' hrun' =>
    Option.mem_unique (orThrow_eq_ok.mp hrun) hrun'
  refine ⟨children, sp, sp', hchildren, ?_, hset, fun run' hrun' => hruns run' hrun' ▸ hvalid, rfl⟩
  rcases (loadSpec_ok hload).2 with hnone | hsome
  · -- a retired spec has no body to write the children into
    obtain ⟨⟨_, _, hbody, -⟩, -⟩ := setResolvedChildren_ok hset
    have : sp = {} := by simpa [hnone] using (loadSpec_ok hload).1.symm
    simp [this] at hbody
  · exact hsome

/-- The children that an admission resolves are the two predecessors in order. -/
theorem Predecessors.resolved (h : Predecessors s t p q rp rq)
    (hchildren : (s.continuationRows t).mapM resolveChild = .ok children) :
    ∃ c d, children = [c, d] ∧ resolveChild ⟨0, p, rp⟩ = .ok c ∧ resolveChild ⟨1, q, rq⟩ = .ok d ∧
      ResolvedFor (s.view t).dep children := by
  rw [h.rows] at hchildren
  simp only [List.mapM_cons, List.mapM_nil, bind_eq_ok, return_ok] at hchildren
  obtain ⟨c, hc, _, ⟨d, hd, _, rfl, rfl⟩, rfl⟩ := hchildren
  refine ⟨c, d, rfl, hc, hd, ?_⟩
  obtain ⟨hct, hco, -⟩ := resolveChild_ok hc
  obtain ⟨hdt, hdo, -⟩ := resolveChild_ok hd
  simp [ResolvedFor, view, hct, hco, hdt, hdo, h.first, h.second]

/-- Without a reason to wait, both predecessors are completed. -/
theorem continuationWaitingReason_none {rows : List DependencyRow}
    (h : continuationWaitingReason rows = none) {r : DependencyRow} (hr : r ∈ rows) :
    r.row.status = .completed := by
  unfold continuationWaitingReason at h
  split_ifs at h with _ _ hall
  by_contra hne
  exact hall ⟨r, hr, hne⟩

/-- The children that an admission resolves are completed with the outputs it resolved. -/
theorem Predecessors.resolves (h : Predecessors s t p q rp rq)
    (hready : continuationWaitingReason (s.continuationRows t) = none)
    (hchildren : (s.continuationRows t).mapM resolveChild = .ok children) :
    ∀ c ∈ children, (s.view c.taskId).Resolves c := by
  obtain ⟨c, d, rfl, hc, hd, -⟩ := h.resolved hchildren
  rw [h.rows] at hready
  have hdone : ∀ {r : DependencyRow} {x : ResolvedChild}, r ∈ [⟨0, p, rp⟩, ⟨1, q, rq⟩] →
      s.tasks.lookup r.taskId = some r.row → resolveChild r = .ok x →
      (s.view x.taskId).Resolves x := by
    intro r x hr hrow hx
    obtain ⟨htask, -, hout, -⟩ := resolveChild_ok hx
    have hcompleted := continuationWaitingReason_none hready hr
    exact ⟨r.row.result, by simp [View.Done, view, htask, hrow, hcompleted], hout⟩
  simp only [List.mem_cons, List.not_mem_nil, or_false]
  rintro x (rfl | rfl)
  · exact hdone (by simp) h.row_first hc
  · exact hdone (by simp) h.row_second hd

/-- The quiet labels, for every task. -/
def quietLabels (_ : TaskId) (l : Label) : Prop := l.Quiet

/-- What `admitContinuation` does: nothing, a waiting reason, or the admission. -/
inductive Tries (s : State) (t : TaskId) (now : Time) (s' : State) : Prop
  | nothing (hidle : s.continuationRows t = [] ∨ (s.admissions.lookup t).isSome = true ∨
        ∀ row, s.tasks.lookup t = some row → row.status ≠ .queued) (h : s' = s)
  | waits {row : Task} {reason : WaitingReason} (hrow : s.tasks.lookup t = some row)
      (hqueued : row.status = .queued) (hnone : s.admissions.lookup t = none)
      (hrows : s.continuationRows t ≠ [])
      (hreason : continuationWaitingReason (s.continuationRows t) = some reason)
      (h : s' = s.setWaitingReason t (some reason) now)
  | admits {row : Task} {children : List ResolvedChild} {sp sp' : TaskSpec}
      (hrow : s.tasks.lookup t = some row) (hqueued : row.status = .queued)
      (hnone : s.admissions.lookup t = none) (hrows : s.continuationRows t ≠ [])
      (hready : continuationWaitingReason (s.continuationRows t) = none)
      (h : Admits s t row now s' children sp sp')

theorem State.admitContinuation_ok (h : s.admitContinuation t now = .ok s') : Tries s t now s' := by
  unfold admitContinuation at h
  dsimp only at h
  by_cases hrows : s.continuationRows t = []
  · rw [if_pos hrows] at h
    exact .nothing (.inl hrows) (Except.ok.inj h).symm
  rw [if_neg hrows] at h
  split at h
  next hnone => exact .nothing (.inr (.inr (by simp [hnone]))) (Except.ok.inj h).symm
  next row hrow =>
    by_cases hq : row.status = .queued
    · rw [if_neg (not_not_intro hq)] at h
      by_cases hadm : (s.admissions.lookup t).isSome = true
      · rw [if_pos hadm] at h
        exact .nothing (.inr (.inl hadm)) (Except.ok.inj h).symm
      · rw [if_neg hadm] at h
        have hnone : s.admissions.lookup t = none := by simpa using hadm
        split at h
        next reason hreason =>
          exact .waits hrow hq hnone hrows hreason (Except.ok.inj h).symm
        next hready =>
          obtain ⟨children, sp, sp', hadmits⟩ := resolveContinuation_ok h
          exact .admits hrow hq hnone hrows hready hadmits
    · rw [if_pos hq] at h
      exact .nothing (.inr (.inr (by simpa [hrow] using hq))) (Except.ok.inj h).symm

theorem Inv.admitContinuation (hi : Inv s) (h : s.admitContinuation t now = .ok s') :
    Evolves now quietLabels s s' := by
  rcases admitContinuation_ok h with ⟨-, rfl⟩ | ⟨hrow, hq, hnone, hrows, hreason, rfl⟩ |
    ⟨hrow, hq, hnone, hrows, hready, hadmits⟩
  · exact .refl _
  · rcases hi.predecessors t with ⟨hempty, -⟩ | ⟨p, q, rp, rq, hpred⟩
    · exact absurd hempty hrows
    · refine .setWaitingReason (.inl rfl) (fun _ _ _ => ?_) ?_
      · exact hi.pending_resolved hrow hq hnone hpred.first
      · rw [← hreason]
        exact continuationWaitingReason_ne _
  · rcases hi.predecessors t with ⟨hempty, -⟩ | ⟨p, q, rp, rq, hpred⟩
    · exact absurd hempty hrows
    · obtain ⟨_, _, -, -, -, hfor⟩ := hpred.resolved hadmits.resolves
      rw [hadmits.after]
      exact (Evolves.admitRow (.inr rfl) hrow hq hnone
        (hi.pending_resolved hrow hq hnone hpred.first) hadmits.spec hfor hadmits.resolved
        (hpred.resolves hready hadmits.resolves)).trans (.appendEvent ..)

/-- A task with a dependency row exists. -/
theorem Inv.row_of_dep (hi : Inv s) (hdep : s.dependencies.lookup (t, i) = some p) :
    s.tasks.lookup t ≠ none := by
  intro hnone
  have hblank := congrFun (congrArg View.dep ((hi.view t).blank hnone)) i
  exact absurd (hdep.symm.trans hblank) (by simp [View.blank])

/-- The dependency rows of a task are kept. -/
theorem Evolves.dependency (h : Evolves now A s s') (hi : Inv s)
    (hdep : s.dependencies.lookup (t, i) = some p) :
    s'.dependencies.lookup (t, i) = some p :=
  (congrFun ((h.path t).later.dep (hi.row_of_dep hdep)) i).trans hdep

theorem Inv.refreshContinuation (hi : Inv s) (hdep : s.dependencies.lookup (t, i) = some p)
    (h : s.refreshContinuation now t = .ok s') :
    Evolves now quietLabels s s' := by
  simp only [State.refreshContinuation, bind_eq_ok, return_ok] at h
  obtain ⟨tried, htried, rfl⟩ := h
  have htry := hi.admitContinuation htried
  split
  next => exact htry
  next hnone =>
    refine htry.trans (.setWaitingReason (.inl rfl) (fun row hrow hq => ?_)
      (continuationWaitingReason_ne _))
    exact (htry.inv hi).pending_resolved hrow hq (by simpa using hnone) (htry.dependency hi hdep)

theorem State.mem_continuationsOf {c : TaskId} :
    c ∈ s.continuationsOf p ↔ ∃ i, s.dependencies.lookup (c, i) = some p := by
  simp only [continuationsOf, List.mem_insertionSort, List.mem_map, List.mem_filter,
    decide_eq_true_eq, Table.lookup_eq_some_iff]
  constructor
  · rintro ⟨⟨⟨c', i⟩, p'⟩, ⟨hmem, rfl⟩, rfl⟩
    exact ⟨i, hmem⟩
  · rintro ⟨i, hmem⟩
    exact ⟨((c, i), p), ⟨hmem, rfl⟩, rfl⟩

theorem Inv.refreshContinuations (hi : Inv s)
    (h : s.refreshContinuationsForPredecessor p now = .ok s') : Evolves now quietLabels s s' := by
  refine .loop hi (fun c hc {s₁ s₂} hi₁ he hstep => ?_) h
  obtain ⟨i, hdep⟩ := mem_continuationsOf.mp hc
  exact hi₁.refreshContinuation (he.dependency hi hdep) hstep

/-! ## Wake-ups -/

/-- The status of a task. -/
def State.statusOf (s : State) (t : TaskId) : Option Status := (s.tasks.lookup t).map (·.status)

/-- The task is queued, and its predecessors are completed. -/
structure State.Ready (s : State) (t : TaskId) : Prop where
  queued : s.statusOf t = some .queued
  done : ∀ i p, s.dependencies.lookup (t, i) = some p → s.statusOf p = some .completed

/-- Every continuation of the task that is ready is admitted. -/
def State.Awake (s : State) (p : TaskId) : Prop :=
  ∀ t i, s.dependencies.lookup (t, i) = some p → s.Ready t → s.admissions.lookup t ≠ none

theorem State.statusOf_completed :
    s.statusOf t = some .completed ↔ ∃ result, (s.view t).Done result := by
  cases hrow : s.tasks.lookup t <;> simp [statusOf, View.Done, view, hrow]

/-- A task is completed by a settlement only. -/
theorem Evolves.completed_of (h : Evolves now A s s') (hno : ¬A t .finish)
    (hdone : s'.statusOf t = some .completed) :
    s.statusOf t = some .completed := by
  obtain ⟨result, hresult⟩ := statusOf_completed.mp hdone
  exact statusOf_completed.mpr ⟨result, (h.path t).done_of hno hresult⟩

/-- Quiet steps keep what the rows of one stage have in common. -/
theorem Evolves.quiet_bind {α : Type} {f : Task → Option α} (h : Evolves now quietLabels s s')
    (hf : ∀ {row row'}, row.SameStage row' → f row' = f row) (t : TaskId) :
    (s'.tasks.lookup t).bind f = (s.tasks.lookup t).bind f := by
  cases hrow : s.tasks.lookup t with
  | none =>
    have hnone : s'.tasks.lookup t = none :=
      (h.path t).row_none (by simp [quietLabels, Label.Quiet]) hrow
    rw [hnone]
  | some row =>
    obtain ⟨row', hrow', hstage⟩ := ((h.path t).calm fun _ hl => hl).row row hrow
    have hrow' : s'.tasks.lookup t = some row' := hrow'
    simp [hrow', hf hstage]

theorem Evolves.quiet_statusOf (h : Evolves now quietLabels s s') (t : TaskId) :
    s'.statusOf t = s.statusOf t := by
  simp only [statusOf, Option.map_eq_bind]
  exact h.quiet_bind (fun hstage => congrArg some hstage.status) t

theorem Evolves.quiet_dependency (h : Evolves now quietLabels s s') (hi : Inv s) (t : TaskId)
    (i : Nat) : s'.dependencies.lookup (t, i) = s.dependencies.lookup (t, i) := by
  cases hrow : (s.view t).row with
  | none =>
    have hnone := (h.path t).row_none (by simp [quietLabels, Label.Quiet]) hrow
    have hblank : s'.view t = s.view t := by
      rw [((h.inv hi).view t).blank hnone, (hi.view t).blank hrow]
    exact congrFun (congrArg View.dep hblank) i
  | some row => exact congrFun ((h.path t).later.dep (by simp [hrow])) i

theorem Evolves.quiet_ready (h : Evolves now quietLabels s s') (hi : Inv s) :
    s'.Ready t ↔ s.Ready t := by
  constructor
  · rintro ⟨hqueued, hdone⟩
    refine ⟨h.quiet_statusOf t ▸ hqueued, fun i p hdep => ?_⟩
    rw [← h.quiet_statusOf p]
    exact hdone i p ((h.quiet_dependency hi t i).trans hdep)
  · rintro ⟨hqueued, hdone⟩
    refine ⟨(h.quiet_statusOf t).trans hqueued, fun i p hdep => ?_⟩
    rw [h.quiet_statusOf p]
    exact hdone i p ((h.quiet_dependency hi t i).symm.trans hdep)

/-- Completed predecessors give no reason to wait. -/
theorem State.Ready.continuationWaitingReason (h : s.Ready t) (hpred : Predecessors s t p q rp rq) :
    continuationWaitingReason (s.continuationRows t) = none := by
  have hp : rp.status = .completed := by
    simpa [statusOf, hpred.row_first] using h.done 0 p hpred.first
  have hq : rq.status = .completed := by
    simpa [statusOf, hpred.row_second] using h.done 1 q hpred.second
  simp [WorkspaceRuntime.continuationWaitingReason, hpred.rows, hp, hq]

/-- A ready continuation is admitted when its admission is tried. -/
theorem Inv.admitContinuation_ready (hi : Inv s) (hdep : s.dependencies.lookup (t, i) = some p)
    (hready : s.Ready t) (h : s.admitContinuation t now = .ok s') :
    s'.admissions.lookup t ≠ none := by
  rcases hi.predecessors t with ⟨-, hno⟩ | ⟨p, q, rp, rq, hpred⟩
  · exact absurd (hdep.symm.trans (hno i)) (by simp)
  have hgo := hready.continuationWaitingReason hpred
  rcases admitContinuation_ok h with ⟨hidle, rfl⟩ | ⟨-, -, -, -, hreason, -⟩ |
    ⟨-, -, -, -, -, hadmits⟩
  · rcases hidle with hempty | hadmitted | hqueued
    · simp [hpred.rows] at hempty
    · exact Option.isSome_iff_ne_none.mp hadmitted
    · obtain ⟨row, hrow, hstatus⟩ := Option.map_eq_some_iff.mp hready.queued
      exact absurd hstatus (hqueued row hrow)
  · simp [hgo] at hreason
  · rw [hadmits.after]
    simp [admitRow, appendEvent, Table.lookup_insertIgnore]

theorem Inv.refreshContinuation_ready (hi : Inv s) (hdep : s.dependencies.lookup (t, i) = some p)
    (hready : s.Ready t) (h : s.refreshContinuation now t = .ok s') :
    s'.admissions.lookup t ≠ none := by
  simp only [State.refreshContinuation, bind_eq_ok, return_ok] at h
  obtain ⟨tried, htried, rfl⟩ := h
  have hadmitted := hi.admitContinuation_ready hdep hready htried
  rwa [if_pos (Option.isSome_iff_ne_none.mpr hadmitted)]

/-- After a refresh no continuation of the task is ready and not admitted. -/
theorem Inv.refreshContinuations_awake (hi : Inv s)
    (h : s.refreshContinuationsForPredecessor p now = .ok s') : s'.Awake p := by
  -- the continuations that had their round are admitted if they are ready
  have hrounds := foldlM_rest (fun rest s₁ => (∀ t ∈ rest, t ∈ s.continuationsOf p) ∧
    Evolves now quietLabels s s₁ ∧ ∀ t ∈ s.continuationsOf p, t ∉ rest → s₁.Ready t →
      s₁.admissions.lookup t ≠ none) ?_ ⟨fun _ => id, .refl s, fun t ht hno => absurd ht hno⟩ h
  · obtain ⟨-, hev, hdone⟩ := hrounds
    intro t i hdep
    refine hdone t (mem_continuationsOf.mpr ⟨i, ?_⟩) (by simp)
    exact (hev.quiet_dependency hi t i).symm.trans hdep
  rintro a rest s₁ s₂ ⟨hsub, hev, hdone⟩ hround
  obtain ⟨i, hdep⟩ := mem_continuationsOf.mp (hsub a List.mem_cons_self)
  have hi₁ := hev.inv hi
  have hdep₁ := hev.dependency hi hdep
  have hround' := hi₁.refreshContinuation hdep₁ hround
  refine ⟨fun t ht => hsub t (.tail _ ht), hev.trans hround', ?_⟩
  intro t ht hno hready
  rw [hround'.quiet_ready hi₁] at hready
  by_cases hta : t = a
  · subst hta
    exact hi₁.refreshContinuation_ready hdep₁ hready hround
  · obtain ⟨adm, hadm⟩ := Option.ne_none_iff_exists'.mp
      (hdone t ht (by simp [hta, hno]) hready)
    exact Option.ne_none_iff_exists'.mpr ⟨adm, (hround'.path t).later.admission adm hadm⟩

/-- Statements that end with a refresh. -/
theorem Inv.thenRefresh {s₁ : State} (hi : Inv s) (hquiet : ∀ t l, l.Quiet → A t l)
    (h : s₁.refreshContinuationsForPredecessor p now = .ok s') (hev : Evolves now A s s₁) :
    Evolves now A s s' :=
  hev.trans (((hev.inv hi).refreshContinuations h).mono hquiet)

end WorkspaceRuntime
