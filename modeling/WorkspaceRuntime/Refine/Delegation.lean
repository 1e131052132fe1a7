import WorkspaceRuntime.Refine.Continuation

/-!
# Containment and cancellation

Containing the children of a task cancels tasks that name it as their parent, and leaves the task
itself where it is. This holds because delegation is one level deep: a cancelled child has no
children of its own, so the mutual recursion of `cancelTask` and `containWith` ends there.
-/

namespace WorkspaceRuntime

open Fallible State

variable {now : Time} {s s' : State} {t : TaskId} {row task : Task} {A : TaskId → Label → Prop}
  {cancel : State → TaskId → Except Err State} {attempt : Option AttemptId} {parent : TaskId}
  {l : Label}

/-! ## Children -/

/-- The task's spec names this task as its parent. -/
def State.ChildOf (s : State) (parent t : TaskId) : Prop :=
  ∃ lin, (s.view t).lineage = some lin ∧ lin.parentTaskId = parent

/-- Delegation is one level deep. -/
theorem Inv.childOf_ends (hi : Inv s) {c : TaskId} (h : s.ChildOf parent c) : ¬s.ChildOf c t := by
  obtain ⟨lin, hlin, -⟩ := h
  rintro ⟨lin', hlin', rfl⟩
  have := (hi.lineage t lin' hlin').lineage
  simp [hlin] at this

/-- No task is its own parent. -/
theorem Inv.childOf_irrefl (hi : Inv s) : ¬s.ChildOf t t := fun h => hi.childOf_ends h h

/-- The labels of a containment: quiet ones, and a cancel of the task's children. -/
def containLabels (s : State) (parent t : TaskId) (l : Label) : Prop :=
  l.Quiet ∨ (l = .cancel ∧ s.ChildOf parent t)

/-- The labels of a cancel: quiet ones, and a cancel of the task and its children. A failed task is
withdrawn. -/
def cancelLabels (s : State) (target t : TaskId) (l : Label) : Prop :=
  l.Quiet ∨ (l = .cancel ∧ (t = target ∨ s.ChildOf target t)) ∨
    (l = .withdraw ∧ t = target ∧ (s.view target).Failed)

/-- The labels that neither create a task nor release its spec. -/
def Label.KeepsSpec (l : Label) : Prop := (∀ lin, l ≠ .create lin) ∧ l ≠ .retire

theorem Label.Quiet.keepsSpec (h : l.Quiet) : l.KeepsSpec := by
  rcases h with rfl | rfl <;> simp [Label.KeepsSpec]

theorem containLabels.keepsSpec (h : containLabels s parent t l) : l.KeepsSpec := by
  rcases h with h | ⟨rfl, -⟩
  · exact h.keepsSpec
  · simp [Label.KeepsSpec]

/-- The task may be stopped by a cancel. -/
theorem cancelLabels_stop (hrow : s.tasks.lookup t = some row) :
    cancelLabels s t t row.status.stopLabel := by
  by_cases hfailed : row.status = .failed
  · rw [hfailed]
    exact .inr (.inr ⟨rfl, rfl, row, hrow, hfailed⟩)
  · refine .inr (.inl ⟨?_, .inl rfl⟩)
    cases hstatus : row.status <;> simp_all [Status.stopLabel]

/-- The children of a task stay its children. -/
theorem Evolves.childOf_iff (h : Evolves now A s s') (hA : ∀ t l, A t l → l.KeepsSpec) :
    s'.ChildOf parent t ↔ s.ChildOf parent t := by
  have hlin := (h.path t).lineage_eq (fun lin hc => (hA t _ hc).1 lin rfl)
    fun hr => (hA t _ hr).2 rfl
  simp only [ChildOf, hlin]

theorem containLabels_iff (h : ∀ parent t, s'.ChildOf parent t ↔ s.ChildOf parent t) :
    containLabels s' parent t l ↔ containLabels s parent t l := by
  simp only [containLabels, h]

/-- A cancel of a child that is not failed is within the containment of its parent. -/
theorem Inv.cancelLabels_child (hi : Inv s) {c : TaskId}
    (hc : s.ChildOf parent c) (hopen : ¬(s.view c).Failed) (h : cancelLabels s c t l) :
    containLabels s parent t l := by
  rcases h with h | ⟨rfl, rfl | hchild⟩ | ⟨-, -, hfailed⟩
  · exact .inl h
  · exact .inr ⟨rfl, hc⟩
  · exact absurd hchild (hi.childOf_ends hc)
  · exact absurd hfailed hopen

/-- A containment leaves the task itself where it is. -/
theorem Evolves.contained_calm (h : Evolves now (containLabels s t) s s') (hi : Inv s) :
    (s.view t).Calm (s'.view t) := by
  refine (h.path t).calm fun l hl => ?_
  rcases hl with hl | ⟨-, hself⟩
  · exact hl
  · exact absurd hself hi.childOf_irrefl

/-! ## Containment -/

theorem State.closeDelegation_evolves (h : s.closeDelegation t attempt = .ok s') :
    Evolves now quietLabels s s' := by
  unfold State.closeDelegation at h
  split at h
  next =>
    cases h
    exact .refl s
  next row hrow =>
    simp only [bind_eq_ok, return_ok] at h
    obtain ⟨sp, hload, rfl⟩ := h
    split
    next hclose =>
      rcases (loadSpec_ok hload).2 with hnone | hsome
      · -- a retired spec names no delegation
        have : sp = {} := by simpa [hnone] using (loadSpec_ok hload).1.symm
        simp [this] at hclose
      · exact .closeDelegation (.inl rfl) hrow hsome
    next => exact .refl s

theorem State.mem_delegatedChildren
    {c : TaskId × Task} (h : c ∈ s.delegatedChildren parent attempt) :
    s.tasks.lookup c.1 = some c.2 ∧ s.ChildOf parent c.1 := by
  rw [delegatedChildren, List.mem_insertionSort, List.mem_filter] at h
  obtain ⟨hmem, hdel⟩ := h
  have hrow := Table.lookup_eq_some_iff.mpr hmem
  refine ⟨hrow, ?_⟩
  unfold delegatedBy at hdel
  split at hdel
  next lin hlin =>
    refine ⟨lin, ?_, by simp_all⟩
    obtain ⟨sp, hsp, hdp⟩ := Option.bind_eq_some_iff.mp hlin
    have hspec : c.2.spec = some sp := (Option.filter_eq_some_iff.mp hsp).1
    simp [View.lineage, view, hrow, hspec, hdp]
  next => simp at hdel

/-- The attempt that a lineage names is stored, under the lease that the lineage names. -/
theorem Inv.parentAttempt (hi : Inv s) {lin : Lineage} (hlin : (s.view t).lineage = some lin) :
    ∃ x, s.attempts.lookup lin.parentAttemptId = some x ∧ x.taskId = lin.parentTaskId ∧
      x.leaseId = lin.parentLeaseId ∧ x.fence = lin.parentFence ∧
      x.runtimeEpoch = lin.runtimeEpoch := by
  obtain ⟨g, hg, hlease, hfence, hepoch⟩ := (hi.lineage t lin hlin).grant
  obtain ⟨x, hx, rfl⟩ := Option.map_eq_some_iff.mp hg
  obtain ⟨hx, htask⟩ := Option.filter_eq_some_iff.mp hx
  exact ⟨x, hx, by simpa using htask, hlease, hfence, hepoch⟩

/-- A task whose spec names the parent and its attempt is among the children. -/
theorem Inv.mem_delegatedChildren (hi : Inv s) {lin : Lineage} (hrow : s.tasks.lookup t = some row)
    (hlin : (s.view t).lineage = some lin) :
    (t, row) ∈ s.delegatedChildren lin.parentTaskId (some lin.parentAttemptId) := by
  have hspec : row.spec.bind (·.delegatedParent) = some lin := by
    simpa [View.lineage, State.view, hrow] using hlin
  obtain ⟨sp, hsp, hparent⟩ := Option.bind_eq_some_iff.mp hspec
  have hof : s.lineageOf row = some lin := by
    simp [lineageOf, hsp, Option.filter, hi.spec t row sp hrow hsp, hparent]
  rw [delegatedChildren, List.mem_insertionSort, List.mem_filter]
  refine ⟨Table.lookup_eq_some_iff.mp hrow, ?_⟩
  simp [delegatedBy, hof, Option.isSome_iff_ne_none, hi.run t row hrow]

/-- What a containment needs of the cancellation that it calls. -/
def CancelSpec (now : Time) (cancel : State → TaskId → Except Err State) : Prop :=
  ∀ {s t s'}, Inv s → cancel s t = .ok s' → Evolves now (cancelLabels s t) s s'

theorem Inv.containWith (hcancel : CancelSpec now cancel)
    (hi : Inv s) (h : s.containWith cancel t attempt now = .ok s') :
    Evolves now (containLabels s t) s s' := by
  simp only [State.containWith, bind_eq_ok] at h
  obtain ⟨closed, hclosed, hloop⟩ := h
  have hclose : Evolves now (containLabels s t) s closed :=
    (closeDelegation_evolves hclosed).mono fun _ _ h => .inl h
  have hsame : ∀ p c, closed.ChildOf p c ↔ s.ChildOf p c := fun _ _ =>
    hclose.childOf_iff fun _ _ => containLabels.keepsSpec
  refine hclose.trans (.loop (hclose.inv hi) (fun c hc {s₁ s₂} hi₁ he hstep => ?_) hloop)
  have hch : ∀ p c, s₁.ChildOf p c ↔ s.ChildOf p c := fun p c =>
    (he.childOf_iff fun _ _ => containLabels.keepsSpec).trans (hsame p c)
  unfold State.containChild at hstep
  split at hstep
  next =>
    cases hstep
    exact .refl _
  next hopen =>
    simp only [bind_eq_ok, return_ok] at hstep
    obtain ⟨s₃, hs₃, rfl⟩ := hstep
    obtain ⟨hread, hparent⟩ := State.mem_delegatedChildren hc
    have hchild : s₁.ChildOf t c.1 := (hch _ _).mpr ((hsame _ _).mp hparent)
    -- the row that the query read is not failed, and no cancel in between has failed it
    have hunfailed : ¬(s₁.view c.1).Failed := by
      intro hfailed
      obtain ⟨row, hrow, hstatus⟩ := (he.path c.1).failed_of (by simp [containLabels, Label.Quiet])
        hfailed
      obtain rfl := Option.mem_unique hread hrow
      exact hopen (.inl (by rw [hstatus]; rfl))
    refine Evolves.trans ((hcancel hi₁ hs₃).mono fun t' l hl => ?_) (.appendEvent ..)
    exact (containLabels_iff hch).mp (hi₁.cancelLabels_child hchild hunfailed hl)

theorem Inv.reconcileWith
    (hcancel : CancelSpec now cancel) (hi : Inv s)
    (h : s.reconcileWith cancel t attempt now = .ok s') : Evolves now (containLabels s t) s s' := by
  unfold State.reconcileWith at h
  split at h
  next =>
    cases h
    exact .refl _
  next a =>
    simp only [bind_eq_ok, return_ok] at h
    obtain ⟨contained, hcontained, rfl⟩ := h
    exact (hi.containWith hcancel hcontained).trans (.settleAttemptOf a (.inl (.inl rfl)))

theorem State.closed_settleAttemptOf {a : AttemptId} :
    ((s.settleAttemptOf t a).view t).Closed (some a) := by
  simp only [View.Closed, Option.mem_def, Option.some.injEq, forall_eq']
  intro g hg
  obtain ⟨x, hx, rfl⟩ := Option.map_eq_some_iff.mp hg
  obtain ⟨hlookup, ht⟩ := Option.filter_eq_some_iff.mp hx
  rw [settleAttemptOf, Table.lookup_modify_self] at hlookup
  obtain ⟨y, -, rfl⟩ := Option.map_eq_some_iff.mp hlookup
  split at ht
  next hy => simp [Attempt.grant, hy]
  next hy => exact absurd (by simpa using ht) hy

/-- A reconciled attempt is closed. -/
theorem State.reconcileWith_closed (h : s.reconcileWith cancel t attempt now = .ok s') :
    (s'.view t).Closed attempt := by
  unfold reconcileWith at h
  split at h
  next => simp [View.Closed]
  next a =>
    simp only [bind_eq_ok, return_ok] at h
    obtain ⟨contained, -, rfl⟩ := h
    exact closed_settleAttemptOf

/-! ## Cancellation -/

theorem containLabels.cancelLabels {target : TaskId} (h : containLabels s target t l) :
    cancelLabels s target t l :=
  h.imp id fun ⟨hc, hch⟩ => .inl ⟨hc, .inr hch⟩

/-- A stop that is only requested, because the external work of the task is not known to have
ended. -/
theorem Inv.requestStop (hcancel : CancelSpec now cancel)
    (hi : Inv s) {contained : State} {binding : Option BindingView}
    (hrow : s.tasks.lookup t = some task)
    (hopen : task.status ≠ .completed ∧ task.status ≠ .cancelled)
    (hcontained : s.containWith cancel t none now = .ok contained)
    (hbinding : contained.executionBinding t = .ok binding)
    (hunres : unresolvedExternal binding = true) :
    Evolves now (cancelLabels s t) s (contained.requestCancelTask t task now) := by
  have hcont := hi.containWith hcancel hcontained
  obtain ⟨row, hrow', hstage⟩ := (hcont.contained_calm hi).row _ hrow
  have hu := (unresolvedExternal_iff hbinding).mp hunres
  have hlive : row.status.terminal = false := by
    have hnot := (((hcont.inv hi).view t).row row hrow').done_resolved
    rw [← hstage.status] at hopen
    revert hnot hopen
    cases row.status <;> simp [Status.terminal, hu]
  exact (hcont.mono fun _ _ => containLabels.cancelLabels).trans
    (.requestCancelTask (.inr (.inl ⟨rfl, .inl rfl⟩)) hrow' hlive hu)

/-- A stop of a task without external work: its children are contained, its attempt is reconciled,
and it may be stopped under the lease that was read. -/
theorem Inv.reconcileStop
    (hcancel : CancelSpec now cancel) (hi : Inv s) {contained reconciled : State}
    {binding : Option BindingView} (hrow : s.tasks.lookup t = some task)
    (hopen : task.status ≠ .completed)
    (hcontained : s.containWith cancel t none now = .ok contained)
    (hbinding : contained.executionBinding t = .ok binding)
    (hres : ¬unresolvedExternal binding = true)
    (hreconciled : contained.reconcileWith cancel t task.attemptId now = .ok reconciled) :
    Evolves now (cancelLabels s t) s reconciled ∧
      ∃ row, row.status = task.status ∧ Stoppable reconciled t row task.leaseToken := by
  have hcont := hi.containWith hcancel hcontained
  have hi₁ := hcont.inv hi
  have hsame : ∀ p c, contained.ChildOf p c ↔ s.ChildOf p c := fun _ _ =>
    hcont.childOf_iff fun _ _ => containLabels.keepsSpec
  have hreco := hi₁.reconcileWith hcancel hreconciled
  obtain ⟨row₁, hrow₁, hstage₁⟩ := (hcont.contained_calm hi).row _ hrow
  have hcalm := hreco.contained_calm hi₁
  obtain ⟨row₂, hrow₂, hstage₂⟩ := hcalm.row _ hrow₁
  refine ⟨(hcont.mono fun _ _ => containLabels.cancelLabels).trans (hreco.mono fun t' l hl =>
    ((containLabels_iff hsame).mp hl).cancelLabels), row₂, hstage₂.status.trans hstage₁.status,
    hrow₂, ?_,
    fun hu => ?_, .inl ?_, ?_⟩
  · rw [hstage₂.status, hstage₁.status]
    exact hopen
  · exact hres ((unresolvedExternal_iff hbinding).mpr (hcalm.unresolved.mp hu))
  · exact hstage₂.leaseToken.trans hstage₁.leaseToken
  · rw [hstage₂.attemptId, hstage₁.attemptId]
    exact reconcileWith_closed hreconciled

/-- A cancel, by induction on the nesting: the containment of the children, then the task's own rows,
then the refresh of its continuations. -/
theorem State.cancelTask_evolves (depth : Nat) : CancelSpec now (cancelTask now depth) := by
  induction depth with
  | zero =>
    intro s t s' _ h
    cases h
  | succ depth ih =>
    intro s t s' hi h
    simp only [cancelTask, bind_eq_ok, orThrow_eq_ok] at h
    obtain ⟨task, hrow, h⟩ := h
    split at h
    next =>
      simp only [bind_eq_ok, return_ok] at h
      obtain ⟨_, -, rfl⟩ := h
      exact .refl _
    next hopen =>
      simp only [not_or] at hopen
      simp only [bind_eq_ok] at h
      obtain ⟨contained, hcontained, binding, hbinding, h⟩ := h
      split at h
      next hunres =>
        simp only [bind_eq_ok, return_ok] at h
        obtain ⟨_, -, rfl⟩ := h
        exact hi.requestStop ih hrow ⟨hopen.1, hopen.2.2⟩ hcontained hbinding hunres
      next hres =>
        simp only [bind_eq_ok, return_ok] at h
        obtain ⟨reconciled, hrec, refreshed, hrefresh, _, -, rfl⟩ := h
        obtain ⟨hreco, row, hstatus, hstop⟩ :=
          hi.reconcileStop ih hrow hopen.1 hcontained hbinding hres hrec
        have hrows : Evolves now (cancelLabels s t) s
            (reconciled.cancelTaskRows t task binding.isSome now) :=
          hreco.trans (.cancelTaskRows (hstatus ▸ cancelLabels_stop hrow) hstop)
        exact hrows.trans (((hrows.inv hi).refreshContinuations hrefresh).mono fun _ _ hl => .inl hl)

theorem Inv.cancelTask (hi : Inv s) {depth : Nat} (h : s.cancelTask now depth t = .ok s') :
    Evolves now (cancelLabels s t) s s' :=
  cancelTask_evolves depth hi h

theorem Inv.containDelegatedChildren (hi : Inv s)
    (h : s.containDelegatedChildren t attempt now = .ok s') :
    Evolves now (containLabels s t) s s' :=
  hi.containWith (cancelTask_evolves _) h

theorem Inv.reconcileRuntimeAttempt (hi : Inv s)
    (h : s.reconcileRuntimeAttempt t attempt now = .ok s') :
    Evolves now (containLabels s t) s s' :=
  hi.reconcileWith (cancelTask_evolves _) h

end WorkspaceRuntime
