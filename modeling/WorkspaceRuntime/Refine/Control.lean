import WorkspaceRuntime.Refine.Settlement

/-!
# Retries, runs and owner stops

A retry takes a terminal task back to the queue. A run has one task, so that the loops of the run
commands make at most one round; the loop over the entries of an owner stop makes one round for each
of several tasks, which do not disturb each other.
-/

namespace WorkspaceRuntime

open Fallible State

variable {env : Env} {now : Time} {s s' : State} {t : TaskId} {row task : Task} {access : Access}
  {body : Json} {key : Option String} {replayed : Bool} {r : RunId}
  {selected : Option (List TaskId)} {captured : Captured} {proof : String} {entry : CapturedEntry}

/-! ## Retries -/

/-- The labels of a retry of the task. -/
def retryLabels (target t : TaskId) (l : Label) : Prop :=
  l.Quiet ∨ (t = target ∧ (l = .retry ∨ l = .reopen))

/-- The rows of a retry are written before its continuations are refreshed. -/
theorem State.retryTaskRows_ok (hrow : s.tasks.lookup t = some task)
    (hdone : task.status.terminal = true) (h : s.retryTaskRows env t task = .ok s') :
    ∃ reopened, Evolves env.now (fun t' l => t' = t ∧ (l = .retry ∨ l = .reopen)) s reopened ∧
      reopened.refreshContinuationsForPredecessor t env.now = .ok s' := by
  simp only [retryTaskRows, resetExecutionAttempt, bind_eq_ok, return_ok] at h
  obtain ⟨_, -, _, ⟨selected, hselected, rfl⟩, refreshed, hrefresh, _, -, rfl⟩ := h
  refine ⟨_, Evolves.trans (Evolves.trans ?_ (.setRunStatus ..)) (.appendEvent ..), hrefresh⟩
  refine .retryRows ⟨rfl, .inl rfl⟩ (fun _ => ⟨rfl, .inr rfl⟩) hrow hdone fun target htarget => ?_
  -- the selector was read after the row had gone back to the queue, with the request it had before
  refine (effectiveExecutionTarget_selects hselected target htarget).congr rfl ?_
  intro row' hrow'
  obtain ⟨row, hrow, rfl⟩ := Option.map_eq_some_iff.mp
    ((Table.lookup_modify_self ..).symm.trans hrow')
  exact ⟨row, hrow, rfl⟩

theorem Inv.retryTaskRows (hi : Inv s) (hrow : s.tasks.lookup t = some task)
    (hdone : task.status.terminal = true) (h : s.retryTaskRows env t task = .ok s') :
    Evolves env.now (retryLabels t) s s' := by
  obtain ⟨reopened, hreopen, hrefresh⟩ := retryTaskRows_ok hrow hdone h
  exact hi.thenRefresh (fun _ _ hl => .inl hl) hrefresh (hreopen.mono fun _ _ hl => .inr hl)

/-- What the check of the parent's capacity has read. -/
structure HasCapacity (s : State) (lin : Lineage) (now : Time) (parent : Task) (sp : TaskSpec)
    (limit : Int) : Prop where
  stored : s.tasks.lookup lin.parentTaskId = some parent
  running : parent.status = .running
  current : parent.attemptId = some lin.parentAttemptId
  fence : parent.leaseFence = lin.parentFence
  spec : parent.spec.getD {} = sp
  limited : maxActiveChildren sp.childDelegation = .ok limit
  below : s.activeChildren lin.parentTaskId lin.parentAttemptId < limit

/-- A child that is retried has a running parent with room for it. -/
theorem State.assertDelegatedRetryCapacity_ok {lin : Lineage} {u : Unit}
    (h : s.assertDelegatedRetryCapacity t now = .ok u) (hlin : (s.view t).lineage = some lin) :
    ∃ parent sp limit, HasCapacity s lin now parent sp limit := by
  simp only [assertDelegatedRetryCapacity, bind_eq_ok] at h
  obtain ⟨spec, hload, h⟩ := h
  obtain rfl := (loadSpec_ok hload).1
  have hparent : (((s.tasks.lookup t).bind (·.spec)).getD {}).delegatedParent = some lin := by
    obtain ⟨row, hrow, hspec⟩ := Option.bind_eq_some_iff.mp hlin
    obtain ⟨sp, hsp, hdp⟩ := Option.bind_eq_some_iff.mp hspec
    have hrow' : s.tasks.lookup t = some row := hrow
    simp [hrow', hsp, hdp]
  simp only [hparent, bind_eq_ok, orThrow_eq_ok, require_eq_ok] at h
  obtain ⟨parent, hrow, sp, hloaded, _, ⟨hrunning, hcurrent, -, hfence, -, -⟩, _, -, limit, hlimit,
    hbelow⟩ := h
  exact ⟨parent, sp, limit, hrow, hrunning, hcurrent, hfence, (loadSpec_ok hloaded).1, hlimit,
    hbelow⟩

theorem State.retryTaskRows_capacity (h : s.retryTaskRows env t task = .ok s') :
    s.assertDelegatedRetryCapacity t env.now = .ok () := by
  simp only [retryTaskRows, bind_eq_ok] at h
  obtain ⟨_, hcapacity, -⟩ := h
  exact hcapacity

/-- What a retry has checked, and the state that its rows leave. -/
theorem State.retryTask_ok (h : s.retryTask env access t body key = .ok (s', false)) :
    ∃ task retried, s.tasks.lookup t = some task ∧ task.unknown = false ∧
      task.status.terminal = true ∧ s.retryTaskRows env t task = .ok retried ∧
      Records retried s' := by
  simp only [retryTask, bind_eq_ok, orThrow_eq_ok] at h
  obtain ⟨key, -, fields, -, task, hget, replay, -, h⟩ := h
  split at h
  next => simp at h
  next =>
    simp only [bind_eq_ok, require_eq_ok, return_ok, Prod.mk.injEq, and_true] at h
    obtain ⟨_, -, _, hknown, _, hdone, _, -, retried, hretried, recorded, hrecord, rfl⟩ := h
    exact ⟨task, retried, getTask_ok hget, hknown, hdone, hretried,
      commandRecord_records hrecord⟩

theorem State.retryTask_replay (h : s.retryTask env access t body key = .ok (s', true)) :
    s' = s := by
  simp only [retryTask, bind_eq_ok] at h
  obtain ⟨_, -, _, -, _, -, replay, -, h⟩ := h
  split at h
  next => simpa using h.symm
  next => simp [bind_eq_ok] at h

theorem Inv.retryTask (hi : Inv s) (h : s.retryTask env access t body key = .ok (s', replayed)) :
    Evolves env.now (retryLabels t) s s' := by
  cases replayed with
  | true =>
    obtain rfl := retryTask_replay h
    exact .refl _
  | false =>
    obtain ⟨task, retried, hrow, -, hdone, hretried, hrecords⟩ := retryTask_ok h
    exact (hi.retryTaskRows hrow hdone hretried).trans hrecords.evolves

/-- The continuations of a task that is retried wait for it, so that none is admitted. -/
theorem Inv.retryTask_admits (hi : Inv s)
    (h : s.retryTask env access t body key = .ok (s', replayed)) :
    AdmitsDone (fun _ _ => False) s s' := by
  cases replayed with
  | true =>
    obtain rfl := retryTask_replay h
    exact .refl _
  | false =>
    obtain ⟨task, retried, hrow, -, hdone, hretried, hrecords⟩ := retryTask_ok h
    obtain ⟨reopened, hreopen, hrefresh⟩ := retryTaskRows_ok hrow hdone hretried
    have hquiet : Evolves env.now quietLabels reopened s' :=
      ((hreopen.inv hi).refreshContinuations hrefresh).trans hrecords.evolves
    intro t' adm hnone hsome c hc
    have hnone' : reopened.admissions.lookup t' = none := by
      by_contra hne
      obtain ⟨adm', hadm'⟩ := Option.ne_none_iff_exists'.mp hne
      have hback := (hreopen.path t').admission_of (by simp) hadm'
      exact absurd (hnone.symm.trans hback) (by simp)
    exact (hquiet.admits t' adm hnone' hsome c hc).imp id (by simp [quietLabels, Label.Quiet])

/-! ## Cancels -/

theorem Inv.cancelTaskCanonical (hi : Inv s)
    (h : s.cancelTaskCanonical env t body key = .ok (s', replayed)) :
    Evolves env.now (cancelLabels s t) s s' := by
  simp only [State.cancelTaskCanonical, bind_eq_ok] at h
  obtain ⟨_, -, _, -, _, -, replay, -, h⟩ := h
  split at h
  next =>
    cases h
    exact .refl _
  next =>
    simp only [bind_eq_ok, return_ok, Prod.mk.injEq] at h
    obtain ⟨_, -, cancelled, hcancelled, recorded, hrecord, rfl, -⟩ := h
    exact (hi.cancelTask hcancelled).trans (commandRecord_records hrecord).evolves

/-! ## Runs -/

/-- The loops over the tasks of a run make one round at most. -/
theorem Inv.runTasks (hi : Inv s) (r : RunId) :
    s.runTasks r = [] ∨ ∃ t task, s.runTasks r = [(t, task)] ∧ s.tasks.lookup t = some task := by
  have hmem : ∀ e ∈ s.runTasks r, s.tasks.lookup e.1 = some e.2 ∧ e.2.runId = r := by
    intro e he
    rw [State.runTasks, List.mem_insertionSort, List.mem_filter] at he
    exact ⟨Table.lookup_eq_some_iff.mpr he.1, by simpa using he.2⟩
  have hnodup : (s.runTasks r).Nodup := by
    refine (List.perm_insertionSort _ _).nodup_iff.mpr (List.Nodup.filter _ ?_)
    exact List.Nodup.of_map _ s.tasks.nodup
  match hlist : s.runTasks r, hmem, hnodup with
  | [], _, _ => exact .inl rfl
  | [e], hmem, _ => exact .inr ⟨e.1, e.2, rfl, (hmem e (by simp)).1⟩
  | e :: f :: rest, hmem, hnodup =>
    obtain ⟨he, hre⟩ := hmem e (by simp)
    obtain ⟨hf, hrf⟩ := hmem f (by simp)
    have hkey := hi.single e.1 f.1 e.2 f.2 he hf (hre.trans hrf.symm)
    have heq : e = f := Prod.ext hkey (Option.mem_unique he (hkey ▸ hf))
    simp [heq] at hnodup

theorem Inv.cancelRunTask (hi : Inv s) (hrow : s.tasks.lookup t = some task)
    (h : s.cancelRunTask now (t, task) = .ok s') : Evolves now backgroundLabels s s' := by
  simp only [State.cancelRunTask] at h
  split at h
  next =>
    cases h
    exact .refl _
  next hlive =>
    have hopen : task.status ≠ .completed ∧ task.status ≠ .cancelled := by
      constructor <;> intro hst <;> simp [hst, Status.terminal] at hlive
    have hunfailed : task.status ≠ .failed := by
      intro hst
      simp [hst, Status.terminal] at hlive
    have hsub : ∀ t' l, cancelLabels s t t' l → backgroundLabels t' l := by
      rintro t' l (hl | hl | ⟨-, -, failed, hfailed, hst⟩)
      · exact .inl hl
      · exact .inr (.inl hl.1)
      · obtain rfl := Option.mem_unique hrow hfailed
        exact absurd hst hunfailed
    simp only [bind_eq_ok] at h
    obtain ⟨contained, hcontained, binding, hbinding, h⟩ := h
    split at h
    next hunres =>
      cases h
      exact (hi.requestStop (cancelTask_evolves _) hrow hopen hcontained hbinding hunres).mono
        hsub
    next hres =>
      simp only [bind_eq_ok] at h
      obtain ⟨reconciled, hrec, hrefresh⟩ := h
      obtain ⟨hreco, row, hstatus, hstop⟩ := hi.reconcileStop (cancelTask_evolves _) hrow
        hopen.1 hcontained hbinding hres hrec
      refine hi.thenRefresh (fun _ _ hl => .inl hl) hrefresh ?_
      refine (hreco.mono hsub).trans (.cancelRunTaskRows (hsub t _ ?_) hstop)
      rw [hstatus]
      exact cancelLabels_stop hrow

theorem Inv.cancelRun (hi : Inv s) (h : s.cancelRun r now = .ok s') :
    Evolves now backgroundLabels s s' := by
  simp only [State.cancelRun, bind_eq_ok, return_ok] at h
  obtain ⟨run, -, _, -, cancelled, hloop, rfl⟩ := h
  refine Evolves.trans ?_ ((Evolves.setRunStatus ..).trans (.appendEvent ..))
  rcases hi.runTasks r with hnil | ⟨t, task, hone, hrow⟩
  · rw [hnil] at hloop
    cases hloop
    exact .refl _
  · rw [hone] at hloop
    simp only [List.foldlM_cons, List.foldlM_nil, bind_eq_ok, return_ok,
      exists_eq_right] at hloop
    exact hi.cancelRunTask hrow hloop

/-- The labels of the retry of a run: only tasks that have their spec are retried. -/
def retryRunLabels (s : State) (t : TaskId) (l : Label) : Prop :=
  l.Quiet ∨ (l = .retry ∧ ∃ row sp, s.tasks.lookup t = some row ∧ row.spec = some sp)

theorem Inv.retryRunTask (hi : Inv s) {sp : TaskSpec} (hrow : s.tasks.lookup t = some task)
    (hfailed : task.status = .failed) (hspec : task.spec = some sp)
    (h : s.retryRunTask now (t, task) = .ok s') : Evolves now (retryRunLabels s) s s' := by
  simp only [State.retryRunTask, State.resetExecutionAttempt, bind_eq_ok, return_ok] at h
  obtain ⟨_, -, _, ⟨selected, hselected, rfl⟩, hrefresh⟩ := h
  have hsel : ∀ target ∈ selected, (s.view t).Selects target := fun target htarget =>
    (effectiveExecutionTarget_selects hselected target htarget).congr rfl
      fun row' hrow' => ⟨row', hrow', rfl⟩
  have hdone : task.status.terminal = true := by simp [hfailed, Status.terminal]
  refine hi.thenRefresh (fun _ _ hl => .inl hl) hrefresh ?_
  -- the reset of the binding and the update of the row touch different tables
  have hrows : Evolves now (retryRunLabels s) s
      (((s.releaseReservations t task.leaseToken now).retryRow t none now).resetBinding t selected
        (s.releaseReservations t task.leaseToken now).currentRuntimeEpoch now) :=
    .retryRows (.inr ⟨rfl, task, sp, hrow, hspec⟩) (fun hc => by simp [hfailed] at hc) hrow hdone
      hsel
  exact hrows.trans (.appendEvent task.runId (some t) .retried now)

theorem Inv.retryRun (hi : Inv s) (h : s.retryRun env r selected = .ok s') :
    Evolves env.now (retryRunLabels s) s s' := by
  simp only [State.retryRun, bind_eq_ok, require_eq_ok, return_ok] at h
  obtain ⟨run, -, _, -, _, -, _, -, _, -, _, hspecs, _, -, _, -, retried, hloop, rfl⟩ := h
  refine Evolves.trans ?_ ((Evolves.setRunStatus ..).trans (.appendEvent ..))
  rcases hi.runTasks r with hnil | ⟨t, task, hone, hrow⟩
  · rw [hnil] at hloop
    cases hloop
    exact .refl _
  · rw [hone, List.filter_cons, List.filter_nil] at hloop hspecs
    split at hloop
    next heligible =>
      rw [if_pos heligible] at hspecs
      obtain ⟨sp, hspec⟩ := Option.ne_none_iff_exists'.mp (hspecs _ (List.mem_singleton.mpr rfl))
      have hfailed : task.status = .failed := by
        simpa using (Bool.and_eq_true_iff.mp heligible).1
      simp only [List.foldlM_cons, List.foldlM_nil, bind_eq_ok, return_ok,
        exists_eq_right] at hloop
      exact hi.retryRunTask hrow hfailed hspec hloop
    next =>
      cases hloop
      exact .refl _

theorem State.recordRun_records {kind : CommandKind} {request : RequestHash} {at_ : Time}
    (h : s.recordRun kind r key request at_ = .ok s') :
    Records s s' := by
  unfold recordRun at h
  split at h
  next => exact commandRecord_records h
  next =>
    cases h
    rfl

theorem Inv.cancelRunCommand (hi : Inv s) (h : s.cancelRunCommand env r key = .ok (s', replayed)) :
    Evolves env.now backgroundLabels s s' := by
  simp only [State.cancelRunCommand, bind_eq_ok] at h
  obtain ⟨replay, -, h⟩ := h
  split at h
  next =>
    cases h
    exact .refl _
  next =>
    simp only [bind_eq_ok, return_ok, Prod.mk.injEq] at h
    obtain ⟨cancelled, hcancelled, recorded, hrecord, rfl, -⟩ := h
    exact (hi.cancelRun hcancelled).trans (recordRun_records hrecord).evolves

theorem Inv.retryRunCommand (hi : Inv s)
    (h : s.retryRunCommand env r selected key = .ok (s', replayed)) :
    Evolves env.now (retryRunLabels s) s s' := by
  simp only [State.retryRunCommand, bind_eq_ok] at h
  obtain ⟨replay, -, h⟩ := h
  split at h
  next =>
    cases h
    exact .refl _
  next =>
    simp only [bind_eq_ok, return_ok, Prod.mk.injEq] at h
    obtain ⟨retried, hretried, recorded, hrecord, rfl, -⟩ := h
    exact (hi.retryRun hretried).trans (recordRun_records hrecord).evolves

/-! ## Owner stops -/

/-- The labels of a finalised owner stop. -/
def finalizeLabels (captured : Captured) (t : TaskId) (l : Label) : Prop :=
  l.Quiet ∨ (l = .finalize ∧ t ∈ captured.entries.map (·.taskId))

/-- The task of an entry waits for its stop, under the lease and the attempt that were captured. -/
def CapturedEntry.Pending (entry : CapturedEntry) (s : State) : Prop :=
  ∃ row, s.tasks.lookup entry.taskId = some row ∧ row.status = .cancelRequested ∧
    row.leaseToken = entry.task.leaseToken ∧ row.attemptId = entry.task.attemptId

/-- The rows of an entry are those that were captured, up to the columns that a capture leaves out; a
finalised task has given up its attempt and its lease. -/
structure CapturedEntry.Unchanged (entry : CapturedEntry) (s : State) (proof : String) : Prop where
  task : ∃ row, s.tasks.lookup entry.taskId = some row ∧
    row.captured = (if s.finalized entry proof then
      { entry.task with executorId := none, attemptId := none, leaseToken := none }
      else entry.task).captured ∧
    row.status = if s.finalized entry proof then .cancelled else .cancelRequested
  attempt : ∃ x, s.attempts.lookup entry.attemptId = some x ∧ x.captured = entry.attempt.captured ∧
    x.settled = s.finalized entry proof
  binding : ∃ view, s.executionBinding entry.taskId = .ok (some view) ∧
    view.captured = entry.binding.captured ∧
    view.row.status = if s.finalized entry proof then .released else .stale
  run : ∃ run, s.runs.lookup entry.task.runId = some run ∧ run.captured = entry.run.captured
  held : ∀ r ∈ s.taskReservations entry.taskId, r.2.releasedAt = none →
    some r.2.leaseToken = entry.task.leaseToken
  reservations : ((s.taskReservations entry.taskId).filter fun r =>
      some r.2.leaseToken = entry.task.leaseToken).map (fun r => (r.1, r.2.captured)) =
    entry.reservations.map fun r => (r.1, r.2.captured)

theorem State.validateCaptured_ok {replay : Bool}
    (h : s.validateCaptured captured proof entry = .ok replay) :
    s.finalized entry proof = replay ∧ entry.Unchanged s proof := by
  simp only [validateCaptured, bind_eq_ok, orThrow_eq_ok, require_eq_ok, return_ok] at h
  obtain ⟨row, hrow, x, hx, found, hfound, view, rfl, run, hrun, _, hsame, _,
    ⟨htask, hattempt, hview, hstatus, hsettled, hbound⟩, _, -, _, -, _, -, _, hholds, rfl⟩ := h
  exact ⟨rfl, ⟨row, hrow, htask, hstatus⟩, ⟨x, hx, hattempt, hsettled⟩,
    ⟨view, hfound, hview, hbound⟩, ⟨run, hrun, hsame⟩, hholds.1, hholds.2.1⟩

theorem CapturedEntry.Unchanged.pending (h : entry.Unchanged s proof)
    (hfresh : s.finalized entry proof = false) : entry.Pending s := by
  obtain ⟨row, hrow, hsame, hstatus⟩ := h.task
  rw [hfresh] at hsame hstatus
  exact ⟨row, hrow, by simpa using hstatus,
    by simpa [Task.captured] using congrArg Task.leaseToken hsame,
    by simpa [Task.captured] using congrArg Task.attemptId hsame⟩

/-- A set that passes its validation has not changed, and was finalised as a whole or not at all. -/
theorem State.validateOwnedLocalCancellations_ok {replay : Bool}
    (h : s.validateOwnedLocalCancellations captured proof = .ok replay) :
    (captured.entries.map (·.taskId)).Nodup ∧
      (∀ t ∈ s.ownedCancellationRows captured.executorId, t ∈ captured.entries.map (·.taskId)) ∧
      ∀ entry ∈ captured.entries, s.finalized entry proof = replay ∧ entry.Unchanged s proof := by
  simp only [validateOwnedLocalCancellations, bind_eq_ok, require_eq_ok, return_ok] at h
  obtain ⟨_, -, _, ⟨hnodup, hall⟩, phases, hphases, _, hone, rfl⟩ := h
  refine ⟨hnodup, hall, fun entry hentry => ?_⟩
  obtain ⟨phase, hphase, hmem⟩ := mem_of_mapM hphases hentry
  obtain ⟨rfl, hsame⟩ := validateCaptured_ok hphase
  refine ⟨?_, hsame⟩
  cases hphase : s.finalized entry proof with
  | true => simpa [hphase] using hmem
  | false =>
    rw [hphase] at hmem
    exact (decide_eq_false fun htrue => hone ⟨htrue, hmem⟩).symm

/-- The statements of a round up to the refresh of the continuations. -/
def State.stopRows (proof : String) (now : Time) (s : State) (entry : CapturedEntry) : State :=
  let settled := match entry.task.attemptId with
    | some a => s.settleAttemptRow a
    | none => s
  let released := settled.releaseReservations entry.taskId entry.task.leaseToken now
  (((released.closeStaleBinding entry.taskId now).cancelRow entry.taskId now).setRunStatus
    entry.task.runId .cancelled now).appendEvent entry.task.runId (some entry.taskId)
      (.cancelled (entry.task.attemptId.map fun a => (a, proof))) now

theorem State.finalizeEntry_ok (h : s.finalizeEntry proof now entry = .ok s') :
    (∃ b ∈ s.bindings.lookup entry.taskId, b.status = .stale) ∧
      (s.stopRows proof now entry).refreshContinuationsForPredecessor entry.taskId now = .ok s' := by
  simp only [State.finalizeEntry, bind_eq_ok, require_eq_ok] at h
  obtain ⟨_, ⟨b, hb, -, -, -, hstale⟩, hrefresh⟩ := h
  refine ⟨⟨b, ?_, hstale⟩, hrefresh⟩
  cases hattempt : entry.task.attemptId <;> rw [hattempt] at hb <;> exact hb

theorem Evolves.stopRows {A : TaskId → Label → Prop} (hquiet : ∀ t l, l.Quiet → A t l)
    (hl : A entry.taskId .finalize) (hpending : entry.Pending s)
    (hstale : ∃ b ∈ s.bindings.lookup entry.taskId, b.status = .stale) :
    Evolves now A s (s.stopRows proof now entry) := by
  obtain ⟨row, hrow, hrequested, htoken, hcurrent⟩ := hpending
  refine Evolves.trans (Evolves.trans ?_ (.setRunStatus ..)) (.appendEvent ..)
  rw [← htoken, ← hcurrent]
  cases hattempt : row.attemptId with
  | none => exact .finalizeRows hl hrow hrequested (by simp [View.Closed, hattempt]) hstale
  | some a =>
    exact (Evolves.settleAttemptRow a fun _ _ => hquiet _ _ (.inl rfl)).trans
      (.finalizeRows hl hrow hrequested (closed_settleAttemptRow (by simp [hattempt])) hstale)

theorem Inv.finalizeEntry {A : TaskId → Label → Prop} (hi : Inv s) (hquiet : ∀ t l, l.Quiet → A t l)
    (hl : A entry.taskId .finalize) (hpending : entry.Pending s)
    (h : s.finalizeEntry proof now entry = .ok s') :
    Evolves now A s s' := by
  obtain ⟨hstale, hrefresh⟩ := finalizeEntry_ok h
  exact hi.thenRefresh hquiet hrefresh (.stopRows hquiet hl hpending hstale)

/-- The rounds of a finalisation do not disturb each other: a round finalises its own task, and moves
the others by quiet steps. -/
theorem Inv.finalizeOwnedLocalCancellations (hi : Inv s)
    (h : s.finalizeOwnedLocalCancellations captured proof now = .ok s') :
    Evolves now (finalizeLabels captured) s s' := by
  simp only [State.finalizeOwnedLocalCancellations, bind_eq_ok] at h
  obtain ⟨replay, hvalid, h⟩ := h
  cases replay with
  | true =>
    simp only [if_true, return_ok] at h
    exact h ▸ .refl _
  | false =>
    simp only [Bool.false_eq_true, if_false] at h
    obtain ⟨hnodup, -, hvalid⟩ := validateOwnedLocalCancellations_ok hvalid
    refine Evolves.rounds (·.taskId)
      (P := fun entry s => entry ∈ captured.entries ∧ entry.Pending s) hi hnodup
      (fun entry he => ⟨he, (hvalid entry he).2.pending (hvalid entry he).1⟩)
      (fun {entry s₁ s₂} hi₁ hpre hround => ?_) h
    refine ⟨hi₁.finalizeEntry (fun _ _ hl => .inl hl)
      (.inr ⟨rfl, List.mem_map_of_mem hpre.1⟩) hpre.2 hround, fun other hne hother => ?_⟩
    have hev : Evolves now (fun t l => l.Quiet ∨ t = entry.taskId) s₁ s₂ :=
      hi₁.finalizeEntry (fun _ _ hl => .inl hl) (.inr rfl) hpre.2 hround
    have hcalm := (hev.path other.taskId).calm fun l hl => hl.resolve_right hne
    obtain ⟨row, hrow, hrequested, htoken, hcurrent⟩ := hother.2
    obtain ⟨row', hrow', hstage⟩ := hcalm.row _ hrow
    exact ⟨hother.1, row', hrow', hstage.status.trans hrequested, hstage.leaseToken.trans htoken,
      hstage.attemptId.trans hcurrent⟩

end WorkspaceRuntime
