import WorkspaceRuntime.System

/-!
# Lease expiry by reads

A read of tasks first reaps the leases that are overdue. A task without external work goes back to the
queue and has no lease any more, so a second read finds nothing to do. A task whose verified external
executor may still run keeps its lease: every read finds it overdue, marks it, and logs that again.
Reads are idempotent exactly when no overdue task is of that kind (`reads_settle_iff`).
-/

namespace WorkspaceRuntime

open Fallible State View

variable {now last : Time} {l : Label} {v v' : View} {allowed : Label → Prop}
  {s s' : State} {t : TaskId} {row task : Task}

/-! ## Overdue tasks -/

/-- The lease of the task is overdue. -/
def View.Overdue (v : View) (now : Time) : Prop := ∃ row, v.row = some row ∧ row.overdue now = true

/-- The lease is overdue, and an external executor may still work on the task. -/
def View.Stuck (v : View) (now : Time) : Prop := v.Overdue now ∧ v.unresolved

/-- A queued task has no lease deadline. -/
def View.QueueIdle (v : View) : Prop :=
  ∀ row, v.row = some row → row.status = .queued → row.leaseExpiresAt = none

theorem Step.queueIdle (h : Step now l v v') (hq : v.QueueIdle) : v'.QueueIdle := by
  cases h with
  | create hcreated =>
    intro row hrow _
    obtain rfl := row_eq hcreated.stored hrow
    exact hcreated.deadline
  | recover | keepUnknown | finish => grind [QueueIdle]
  | _ => simp_all [QueueIdle]

theorem Task.overdue_iff : row.overdue now = true ↔
    row.status.leased = true ∧ ∃ d, row.leaseExpiresAt = some d ∧ d ≤ now := by
  simp [Task.overdue, Option.any_eq_true]

/-- A leased task with an overdue deadline, from a live one with that deadline. -/
theorem View.Overdue.of_live (hq : v.QueueIdle) (hrow : v.row = some row)
    (hlive : row.status.terminal = false) {d : Time} (hd : row.leaseExpiresAt = some d)
    (hpast : d ≤ last) : v.Overdue last := by
  have hleased : row.status.leased = true := by
    cases hstatus : row.status <;> simp_all [Status.terminal, Status.leased]
    simp [hq row hrow hstatus] at hd
  exact ⟨row, hrow, Task.overdue_iff.mpr ⟨hleased, d, hd, hpast⟩⟩

/-- Background work makes no lease overdue. -/
theorem Step.overdue_of (h : Step now l v v') (hl : l.Background) (hq : v.QueueIdle)
    (ho : v'.Overdue last) : v.Overdue last := by
  cases h with
  | respec hrow | register hrow | touch hrow | mark hrow =>
    obtain ⟨row, hrow', hover⟩ := ho
    cases hrow'
    exact ⟨_, hrow, hover⟩
  | rebind | settle => exact ho
  | wait hrow hqueued | admission hrow hqueued =>
    obtain ⟨row, hrow', hover⟩ := ho
    cases hrow'
    exact absurd (Task.overdue_iff.mp hover).1 (by simp [hqueued, Status.leased])
  | stop | requeue =>
    obtain ⟨row, hrow', hover⟩ := ho
    cases hrow'
    exact absurd (Task.overdue_iff.mp hover).1 (by simp [Status.leased])
  | keepUnknown =>
    obtain ⟨row, hrow', hover⟩ := ho
    cases hrow'
    obtain ⟨-, d, hd, -⟩ := Task.overdue_iff.mp hover
    cases hd
  | request hrow hlive _ =>
    obtain ⟨row, hrow', hover⟩ := ho
    cases hrow'
    obtain ⟨-, d, hd, hpast⟩ := Task.overdue_iff.mp hover
    exact .of_live hq hrow hlive hd hpast
  | recover hrow =>
    obtain ⟨row, hrow', hover⟩ := ho
    cases hrow'
    split at hover
    · simp [Task.overdue, Status.leased] at hover
    · exact ⟨_, hrow, hover⟩
  | _ => simp [Label.Background, Label.Quiet] at hl

theorem Life.overdue_of (h : Life now allowed v v') (hl : ∀ l, allowed l → l.Background)
    (hq : v.QueueIdle) (ho : v'.Overdue last) : v.Overdue last :=
  (h.relates (R := fun v v' => v.QueueIdle → v'.QueueIdle ∧ (v'.Overdue last → v.Overdue last))
    (fun _ hq => ⟨hq, id⟩)
    (fun h h' hq => ⟨(h' (h hq).1).1, fun ho => (h hq).2 ((h' (h hq).1).2 ho)⟩)
    (fun ha hs hq => ⟨hs.queueIdle hq, hs.overdue_of (hl _ ha) hq⟩) hq).2 ho

theorem Life.queueIdle (h : Life now allowed v v') (hq : v.QueueIdle) : v'.QueueIdle :=
  h.preserves (I := QueueIdle) (fun _ hs => hs.queueIdle) hq

/-- Background work starts no external work. -/
theorem Step.background_unresolved (h : Step now l v v') (hl : l.Background) (hu : v'.unresolved) :
    v.unresolved := by
  obtain ⟨-, -, hcreate, -, -, -, -, -, -, hbind, hfence, -⟩ := hl.ne
  exact h.unresolved_of hbind hfence hcreate hu

theorem Life.background_unresolved (h : Life now allowed v v') (hl : ∀ l, allowed l → l.Background)
    (hu : v'.unresolved) : v.unresolved :=
  h.reflects (fun ha hs => hs.background_unresolved (hl _ ha)) hu

/-- Background work brings no task into the state in which reads get stuck. -/
theorem Life.stuck_of (h : Life now allowed v v') (hl : ∀ l, allowed l → l.Background)
    (hq : v.QueueIdle) (hs : v'.Stuck last) : v.Stuck last :=
  ⟨h.overdue_of hl hq hs.1, h.background_unresolved hl hs.2⟩

/-- Containments do not bring a task out of it. -/
theorem Step.stuck (h : Step now l v v') (hl : l.Quiet ∨ l = .cancel) (hs : v.Stuck now) :
    v'.Stuck now := by
  obtain ⟨⟨row, hrow, hover⟩, hu⟩ := hs
  rcases hl with hquiet | rfl
  · have hcalm := h.calm hquiet
    obtain ⟨row', hrow', hstage⟩ := hcalm.row row hrow
    refine ⟨⟨row', hrow', ?_⟩, hcalm.unresolved.mpr hu⟩
    simpa [Task.overdue, hstage.status, hstage.leaseExpiresAt] using hover
  · cases h with
    | stop _ _ hresolved => exact absurd hu hresolved
    | request hrow₁ _ _ =>
      obtain rfl := row_eq hrow hrow₁
      obtain ⟨-, d, hd, hpast⟩ := Task.overdue_iff.mp hover
      exact ⟨⟨_, rfl, Task.overdue_iff.mpr ⟨rfl, d, hd, hpast⟩⟩, by simpa [unresolved] using hu⟩

theorem Life.stuck (h : Life now allowed v v') (hl : ∀ l, allowed l → l.Quiet ∨ l = .cancel)
    (hs : v.Stuck now) : v'.Stuck now :=
  h.preserves (I := fun v => v.Stuck now) (fun ha hst => hst.stuck (hl _ ha)) hs

/-- The task is not leased, and no external executor works on it. -/
def View.LeaseFree (v : View) : Prop :=
  (∀ row, v.row = some row → row.status.leased = false) ∧ ¬v.unresolved

/-- Background work leases no task. -/
theorem Step.leaseFree (h : Step now l v v') (hl : l.Background) (hf : v.LeaseFree) :
    v'.LeaseFree := by
  refine ⟨?_, fun hu => hf.2 (h.background_unresolved hl hu)⟩
  cases h with
  | respec hrow | register hrow | touch hrow | wait hrow hqueued | admission hrow hqueued =>
    rintro _ ⟨⟩
    exact (hf.1 _ hrow :)
  | rebind | settle => exact hf.1
  | stop | requeue =>
    rintro _ ⟨⟩
    rfl
  | request _ _ hunresolved => exact absurd hunresolved hf.2
  | mark hrow hleased | keepUnknown hrow hleased | recover hrow hleased =>
    simp [hf.1 _ hrow] at hleased
  | _ => simp [Label.Background, Label.Quiet] at hl

theorem Life.leaseFree (h : Life now allowed v v') (hl : ∀ l, allowed l → l.Background)
    (hf : v.LeaseFree) : v'.LeaseFree :=
  h.preserves (I := LeaseFree) (fun ha hs => hs.leaseFree (hl _ ha)) hf

theorem Reachable.queueIdle (hs : Reachable s) (t : TaskId) : (s.view t).QueueIdle := by
  have hrun : Leads .initial s := hs
  refine hrun.preserves .initial (I := fun s => (s.view t).QueueIdle)
    (fun hi _ hq => (hi.next.path t).queueIdle hq) ?_
  intro row hrow
  cases hrow

/-! ## Rounds of the reaper -/

/-- What a round does: nothing for a task that has lost its lease, and else it contains the children
of the task and then marks the task, or takes it back. `task` is the row that the query read. -/
inductive Reaps (now : Time) (s : State) (t : TaskId) (task : Task) (s' : State) : Prop
  | ended {latest : Task} (hrow : s.tasks.lookup t = some latest)
      (hover : latest.status.leased = false) (h : s' = s)
  | marked {latest : Task} {contained : State} (hlatest : s.tasks.lookup t = some latest)
      (hleased : latest.status.leased = true)
      (hcontained : Evolves now (containLabels s t) s contained)
      (hlogs : s.Logs Event.ofCancel contained) (hunresolved : (contained.view t).unresolved)
      (h : s' = (contained.markProviderUnknown t now).appendEvent task.runId (some t)
        (.providerStateUnknown task.attemptId) now)
  | requeued {latest row : Task} {contained reconciled : State}
      (hlatest : s.tasks.lookup t = some latest) (hbefore : latest.status.leased = true)
      (hcontained : Evolves now (containLabels s t) s contained)
      (hlogs : s.Logs Event.ofCancel contained) (hrow : contained.tasks.lookup t = some row)
      (hleased : row.status.leased = true) (hresolved : ¬(contained.view t).unresolved)
      (hreconciled : (contained.requeueExpired t now).reconcileRuntimeAttempt t task.attemptId now =
        .ok reconciled)
      (h : reconciled.releaseExpired t task now = .ok s')

theorem Inv.reapLease_ok (hi : Inv s) (h : s.reapLease now (t, task) = .ok s') :
    Reaps now s t task s' := by
  obtain ⟨latest, hlatest, ⟨hover, hs'⟩ | ⟨hleased, contained, row, hcontained, hcont, hrow, -,
    hleased', h⟩⟩ := hi.leased_round h
  · exact .ended hlatest hover hs'
  have hlogs := (background_containDelegatedChildren hcontained).logs
  rcases h with ⟨hunres, h⟩ | ⟨hres, h⟩
  · exact .marked hlatest hleased hcont hlogs hunres (Except.ok.inj h).symm
  · obtain ⟨reconciled, hrec, hrelease⟩ := bind_eq_ok.mp h
    exact .requeued hlatest hleased hcont hlogs hrow hleased' hres hrec hrelease

/-- The tables after a lease is released. -/
theorem State.releaseExpired_ok (h : s.releaseExpired t task now = .ok s') :
    ∃ selected, s' = (((s.requeueRun task.runId now).releaseReservations t task.leaseToken
      now).resetBinding t selected s.currentRuntimeEpoch now).appendEvent task.runId (some t)
        (.leaseExpired (s.reconciledAttempt t task.attemptId)) now := by
  simp only [releaseExpired, resetExecutionAttempt, bind_eq_ok, return_ok] at h
  obtain ⟨_, ⟨selected, -, rfl⟩, rfl⟩ := h
  exact ⟨selected, rfl⟩

namespace Reaps

/-- In the round of another task, a task is cancelled at most. -/
theorem elsewhere (h : Reaps now s t task s') (hi : Inv s) {u : TaskId} (hu : u ≠ t) :
    Life now (orphanLabels u) (s.view u) (s'.view u) := by
  cases h with
  | ended _ _ h => exact .of_eq (congrArg (view · u) h).symm
  | @marked latest contained _ _ hcontained _ _ h =>
    have honly : OnlyTask t contained (contained.markProviderUnknown t now) := .modifyTask fun _ => rfl
    have hview : s'.view u = contained.view u := by
      rw [h, view_appendEvent _ _ _ rfl, honly.other u hu]
    exact ((hcontained.path u).mono fun _ => containLabels.orphan).trans (.of_eq hview.symm)
  | @requeued _ row contained reconciled _ _ hcontained _ hrow hleased hresolved hreconciled h =>
    have hi₁ := hcontained.inv hi
    have honly : OnlyTask t contained (contained.requeueExpired t now) := .requeueExpired
    have hrec := (hi₁.requeueExpired hrow hleased hresolved).reconcileRuntimeAttempt hreconciled
    obtain ⟨selected, rfl⟩ := releaseExpired_ok h
    have hafter : OnlyTask t reconciled ((reconciled.releaseReservations t task.leaseToken
        now).resetBinding t selected reconciled.currentRuntimeEpoch now) :=
      (OnlyTask.releaseReservations _).trans (.resetBinding _ _)
    have hsecond := (hrec.path u).mono fun _ => containLabels.orphan
    rw [honly.other u hu] at hsecond
    refine (((hcontained.path u).mono fun _ => containLabels.orphan).trans hsecond).trans (.of_eq ?_)
    rw [view_appendEvent _ _ _ rfl]
    exact (hafter.other u hu).symm

/-- A task in which reads get stuck stays stuck. -/
theorem stuck (h : Reaps now s t task s') (hi : Inv s) {u : TaskId} (hs : (s.view u).Stuck now) :
    (s'.view u).Stuck now := by
  by_cases hu : u = t
  · subst hu
    cases h with
    | ended _ _ h => exact h ▸ hs
    | @marked latest contained _ _ hcontained _ _ h =>
      have hstuck := (hcontained.path u).stuck (fun _ hl => containLabels.orphan hl) hs
      obtain ⟨⟨row, hrow, hover⟩, hunres⟩ := hstuck
      have hrow : contained.tasks.lookup u = some row := hrow
      subst h
      refine ⟨⟨{ row with waitingReason := some .providerStateUnknown, updatedAt := now }, ?_, hover⟩,
        hunres⟩
      simp [view, markProviderUnknown, appendEvent, hrow]
    | requeued _ _ hcontained _ _ _ hresolved _ _ =>
      exact absurd ((hcontained.path u).stuck (fun _ hl => containLabels.orphan hl) hs).2 hresolved
  · exact (h.elsewhere hi hu).stuck (fun _ hl => hl) hs

/-- A round for a task that has lost its lease does nothing. -/
theorem idle (h : Reaps now s t task s')
    (hs : ¬∃ row, s.tasks.lookup t = some row ∧ row.status.leased = true) : s' = s := by
  cases h with
  | ended _ _ h => exact h
  | marked hlatest hleased | requeued hlatest hleased => exact absurd ⟨_, hlatest, hleased⟩ hs

/-- A task that is taken back is queued. -/
theorem requeued_row {contained reconciled : State} (hi : Inv contained)
    (hrow : contained.tasks.lookup t = some row) (hleased : row.status.leased = true)
    (hresolved : ¬(contained.view t).unresolved)
    (hreconciled : (contained.requeueExpired t now).reconcileRuntimeAttempt t task.attemptId now =
      .ok reconciled) (h : reconciled.releaseExpired t task now = .ok s') :
    ∃ row', (s'.view t).row = some row' ∧ row'.status = .queued := by
  have hi₁ : Inv (contained.requeueExpired t now) := hi.requeueExpired hrow hleased hresolved
  have hcalm := (hi₁.reconcileRuntimeAttempt hreconciled).contained_calm hi₁
  have hrequeued : ((contained.requeueExpired t now).view t).row = some
      { row with status := .queued, executorId := none, leaseToken := none, leaseExpiresAt := none,
                 waitingReason := some .waitingForWorker, updatedAt := now } := by
    simp [view, requeueExpired, hrow]
  obtain ⟨row', hrow', hstage⟩ := hcalm.row _ hrequeued
  obtain ⟨selected, rfl⟩ := releaseExpired_ok h
  exact ⟨row', hrow', hstage.status⟩

/-- After its round, a task in which reads do not get stuck is not overdue. -/
theorem settled (h : Reaps now s t task s') (hi : Inv s) (hq : (s.view t).QueueIdle)
    (hs : ¬(s.view t).Stuck now) : ¬(s'.view t).Overdue now := by
  cases h with
  | ended hrow hover h =>
    subst h
    rintro ⟨row, hrow', ho⟩
    obtain rfl := Option.mem_unique hrow hrow'
    simp [Task.overdue, hover] at ho
  | @marked latest contained hlatest _ hcontained _ hunresolved h =>
    subst h
    rintro ⟨row', hrow', hover⟩
    obtain ⟨row, hrow, rfl⟩ := Option.map_eq_some_iff.mp
      ((Table.lookup_modify_self ..).symm.trans hrow')
    have hoverdue := (hcontained.path t).overdue_of (fun _ => containLabels.background) hq
      ⟨row, hrow, hover⟩
    exact hs ⟨hoverdue, (hcontained.contained_calm hi).unresolved.mp hunresolved⟩
  | requeued _ _ hcontained _ hrow hleased hresolved hreconciled h =>
    obtain ⟨row, hrow, hqueued⟩ :=
      requeued_row (hcontained.inv hi) hrow hleased hresolved hreconciled h
    rintro ⟨row', hrow', hover⟩
    obtain rfl := Option.mem_unique hrow hrow'
    simp [Task.overdue, hqueued, Status.leased] at hover

end Reaps

/-! ## The reaper -/

/-- Reads get stuck at some task. -/
def State.Stuck (s : State) (now : Time) : Prop := ∃ t, (s.view t).Stuck now

theorem State.mem_overdueLeaseRows {e : TaskId × Task} :
    e ∈ s.overdueLeaseRows now ↔ s.tasks.lookup e.1 = some e.2 ∧ e.2.overdue now = true := by
  rw [overdueLeaseRows, List.mem_insertionSort, List.mem_filter, Table.lookup_eq_some_iff]

theorem State.mem_overdueLeaseRows_of_overdue (h : (s.view t).Overdue now) :
    t ∈ (s.overdueLeaseRows now).map Prod.fst := by
  obtain ⟨row, hrow⟩ := h
  exact List.mem_map.mpr ⟨(t, row), mem_overdueLeaseRows.mpr hrow, rfl⟩

/-- Background work does not make reads get stuck. -/
theorem Evolves.not_stuck (h : Evolves now backgroundLabels s s')
    (hidle : ∀ t, (s.view t).QueueIdle) (hs : ¬s.Stuck last) : ¬s'.Stuck last := by
  rintro ⟨t, ht⟩
  exact hs ⟨t, (h.path t).stuck_of (fun _ => id) (hidle t) ht⟩

theorem State.overdueLeaseRows_eq_nil :
    s.overdueLeaseRows now = [] ↔ ∀ t, ¬(s.view t).Overdue now := by
  rw [List.eq_nil_iff_forall_not_mem]
  constructor
  · rintro h t ⟨row, hrow, hover⟩
    exact h (t, row) (mem_overdueLeaseRows.mpr ⟨hrow, hover⟩)
  · rintro h ⟨t, row⟩ he
    obtain ⟨hrow, hover⟩ := mem_overdueLeaseRows.mp he
    exact h t ⟨row, hrow, hover⟩

/-- The event says that a lease has expired. -/
def Event.expiry (e : Event) : Bool :=
  match e.kind with
  | .leaseExpired _ | .providerStateUnknown _ => true
  | _ => false

/-- The event says that the lease of this attempt has expired. -/
def Event.expiryOf (a : AttemptId) (e : Event) : Bool :=
  e.kind = .leaseExpired (some a) || e.kind = .providerStateUnknown (some a)

variable {e : Event}

theorem Event.ofCancel.not_expiry (h : e.ofCancel) : e.expiry = false := by
  unfold Event.ofCancel at h
  unfold Event.expiry
  split at h <;> simp_all

theorem Event.expiry_of_expiryOf {a : AttemptId} (h : e.expiryOf a = true) :
    e.expiry = true := by
  simp only [Event.expiryOf, Bool.or_eq_true, decide_eq_true_eq] at h
  rcases h with h | h <;> simp [Event.expiry, h]

/-- What a round logs, last of all: that the lease of a leased task has expired. -/
theorem Reaps.log (h : Reaps now s t task s') (hi : Inv s)
    (hleased : ∃ row, s.tasks.lookup t = some row ∧ row.status.leased = true) :
    ∃ cancels kind, (∀ e ∈ cancels, e.ofCancel) ∧
      s'.events = s.events ++ (cancels ++ [{ runId := task.runId, taskId := some t, kind := kind
                                             createdAt := now }]) ∧
      ((kind = .providerStateUnknown task.attemptId ∧ (s.view t).unresolved) ∨
        ∃ a, kind = .leaseExpired a ∧
          (∀ b ∈ a, ∃ x, s'.attempts.lookup b = some x ∧ x.taskId = t) ∧
          ∃ row', (s'.view t).row = some row' ∧ row'.status = .queued) := by
  cases h with
  | ended hrow hover h =>
    obtain ⟨row, hrow', hleased⟩ := hleased
    obtain rfl := Option.mem_unique hrow hrow'
    simp [hover] at hleased
  | @marked latest contained _ _ hcontained hlogs hunresolved h =>
    obtain ⟨cancels, hcancels, hall⟩ := hlogs
    have hunres := (hcontained.contained_calm hi).unresolved.mp hunresolved
    subst h
    refine ⟨cancels, _, hall, ?_, .inl ⟨rfl, hunres⟩⟩
    show contained.events ++ [_] = _
    rw [hcancels, List.append_assoc]
  | @requeued _ row contained reconciled _ _ hcontained hlogs hrow hleased hresolved hreconciled h =>
    have hqueued := requeued_row (hcontained.inv hi) hrow hleased hresolved hreconciled h
    obtain ⟨selected, rfl⟩ := releaseExpired_ok h
    have hrequeue : contained.Logs Event.ofCancel (contained.requeueExpired t now) := .of_eq rfl
    obtain ⟨cancels, hcancels, hall⟩ :=
      (hlogs.trans hrequeue).trans (background_reconcileRuntimeAttempt hreconciled).logs
    refine ⟨cancels, .leaseExpired (reconciled.reconciledAttempt t task.attemptId), hall, ?_,
      .inr ⟨_, rfl, fun b hb => ?_, hqueued⟩⟩
    · show reconciled.events ++ [_] = _
      rw [hcancels, List.append_assoc]
    · have howner := (Option.filter_eq_some_iff.mp hb).2
      have howner : (reconciled.attempts.lookup b).map (·.taskId) = some t := by simpa using howner
      exact Option.map_eq_some_iff.mp howner

theorem Reaps.length_lt (h : Reaps now s t task s') (hi : Inv s)
    (hleased : ∃ row, s.tasks.lookup t = some row ∧ row.status.leased = true) :
    s.events.length < s'.events.length := by
  obtain ⟨cancels, kind, -, hevents, -⟩ := h.log hi hleased
  rw [hevents, List.length_append, List.length_append, List.length_singleton]
  omega

theorem Reaps.length_le (h : Reaps now s t task s') (hi : Inv s) :
    s.events.length ≤ s'.events.length := by
  by_cases hleased : ∃ row, s.tasks.lookup t = some row ∧ row.status.leased = true
  · exact (h.length_lt hi hleased).le
  · rw [h.idle hleased]

/-- A task whose lease is overdue, or which has ended since. -/
def View.OverdueOrEnded (v : View) (now : Time) : Prop :=
  v.Overdue now ∨ ∃ row, v.row = some row ∧ row.status.terminal = true

theorem Step.overdueOrEnded (h : Step now l v v') (hl : l.Quiet ∨ l = .cancel)
    (hv : v.OverdueOrEnded now) : v'.OverdueOrEnded now := by
  rcases hl with hquiet | rfl
  · rcases hv with ⟨row, hrow, hover⟩ | ⟨row, hrow, hdone⟩
    · obtain ⟨row', hrow', hstage⟩ := (h.calm hquiet).row row hrow
      exact .inl ⟨row', hrow', by simpa [Task.overdue, hstage.status, hstage.leaseExpiresAt] using hover⟩
    · obtain ⟨row', hrow', hstage⟩ := (h.calm hquiet).row row hrow
      exact .inr ⟨row', hrow', hstage.status ▸ hdone⟩
  · cases h with
    | stop => exact .inr ⟨_, rfl, rfl⟩
    | request hrow hlive _ =>
      rcases hv with ⟨row, hrow', hover⟩ | ⟨row, hrow', hdone⟩
      · obtain rfl := row_eq hrow hrow'
        obtain ⟨-, d, hd, hpast⟩ := Task.overdue_iff.mp hover
        exact .inl ⟨_, rfl, Task.overdue_iff.mpr ⟨rfl, d, hd, hpast⟩⟩
      · obtain rfl := row_eq hrow hrow'
        simp [hlive] at hdone

theorem Life.overdueOrEnded (h : Life now allowed v v')
    (hl : ∀ l, allowed l → l.Quiet ∨ l = .cancel) (hv : v.OverdueOrEnded now) :
    v'.OverdueOrEnded now :=
  h.preserves (I := fun v => v.OverdueOrEnded now) (fun ha hs => hs.overdueOrEnded (hl _ ha)) hv

/-- The expiries of a log: each task has one at most, and is not leased since; and an expiry that
names an attempt names the task of the attempt. -/
structure ExpiredOnce (s : State) (log : List Event) : Prop where
  once : ((log.filter Event.expiry).map Event.taskId).Nodup
  free : ∀ e ∈ log, e.expiry = true → ∃ t, e.taskId = some t ∧ (s.view t).LeaseFree
  owner : ∀ e ∈ log, ∀ a, e.expiryOf a = true →
    ∃ x, s.attempts.lookup a = some x ∧ e.taskId = some x.taskId

namespace ExpiredOnce

variable {log : List Event}

theorem nil : ExpiredOnce s [] := ⟨by simp, by simp, by simp⟩

/-- Background work keeps it. -/
theorem evolves (h : ExpiredOnce s log) (hev : Evolves now backgroundLabels s s') :
    ExpiredOnce s' log where
  once := h.once
  free e he hexpiry := by
    obtain ⟨t, ht, hfree⟩ := h.free e he hexpiry
    exact ⟨t, ht, (hev.path t).leaseFree (fun _ => id) hfree⟩
  owner e he a hexpiry := by
    obtain ⟨x, hx, htask⟩ := h.owner e he a hexpiry
    obtain ⟨x', hx', hlease⟩ := hev.grow.attempts a x hx
    exact ⟨x', hx', by rw [htask, hlease.taskId]⟩

theorem cancels {cancels : List Event} (h : ExpiredOnce s log) (hc : ∀ e ∈ cancels, e.ofCancel) :
    ExpiredOnce s (log ++ cancels) := by
  have hnone : ∀ e ∈ cancels, e.expiry = false := fun e he => (hc e he).not_expiry
  refine ⟨?_, fun e he hexpiry => ?_, fun e he a hexpiry => ?_⟩
  · have hempty : cancels.filter Event.expiry = [] :=
      List.filter_eq_nil_iff.mpr (by simpa using hnone)
    rw [List.filter_append, hempty, List.append_nil]
    exact h.once
  · rcases List.mem_append.mp he with he | he
    · exact h.free e he hexpiry
    · simp [hnone e he] at hexpiry
  · rcases List.mem_append.mp he with he | he
    · exact h.owner e he a hexpiry
    · exact absurd (Event.expiry_of_expiryOf hexpiry) (by simp [hnone e he])

/-- One more expiry, of a task that has none yet. -/
theorem expire (h : ExpiredOnce s log) (ht : e.taskId = some t)
    (hnew : ∀ e ∈ log, e.expiry = true → e.taskId ≠ some t) (hfree : (s.view t).LeaseFree)
    (howner : ∀ a, e.expiryOf a = true → ∃ x, s.attempts.lookup a = some x ∧ x.taskId = t) :
    ExpiredOnce s (log ++ [e]) := by
  refine ⟨?_, fun e' he' hexpiry => ?_, fun e' he' a hexpiry => ?_⟩
  · rw [List.filter_append, List.map_append]
    refine h.once.append ((List.Nodup.filter _ (List.nodup_singleton e)).map_on ?_) ?_
    · intro x hx y hy _
      rw [List.mem_singleton.mp (List.mem_filter.mp hx).1,
        List.mem_singleton.mp (List.mem_filter.mp hy).1]
    · intro u hu hu'
      obtain ⟨e', he', rfl⟩ := List.mem_map.mp hu
      obtain ⟨e'', he'', heq⟩ := List.mem_map.mp hu'
      obtain rfl := List.mem_singleton.mp (List.mem_filter.mp he'').1
      have he' := List.mem_filter.mp he'
      exact hnew e' he'.1 he'.2 (heq ▸ ht)
  · rcases List.mem_append.mp he' with he' | he'
    · exact h.free e' he' hexpiry
    · obtain rfl := List.mem_singleton.mp he'
      exact ⟨t, ht, hfree⟩
  · rcases List.mem_append.mp he' with he' | he'
    · exact h.owner e' he' a hexpiry
    · obtain rfl := List.mem_singleton.mp he'
      obtain ⟨x, hx, rfl⟩ := howner a hexpiry
      exact ⟨x, hx, ht⟩

/-- An attempt expires at most once. -/
theorem countP_le (h : ExpiredOnce s log) (a : AttemptId) : log.countP (Event.expiryOf a) ≤ 1 := by
  have hsub : ((log.filter (Event.expiryOf a)).map Event.taskId).Sublist
      ((log.filter Event.expiry).map Event.taskId) :=
    (List.monotone_filter_right log fun _ => Event.expiry_of_expiryOf).map _
  have hnodup := h.once.sublist hsub
  have hsame : ∀ u ∈ (log.filter (Event.expiryOf a)).map Event.taskId,
      u = (s.attempts.lookup a).map (·.taskId) := by
    intro u hu
    obtain ⟨e, he, rfl⟩ := List.mem_map.mp hu
    obtain ⟨he, hexpiry⟩ := List.mem_filter.mp he
    obtain ⟨x, hx, htask⟩ := h.owner e he a hexpiry
    rw [htask, hx, Option.map_some]
  rw [List.eq_replicate_of_mem hsame, List.nodup_replicate, List.length_map] at hnodup
  rwa [List.countP_eq_length_filter]

end ExpiredOnce

/-- The rounds of the reaper, while `rest` is still to come: its rows were read at the start. -/
structure Rounds (now : Time) (start : State) (rest : List (TaskId × Task)) (s : State) : Prop where
  evolves : Evolves now backgroundLabels start s
  inv : Inv s
  read : ∀ e ∈ rest, start.tasks.lookup e.1 = some e.2 ∧ e.2.overdue now = true

theorem Rounds.start (hi : Inv s) : Rounds now s (s.overdueLeaseRows now) s :=
  ⟨.refl s, hi, fun _ => mem_overdueLeaseRows.mp⟩

variable {start : State} {rest : List (TaskId × Task)}

theorem Rounds.evolves_round (h : Rounds now start ((t, task) :: rest) s)
    (hround : s.reapLease now (t, task) = .ok s') :
    Evolves now backgroundLabels s s' := by
  obtain ⟨hread, hover⟩ := h.read (t, task) List.mem_cons_self
  obtain ⟨-, d', hd', hpast⟩ := Task.overdue_iff.mp hover
  refine h.inv.reapLease (fun row hrow => h.evolves.background_lease hread hrow) (fun d hd => ?_)
    hround
  obtain rfl := Option.mem_unique hd' hd
  exact hpast

theorem Rounds.round (h : Rounds now start ((t, task) :: rest) s)
    (hround : s.reapLease now (t, task) = .ok s') :
    Rounds now start rest s' :=
  have hev := h.evolves_round hround
  ⟨h.evolves.trans hev, hev.inv h.inv, fun e he => h.read e (.tail _ he)⟩

/-- What the rounds keep if reads do not get stuck: the tasks that are overdue have their round to
come, and every task is logged at most once. -/
structure Reaping (now : Time) (before : List Event) (start : State) (rest : List (TaskId × Task))
    (s : State) : Prop extends Rounds now start rest s where
  nodup : (rest.map Prod.fst).Nodup
  open_ : ∀ e ∈ rest, (s.view e.1).OverdueOrEnded now
  overdue : ∀ t, (s.view t).Overdue now → t ∈ rest.map Prod.fst
  log : ∃ added, s.events = start.events ++ added ∧ ExpiredOnce s (before ++ added)

/-- A task whose round has not come is overdue if it is leased. -/
theorem View.OverdueOrEnded.overdue (h : v.OverdueOrEnded now) (hrow : v.row = some row)
    (hleased : row.status.leased = true) : v.Overdue now := by
  refine h.resolve_right ?_
  rintro ⟨row', hrow', hdone⟩
  obtain rfl := Option.mem_unique hrow hrow'
  cases hstatus : row.status <;> simp_all [Status.terminal, Status.leased]

variable {before : List Event}

theorem Reaping.round (hidle : ∀ t, (start.view t).QueueIdle) (hfree : ¬start.Stuck now)
    (h : Reaping now before start ((t, task) :: rest) s)
    (hround : s.reapLease now (t, task) = .ok s') : Reaping now before start rest s' := by
  have hreaps := h.inv.reapLease_ok hround
  have hqueue : (s.view t).QueueIdle := (h.evolves.path t).queueIdle (hidle t)
  have hunstuck : ¬(s.view t).Stuck now := fun hs =>
    hfree ⟨t, (h.evolves.path t).stuck_of (fun _ => id) (hidle t) hs⟩
  have hev := h.evolves_round hround
  have hnodup := List.nodup_cons.mp h.nodup
  have hother : ∀ e ∈ rest, e.1 ≠ t := by
    intro e he heq
    exact hnodup.1 (List.mem_map.mpr ⟨e, he, heq⟩)
  refine
    { h.toRounds.round hround with
      nodup := hnodup.2, open_ := fun e he => ?_, overdue := fun u hu => ?_, log := ?_ }
  · exact (hreaps.elsewhere h.inv (hother e he)).overdueOrEnded (fun _ hl => hl)
      (h.open_ e (.tail _ he))
  · have hne : u ≠ t := by
      rintro rfl
      exact hreaps.settled h.inv hqueue hunstuck hu
    have hbefore := (hreaps.elsewhere h.inv hne).overdue_of (fun _ => orphanLabels.background)
      ((h.evolves.path u).queueIdle (hidle u)) hu
    exact (List.mem_cons.mp (h.overdue u hbefore)).resolve_left hne
  · obtain ⟨added, hadded, honce⟩ := h.log
    by_cases hleased : ∃ row, s.tasks.lookup t = some row ∧ row.status.leased = true
    · obtain ⟨row, hrow, hrunning⟩ := hleased
      have hstate : ¬(s.view t).unresolved := fun hu => hunstuck
        ⟨(h.open_ (t, task) List.mem_cons_self).overdue hrow hrunning, hu⟩
      obtain ⟨cancels, kind, hcancels, hevents, ⟨-, hu⟩ | ⟨a, rfl, howner, row', hrow', hqueued⟩⟩ :=
        hreaps.log h.inv ⟨row, hrow, hrunning⟩
      · exact absurd hu hstate
      have hlogged := (honce.evolves hev).cancels hcancels
      refine ⟨added ++ (cancels ++ [_]), by rw [hevents, hadded, List.append_assoc], ?_⟩
      rw [← List.append_assoc, ← List.append_assoc]
      refine hlogged.expire rfl (fun e he hexpiry heq => ?_) ⟨fun row hrow'' => ?_, fun hu => ?_⟩ ?_
      · rcases List.mem_append.mp he with he | he
        · obtain ⟨u, hu, hfree⟩ := honce.free e he hexpiry
          obtain rfl := Option.mem_unique hu heq
          simp [hfree.1 row hrow] at hrunning
        · simp [(hcancels e he).not_expiry] at hexpiry
      · obtain rfl := Option.mem_unique hrow' hrow''
        rw [hqueued]
        rfl
      · exact hstate ((hev.path t).background_unresolved (fun _ => id) hu)
      · intro b hb
        exact howner b (by simpa [Event.expiryOf] using hb)
    · obtain rfl := hreaps.idle hleased
      exact ⟨added, hadded, honce⟩

theorem State.overdueLeaseRows_nodup : ((s.overdueLeaseRows now).map Prod.fst).Nodup := by
  have hperm := (List.perm_insertionSort leaseOrder
    (s.tasks.entries.filter fun e => e.2.overdue now)).map Prod.fst
  exact hperm.nodup_iff.mpr (s.tasks.nodup.sublist (List.filter_sublist.map _))

/-- Without a task in which reads get stuck, no lease is overdue after a read. -/
theorem State.reapExpiredLeases_settles (hi : Inv s) (hidle : ∀ t, (s.view t).QueueIdle)
    (hfree : ¬s.Stuck now) (honce : ExpiredOnce s before) (h : s.reapExpiredLeases now = .ok s') :
    (∀ t, ¬(s'.view t).Overdue now) ∧
      ∃ added, s'.events = s.events ++ added ∧ ExpiredOnce s' (before ++ added) := by
  simp only [reapExpiredLeases, bind_eq_ok] at h
  obtain ⟨contained, hcontained, hloop⟩ := h
  have hev := (hi.containOrphanedDelegations hcontained).mono fun _ _ => orphanLabels.background
  obtain ⟨cancels, hcancels, hall⟩ :=
    (background_containOrphanedDelegations hcontained).logs
  have hidle₁ : ∀ t, (contained.view t).QueueIdle := fun t => (hev.path t).queueIdle (hidle t)
  have hfree₁ : ¬contained.Stuck now := hev.not_stuck hidle hfree
  have hstart : Reaping now (before ++ cancels) contained (contained.overdueLeaseRows now)
      contained :=
    { Rounds.start (hev.inv hi) with
      nodup := overdueLeaseRows_nodup
      open_ := fun e he => .inl ⟨e.2, mem_overdueLeaseRows.mp he⟩
      overdue := fun t => mem_overdueLeaseRows_of_overdue
      log := ⟨[], (List.append_nil _).symm, by simpa using (honce.evolves hev).cancels hall⟩ }
  have hend := foldlM_rest (fun rest s => Reaping now (before ++ cancels) contained rest s)
    (fun hreaping hround => hreaping.round hidle₁ hfree₁ hround) hstart hloop
  refine ⟨fun t ht => by simpa using hend.overdue t ht, ?_⟩
  obtain ⟨added, hadded, hlog⟩ := hend.log
  exact ⟨cancels ++ added, by rw [hadded, hcancels, List.append_assoc],
    by rwa [← List.append_assoc]⟩

/-- The rounds if reads get stuck at a task: it stays so, and its own round adds to the log. -/
structure StuckRounds (now : Time) (before start : State) (t : TaskId) (rest : List (TaskId × Task))
    (s : State) : Prop extends Rounds now start rest s where
  stuck : (s.view t).Stuck now
  length : before.events.length ≤ s.events.length
  grown : t ∈ rest.map Prod.fst ∨ before.events.length < s.events.length

theorem StuckRounds.round {before : State} {e : TaskId × Task}
    (h : StuckRounds now before start t (e :: rest) s) (hround : s.reapLease now e = .ok s') :
    StuckRounds now before start t rest s' := by
  have hreaps := h.inv.reapLease_ok hround
  have hlength := hreaps.length_le h.inv
  refine { h.toRounds.round hround with
    stuck := hreaps.stuck h.inv h.stuck, length := h.length.trans hlength, grown := ?_ }
  rcases h.grown with hmem | hgrown
  · rcases List.mem_cons.mp hmem with rfl | hmem
    · obtain ⟨row, hrow, hover⟩ := h.stuck.1
      have hlogged := hreaps.length_lt h.inv ⟨row, hrow, (Task.overdue_iff.mp hover).1⟩
      exact .inr (h.length.trans_lt hlogged)
    · exact .inl hmem
  · exact .inr (hgrown.trans_le hlength)

/-- A read that gets stuck at a task leaves the task so, and adds to the log. -/
theorem State.reapExpiredLeases_stuck (hi : Inv s) (ht : (s.view t).Stuck now)
    (h : s.reapExpiredLeases now = .ok s') :
    (s'.view t).Stuck now ∧ s.events.length < s'.events.length := by
  simp only [reapExpiredLeases, bind_eq_ok] at h
  obtain ⟨contained, hcontained, hloop⟩ := h
  have hev := hi.containOrphanedDelegations hcontained
  have hstart := (hev.path t).stuck (fun _ => id) ht
  have hlength := (background_containOrphanedDelegations hcontained).logs.length_le
  have hmem := mem_overdueLeaseRows_of_overdue hstart.1
  have hround : ∀ {e rest s₁ s₂}, StuckRounds now s contained t (e :: rest) s₁ →
      s₁.reapLease now e = .ok s₂ → StuckRounds now s contained t rest s₂ := fun h => h.round
  have hend := foldlM_rest (StuckRounds now s contained t) hround
    { Rounds.start (hev.inv hi) with stuck := hstart, length := hlength, grown := .inl hmem } hloop
  exact ⟨hend.stuck, hend.grown.resolve_left (by simp)⟩

theorem State.stuck_iff : s.Stuck now ↔ ∃ e ∈ s.overdueLeaseRows now, (s.view e.1).unresolved := by
  constructor
  · rintro ⟨t, ⟨row, hrow, hover⟩, hu⟩
    exact ⟨(t, row), mem_overdueLeaseRows.mpr ⟨hrow, hover⟩, hu⟩
  · rintro ⟨e, he, hu⟩
    exact ⟨e.1, ⟨e.2, mem_overdueLeaseRows.mp he⟩, hu⟩

instance : Decidable (s.Stuck now) := decidable_of_iff _ stuck_iff.symm

/-! ## Reads -/

/-- What a read of tasks does to the database: it reaps the overdue leases in a transaction of its
own. -/
def State.read (s : State) (now : Time) : State := committed s id (s.reapOverdueLeases now)

theorem Inv.read (hi : Inv s) : Evolves now backgroundLabels s (s.read now) :=
  .committed fun _ h => hi.reapOverdueLeases h

theorem State.reapOverdueLeases_settles (hi : Inv s) (hidle : ∀ t, (s.view t).QueueIdle)
    (hfree : ¬s.Stuck now) (honce : ExpiredOnce s before) (h : s.reapOverdueLeases now = .ok s') :
    s'.overdueLeaseRows now = [] ∧
      ∃ added, s'.events = s.events ++ added ∧ ExpiredOnce s' (before ++ added) := by
  unfold reapOverdueLeases at h
  split at h
  next hnone =>
    cases h
    exact ⟨hnone, [], (List.append_nil _).symm, by rwa [List.append_nil]⟩
  next =>
    obtain ⟨hsettled, hlog⟩ := reapExpiredLeases_settles hi hidle hfree honce h
    exact ⟨overdueLeaseRows_eq_nil.mpr hsettled, hlog⟩

theorem State.reapOverdueLeases_stuck (hi : Inv s) (ht : (s.view t).Stuck now)
    (h : s.reapOverdueLeases now = .ok s') :
    (s'.view t).Stuck now ∧ s.events.length < s'.events.length := by
  unfold reapOverdueLeases at h
  split at h
  next hnone => exact absurd ht.1 (overdueLeaseRows_eq_nil.mp hnone t)
  next => exact reapExpiredLeases_stuck hi ht h

/-- A read changes nothing if no lease is overdue. -/
theorem State.reapOverdueLeases_eq (h : s.overdueLeaseRows now = []) :
    s.reapOverdueLeases now = .ok s :=
  if_pos h

theorem State.Stuck.mono (h : s.Stuck now) (hle : now ≤ last) : s.Stuck last := by
  obtain ⟨t, ⟨row, hrow, hover⟩, hu⟩ := h
  obtain ⟨hleased, d, hd, hpast⟩ := Task.overdue_iff.mp hover
  exact ⟨t, ⟨row, hrow, Task.overdue_iff.mpr ⟨hleased, d, hd, hpast.trans hle⟩⟩, hu⟩

/-- Reads up to some time log every attempt at most once, if none of them gets stuck. -/
theorem State.reads_once (last : Time) : ∀ (clocks : List Time) {s : State} {before : List Event},
    (∀ c ∈ clocks, c ≤ last) → Inv s → (∀ t, (s.view t).QueueIdle) → ¬s.Stuck last →
    ExpiredOnce s before → ∃ added, (clocks.foldl read s).events = s.events ++ added ∧
      ExpiredOnce (clocks.foldl read s) (before ++ added)
  | [], s, before, _, _, _, _, honce => ⟨[], (List.append_nil _).symm, by simpa using honce⟩
  | c :: clocks, s, before, hle, hi, hidle, hfree, honce => by
    have hev : Evolves c backgroundLabels s (s.read c) := hi.read
    obtain ⟨added, hadded, honce₁⟩ : ∃ added, (s.read c).events = s.events ++ added ∧
        ExpiredOnce (s.read c) (before ++ added) := by
      refine committed_of
        (P := fun s' => ∃ added, s'.events = s.events ++ added ∧ ExpiredOnce s' (before ++ added))
        ⟨[], (List.append_nil _).symm, by simpa using honce⟩ fun s' h => ?_
      exact (reapOverdueLeases_settles hi hidle
        (fun hs => hfree (hs.mono (hle c List.mem_cons_self))) honce h).2
    obtain ⟨added', hadded', honce₂⟩ := reads_once last clocks
      (fun c hc => hle c (.tail _ hc)) (hev.inv hi)
      (fun t => (hev.path t).queueIdle (hidle t))
      (hev.not_stuck hidle hfree) honce₁
    exact ⟨added ++ added', by rw [List.foldl_cons, hadded', hadded, List.append_assoc],
      by rwa [← List.append_assoc]⟩

/-- A second read is a no-op. -/
theorem State.read_read (hi : Inv s) (hidle : ∀ t, (s.view t).QueueIdle) (hfree : ¬s.Stuck now) :
    (s.read now).read now = s.read now := by
  cases h : s.reapOverdueLeases now with
  | error e =>
    have hsame : s.read now = s := by rw [read, h, committed]
    rw [hsame, hsame]
  | ok s' =>
    have hnext : s.read now = s' := by rw [read, h, committed, id]
    have hsettled := (reapOverdueLeases_settles hi hidle hfree .nil h).1
    rw [hnext, read, reapOverdueLeases_eq hsettled, committed, id]

/-- Reads at one time are idempotent, and reads up to that time log at most one expiry of an attempt,
if no verified external executor may still run at an overdue lease. If one may, a second read that
returns changes the database again. -/
theorem reads_settle_iff (hs : Reachable s) (now : Time) :
    (¬s.Stuck now →
      (∀ n, (fun s => read s now)^[n + 1] s = s.read now) ∧
      ∀ clocks : List Time, (∀ c ∈ clocks, c ≤ now) → ∀ a,
        (clocks.foldl read s).events.countP (Event.expiryOf a) ≤
          s.events.countP (Event.expiryOf a) + 1) ∧
    ∀ s₁ s₂, s.reapOverdueLeases now = .ok s₁ → s₁.reapOverdueLeases now = .ok s₂ →
      (s₂ = s₁ ↔ ¬s.Stuck now) := by
  have hi := hs.inv
  refine ⟨fun hfree => ⟨fun n => ?_, fun clocks hle a => ?_⟩, fun s₁ s₂ h₁ h₂ => ⟨?_, fun hfree => ?_⟩⟩
  · induction n with
    | zero => rfl
    | succ n ih =>
      rw [Function.iterate_succ_apply', ih]
      exact read_read hi hs.queueIdle hfree
  · obtain ⟨added, hadded, honce⟩ :=
      reads_once now clocks hle hi hs.queueIdle hfree ExpiredOnce.nil
    rw [hadded, List.countP_append]
    exact Nat.add_le_add_left (honce.countP_le a) _
  · rintro rfl ⟨t, ht⟩
    have ht₁ := (reapOverdueLeases_stuck hi ht h₁).1
    exact absurd (reapOverdueLeases_stuck (hi.reapOverdueLeases h₁ |>.inv hi) ht₁ h₂).2
      (Nat.lt_irrefl _)
  · have hsettled := (reapOverdueLeases_settles hi hs.queueIdle hfree .nil h₁).1
    rw [reapOverdueLeases_eq hsettled] at h₂
    exact (Except.ok.inj h₂).symm

/-- The leases of a task and of its delegated child expire: the task is queued, and its child
cancelled. -/
theorem reads_settle_iff_delegation :
    ¬(initial.replay (delegationRun ++ [claimsChild])).Stuck 100000 ∧
      ((initial.replay (delegationRun ++ [claimsChild])).read 100000).statusOf "task-2" =
        some .queued ∧
      ((initial.replay (delegationRun ++ [claimsChild])).read 100000).statusOf "task-4" =
        some .cancelled ∧
      ((initial.replay (delegationRun ++ [claimsChild])).read 100000).read 100000 =
        (initial.replay (delegationRun ++ [claimsChild])).read 100000 := by
  have hfree : ¬(initial.replay (delegationRun ++ [claimsChild])).Stuck 100000 := by
    decide +kernel
  have hsettle := (reads_settle_iff (Reachable.replay (delegationRun ++ [claimsChild])) 100000).1 hfree
  exact ⟨hfree, by decide +kernel, by decide +kernel, hsettle.1 1⟩

/-- The lease of a task on a verified machine expires: every read logs that again. -/
theorem expiry_logged_twice :
    (initial.replay ((checkpointedRun []).take 4)).events.countP
        (Event.expiryOf "attempt-3") = 0 ∧
      ((initial.replay ((checkpointedRun []).take 4)).read 100000).events.countP
        (Event.expiryOf "attempt-3") = 1 ∧
      (((initial.replay ((checkpointedRun []).take 4)).read 100000).read 100000).events.countP
        (Event.expiryOf "attempt-3") = 2 := by
  decide +kernel

end WorkspaceRuntime
