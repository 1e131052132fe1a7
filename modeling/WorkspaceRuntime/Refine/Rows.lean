import WorkspaceRuntime.Lifecycle.Evolve
import WorkspaceRuntime.Refine.Request
import WorkspaceRuntime.Service.Placement

/-!
# The row updates as steps

Each group of statements that the commands write together is one step of the task it names, under the
guards that the commands have checked by then. What the group writes besides the task's own rows (a
run's status, an event, an attempt's settlement) leaves every view alone.
-/

namespace WorkspaceRuntime

open Fallible State Table

variable {now : Time} {A : TaskId → Label → Prop} {s s' : State} {t : TaskId} {row task : Task}
  {selected : Option Json} {epoch : Nat} {sp spec : TaskSpec} {lease : LeaseId} {a : AttemptId}
  {executor : ExecutorId} {x : Executor}

/-! ## Views after the primitive updates -/

theorem State.hold_release (lease : Option LeaseId) :
    (fun k => (s.releaseReservations t lease now).reservations.lookup (t, k)) =
      releaseHolds lease now (s.view t).hold := by
  funext k
  simp [view, releaseReservations, releaseHolds]

theorem State.hold_extend (s : State) (t : TaskId) (lease : LeaseId) (deadline now : Time) :
    (fun k => (s.extendLease t lease deadline now).reservations.lookup (t, k)) =
      extendHolds lease deadline (s.view t).hold := by
  funext k
  simp [view, extendLease, extendHolds]

/-- A reset binding belongs to no attempt. -/
theorem State.binding_reset (s : State) (t : TaskId) (selected : Option Json) (epoch : Nat)
    (now : Time) :
    Prepared ((s.resetBinding t selected epoch now).bindings.lookup t) ∧
      ((s.resetBinding t selected epoch now).bindings.lookup t).isSome =
        (s.bindings.lookup t).isSome := by
  rw [resetBinding, lookup_modify_self]
  refine ⟨fun b hb => ?_, by simp⟩
  obtain ⟨x, -, rfl⟩ := Option.map_eq_some_iff.mp hb
  split
  · assumption
  · rfl

theorem State.executionRequestFromRow_some {q' : Json}
    (h : s.executionRequestFromRow row = .ok (some q')) :
    ∃ q inputs, row.executionRequest = some q ∧ normalizeExecutionRequest q inputs = .ok q' := by
  simp only [executionRequestFromRow, bind_eq_ok] at h
  obtain ⟨spec, -, h⟩ := h
  split at h
  next q hq =>
    obtain ⟨r, hr, hsome⟩ := map_eq_ok.mp h
    cases hsome
    exact ⟨q, spec.inputObjectIds, hq, hr⟩
  next => cases h

/-- The effective target of a task is the one that its next attempt is to run on. -/
theorem State.effectiveExecutionTarget_selects (h : s.effectiveExecutionTarget t = .ok selected) :
    ∀ target ∈ selected, (s.view t).Selects target := by
  rintro target rfl
  unfold effectiveExecutionTarget at h
  have hlast : (s.view t).decisions.getLast? = s.placementRecovery t := rfl
  unfold View.Selects
  rw [hlast]
  cases hdecision : s.placementRecovery t with
  | some decision =>
    rw [hdecision] at h
    exact Option.some.inj (Except.ok.inj h)
  | none =>
    rw [hdecision] at h
    simp only [storedRequest, bind_eq_ok, return_ok] at h
    obtain ⟨request, hrequest, htarget⟩ := h
    obtain ⟨q', rfl, htarget⟩ := Option.bind_eq_some_iff.mp htarget
    split at hrequest
    next row hrow =>
      obtain ⟨q, inputs, hq, hnormal⟩ := executionRequestFromRow_some hrequest
      exact ⟨row, hrow, q, q', inputs, hq, hnormal, htarget⟩
    next => cases hrequest

/-- Only the decisions and the request of the row matter for it. -/
theorem View.Selects.congr {v v' : View} {target : Json} (h : v'.Selects target)
    (hdecisions : v'.decisions = v.decisions)
    (hrow : ∀ row', v'.row = some row' →
      ∃ row, v.row = some row ∧ row'.executionRequest = row.executionRequest) :
    v.Selects target := by
  unfold View.Selects at h ⊢
  rw [hdecisions] at h
  split at h
  next => exact h
  next =>
    obtain ⟨row', hrow', q, q', inputs, hq, hnormal, htarget⟩ := h
    obtain ⟨row, hrow, hrequest⟩ := hrow row' hrow'
    exact ⟨row, hrow, q, q', inputs, hrequest ▸ hq, hnormal, htarget⟩

/-- A reset binding selects the target of the next attempt. -/
theorem State.rebinds_reset (hsel : ∀ target ∈ selected, (s.view t).Selects target) :
    (s.view t).Rebinds ((s.resetBinding t selected epoch now).bindings.lookup t) := by
  rw [resetBinding, lookup_modify_self]
  intro x hx
  obtain ⟨y, hy, rfl⟩ := Option.map_eq_some_iff.mp hx
  refine ⟨y, hy, ?_⟩
  split
  · exact ⟨.inl rfl, fun _ => rfl⟩
  · refine ⟨?_, nofun⟩
    cases selected with
    | none => exact .inl rfl
    | some target => exact .inr (hsel target rfl)

/-! ## Updates of one task's rows -/

theorem OnlyTask.releaseReservations (lease : Option LeaseId) :
    OnlyTask t s (s.releaseReservations t lease now) :=
  .mapReservations fun _ _ hk => if_neg fun h => hk h.1

theorem OnlyTask.releaseBinding (status : BindingStatus) :
    OnlyTask t s (s.releaseBinding t status now) :=
  .modifyBinding

theorem OnlyTask.resetBinding (selected : Option Json) (epoch : Nat) :
    OnlyTask t s (s.resetBinding t selected epoch now) :=
  .modifyBinding

theorem OnlyTask.cancelRow : OnlyTask t s (s.cancelRow t now) := .modifyTask fun _ => rfl

theorem OnlyTask.requestCancel : OnlyTask t s (s.requestCancel t now) := .modifyTask fun _ => rfl

theorem OnlyTask.recoverUnknown (status : Status) : OnlyTask t s (s.recoverUnknown t status now) :=
  .modifyTask fun _ => rfl

theorem OnlyTask.recoverQueued : OnlyTask t s (s.recoverQueued t now) :=
  .modifyTask fun row => by split <;> rfl

theorem OnlyTask.retryRow (createdAt : Option Time) : OnlyTask t s (s.retryRow t createdAt now) :=
  .modifyTask fun _ => rfl

theorem OnlyTask.startRow (executor : ExecutorId) (lease : LeaseId) (fence : Nat) (deadline : Time)
    (epoch : Nat) : OnlyTask t s (s.startRow t executor lease fence deadline epoch now) :=
  .modifyTask fun _ => rfl

theorem OnlyTask.fenceChildRow : OnlyTask t s (s.fenceChildRow t now) := .modifyTask fun _ => rfl

/-! ## Quiet statements -/

/-- The delegation under an attempt is closed. -/
theorem Evolves.closeDelegation {a : Option AttemptId} (hl : A t .note)
    (hrow : s.tasks.lookup t = some row) (hspec : row.spec = some sp) :
    Evolves now A s (s.putTaskSpec t { sp with delegationClosedAttemptId := a }) := by
  have hbody : sp.SameBody { sp with delegationClosedAttemptId := a } := ⟨rfl, rfl, rfl, rfl⟩
  refine .step (.putTaskSpec _) (Step.respec hrow hspec hbody ⟨a, rfl⟩) ?_ hl (by decide)
  simp [view, putTaskSpec, storeSpec, hrow]

/-- The inputs that an attempt derived are registered. -/
theorem Evolves.registerInputs {registry : Option Json} (hl : A t .register)
    (hrow : s.tasks.lookup t = some row) (hspec : row.spec = some sp) :
    Evolves now A s (s.putTaskSpec t { sp with derivedInputRegistry := registry }) := by
  have hbody : sp.SameBody { sp with derivedInputRegistry := registry } := ⟨rfl, rfl, rfl, rfl⟩
  refine .step (.putTaskSpec _) (Step.register hrow hspec hbody ⟨registry, rfl⟩) ?_ hl (by decide)
  simp [view, putTaskSpec, storeSpec, hrow]

/-- A new waiting reason; a task that is not queued keeps its own. -/
theorem Evolves.setWaitingReason {reason : Option WaitingReason} (hl : A t .note)
    (hres : ∀ row, s.tasks.lookup t = some row → row.status = .queued → ¬(s.view t).unresolved)
    (hreason : reason ≠ some .providerStateUnknown) :
    Evolves now A s (s.setWaitingReason t reason now) := by
  have honly : OnlyTask t s (s.setWaitingReason t reason now) :=
    .modifyTask fun row => by split <;> rfl
  cases hrow : s.tasks.lookup t with
  | none => exact .still honly (by simp [State.view, State.setWaitingReason, hrow])
  | some row =>
    by_cases hq : row.status = .queued
    · refine .step honly (Step.wait hrow hq (hres row hrow hq) hreason) ?_ hl (by decide)
      simp [State.view, State.setWaitingReason, hrow, hq]
    · exact .still honly (by simp [State.view, State.setWaitingReason, hrow, hq])

theorem Evolves.touchTask (hl : A t .note) : Evolves now A s (s.touchTask t now) := by
  have honly : OnlyTask t s (s.touchTask t now) := .modifyTask fun _ => rfl
  cases hrow : s.tasks.lookup t with
  | none => exact .still honly (by simp [State.view, State.touchTask, hrow])
  | some row =>
    refine .step honly (Step.touch hrow) ?_ hl (by decide)
    simp [State.view, State.touchTask, hrow]

/-- The reset of a binding without external work. -/
theorem Evolves.resetBinding (hl : A t .note) (hrow : s.tasks.lookup t = some row)
    (hopen : row.status.terminal = false) (hres : ¬(s.view t).unresolved)
    (hsel : ∀ target ∈ selected, (s.view t).Selects target) :
    Evolves now A s (s.resetBinding t selected epoch now) := by
  obtain ⟨hprepared, hsome⟩ := s.binding_reset t selected epoch now
  exact .step (.resetBinding selected epoch)
    (Step.rebind hres (.inr ⟨row, hrow, hopen⟩) hprepared hsome (rebinds_reset hsel)) rfl hl
    (by decide)

/-- The reset of a binding whatever it was. -/
theorem Evolves.liftBinding (hl : A t .lift) (hsel : ∀ target ∈ selected, (s.view t).Selects target) :
    Evolves now A s (s.resetBinding t selected epoch now) := by
  obtain ⟨hprepared, hsome⟩ := s.binding_reset t selected epoch now
  exact .step (.resetBinding selected epoch)
    (Step.lift hprepared hsome (rebinds_reset hsel)) rfl hl (by decide)

/-! ## Admission -/

/-- The statements of an admission. -/
theorem Evolves.admitRow {sp' : TaskSpec} {children : List ResolvedChild} (hl : A t .admission)
    (hrow : s.tasks.lookup t = some row) (hqueued : row.status = .queued)
    (hnone : s.admissions.lookup t = none) (hres : ¬(s.view t).unresolved)
    (hspec : row.spec = some sp) (hchildren : ResolvedFor (s.view t).dep children)
    (hset : setResolvedChildren { sp with inputObjectIds := orderedInputs children } children =
      .ok sp') (hdone : ∀ c ∈ children, (s.view c.taskId).Resolves c) :
    Evolves now A s (s.admitRow t
      { children, inputObjectIds := orderedInputs children, admittedAt := now } sp') := by
  have honly : OnlyTask t s (s.admitRow t
      { children, inputObjectIds := orderedInputs children, admittedAt := now } sp') := by
    refine ⟨fun t' ht => ?_,
      ⟨rfl, rfl, rfl, fun _ h => State.mem_storeSpec h, rfl, rfl, rfl, rfl⟩,
      fun row' sp₁ hrow' hsp => .inl ?_⟩
    · simp [State.view, State.admitRow, State.storeSpec, lookup_modify_of_ne _ _ ht,
        lookup_insertIgnore, ht]
    · simp only [State.admitRow, lookup_modify_self, hrow, Option.map_some,
        Option.some.injEq, hqueued, if_true] at hrow'
      subst hrow'
      obtain rfl := Option.some.inj hsp
      exact State.storeSpec_mem
  have hview : (s.admitRow t
      { children, inputObjectIds := orderedInputs children, admittedAt := now } sp').view t =
      { s.view t with
        row := some { row with spec := some sp', waitingReason := none, updatedAt := now }
        admission := some
          { children, inputObjectIds := orderedInputs children, admittedAt := now } } := by
    simp [State.view, State.admitRow, State.storeSpec, hrow, hqueued, hnone,
      lookup_insertIgnore]
  refine .at honly (L := (· = .admission)) (by rintro _ rfl; exact hl)
    (hview ▸ .single rfl (.admission hrow hqueued hnone hres hspec hchildren hset)) (by simp) ?_ (by simp)
    (by simp)
  rintro - t' adm hbefore hafter c hc
  have hchanged : t' = t := by
    by_contra hne
    have hsame := congrArg View.admission (honly.other t' hne)
    exact absurd (hbefore.symm.trans (hsame.symm.trans hafter)) (by simp)
  subst hchanged
  obtain rfl := Option.mem_unique (congrArg View.admission hview) hafter
  have hother : c.taskId ≠ t' := by
    intro he
    obtain ⟨result, hd, -⟩ := hdone c hc
    rw [he] at hd
    simp [View.Done, State.view, hrow, hqueued] at hd
  exact .inl (honly.other c.taskId hother ▸ hdone c hc)

/-! ## Cancellation -/

/-- The guards under which a task is stopped: its lease is the one that is released. -/
structure Stoppable (s : State) (t : TaskId) (row : Task) (lease : Option LeaseId) : Prop where
  stored : s.tasks.lookup t = some row
  unfinished : row.status ≠ .completed
  resolved : ¬(s.view t).unresolved
  lease : row.leaseToken = lease ∨ row.leaseToken = none
  closed : (s.view t).Closed row.attemptId

theorem Evolves.cancelRunTaskRows {bound : Bool} (hl : A t row.status.stopLabel)
    (h : Stoppable s t row task.leaseToken) :
    Evolves now A s (s.cancelRunTaskRows t task bound now) := by
  have honly : OnlyTask t s ((s.cancelRow t now).releaseReservations t task.leaseToken now) :=
    OnlyTask.cancelRow.trans (.releaseReservations _)
  have hrow := h.stored
  refine Evolves.trans ?_ (.appendEvent ..)
  cases bound with
  | false =>
    refine .step honly (Step.stopped hrow h.unfinished h.resolved h.lease h.closed (.inl rfl)) ?_ hl
      row.status.tame_stopLabel
    rw [← hold_release]
    simp [view, cancelRow, releaseReservations, hrow]
  | true =>
    refine .step (honly.trans (.releaseBinding .released))
      (Step.stopped hrow h.unfinished h.resolved h.lease h.closed (.inr rfl)) ?_ hl
      row.status.tame_stopLabel
    rw [← hold_release]
    simp [view, cancelRow, releaseReservations, releaseBinding, hrow]
    rfl

/-- The statements of a cancel are those of a cancelled run, with the run's own status. -/
theorem Evolves.cancelTaskRows {bound : Bool} (hl : A t row.status.stopLabel)
    (h : Stoppable s t row task.leaseToken) :
    Evolves now A s (s.cancelTaskRows t task bound now) := by
  have hrun : s.cancelTaskRows t task bound now =
      (s.cancelRunTaskRows t task bound now).setRunStatus task.runId .cancelled now := by
    cases bound <;> rfl
  rw [hrun]
  exact (Evolves.cancelRunTaskRows hl h).trans (.setRunStatus ..)

/-- A cancel whose external stop is not confirmed. -/
theorem Evolves.requestCancelTask (hl : A t .cancel) (hrow : s.tasks.lookup t = some row)
    (hlive : row.status.terminal = false) (hunresolved : (s.view t).unresolved) :
    Evolves now A s (s.requestCancelTask t task now) := by
  have honly : OnlyTask t s ((s.requestCancel t now).releaseBinding t .stale now) :=
    OnlyTask.requestCancel.trans (.releaseBinding _)
  refine Evolves.trans (.step honly (Step.request hrow hlive hunresolved) ?_ hl (by decide))
    (.appendEvent ..)
  simp [view, requestCancel, releaseBinding, hrow]
  rfl

/-! ## Expiry and restart -/

theorem Evolves.markProviderUnknown (hl : A t .expire) (hrow : s.tasks.lookup t = some row)
    (hleased : row.status.leased = true) (hunresolved : (s.view t).unresolved)
    (hover : ∀ d ∈ row.leaseExpiresAt, d ≤ now) :
    Evolves now A s (s.markProviderUnknown t now) := by
  refine .step (.modifyTask fun _ => rfl) (Step.mark hrow hleased hunresolved hover) ?_ hl
    (by decide)
  simp [State.view, State.markProviderUnknown, hrow]

theorem Evolves.recoverUnknownTask {previous : Nat} (hl : A t .expire)
    (hrow : s.tasks.lookup t = some row) (hleased : row.status.leased = true)
    (hunresolved : (s.view t).unresolved) :
    Evolves now A s (s.recoverUnknownTask previous t task row.status now) := by
  have honly : OnlyTask t s
      ((s.recoverUnknown t (if row.status = .cancelRequested then .cancelRequested else .queued)
        now).releaseBinding t .stale now) :=
    (OnlyTask.recoverUnknown _).trans (.releaseBinding _)
  refine Evolves.trans (.step honly (Step.keepUnknown hrow hleased hunresolved) ?_ hl (by decide))
    ((Evolves.requeueRun task.runId now).trans (.appendEvent ..))
  simp [view, recoverUnknown, releaseBinding, hrow]
  rfl

/-- The restart of a task without external work: its lease is released and its binding reset. -/
theorem Evolves.recoverTask {previous : Nat} (hl : A t .expire) (hn : A t .note)
    (hrow : s.tasks.lookup t = some row) (hleased : row.status.leased = true)
    (hres : ¬(s.view t).unresolved)
    (hlease : row.leaseToken = task.leaseToken ∨ row.leaseToken = none)
    (hclosed : (s.view t).Closed row.attemptId)
    (h : s.recoverTask previous t task now = .ok s') : Evolves now A s s' := by
  simp only [State.recoverTask, State.resetExecutionAttempt, bind_eq_ok, return_ok] at h
  obtain ⟨_, ⟨selected, hselected, rfl⟩, rfl⟩ := h
  have honly : OnlyTask t s ((s.recoverQueued t now).releaseReservations t task.leaseToken now) :=
    OnlyTask.recoverQueued.trans (.releaseReservations _)
  have hfirst : Evolves now A s
      ((s.recoverQueued t now).releaseReservations t task.leaseToken now) := by
    refine .step honly (Step.recover hrow hleased hres hlease hclosed) ?_ hl (by decide)
    rw [← hold_release]
    simp [view, recoverQueued, releaseReservations, hrow]
  refine hfirst.trans ((Evolves.requeueRun task.runId now).trans (Evolves.trans ?_
    (.appendEvent ..)))
  have hrow' : (s.recoverQueued t now).tasks.lookup t = some (if row.status = .running then
      { row with status := .queued, executorId := none, leaseToken := none, leaseExpiresAt := none,
                 attemptId := none, waitingReason := some .runtimeRecovery, updatedAt := now }
      else row) := by
    simp [recoverQueued, hrow]
  refine .resetBinding hn hrow' ?_ hres (effectiveExecutionTarget_selects hselected)
  split
  · rfl
  · exact Status.leased_live hleased

/-! ## Retry -/

/-- The statements of a retry: the row goes back to the queue, the reservations of its lease are
released, and the binding is reset. -/
theorem Evolves.retryRows {createdAt : Option Time} (hl : A t .retry)
    (hl' : row.status = .completed → A t .reopen) (hrow : s.tasks.lookup t = some row)
    (hdone : row.status.terminal = true) (hsel : ∀ target ∈ selected, (s.view t).Selects target) :
    Evolves now A s (((s.releaseReservations t row.leaseToken now).retryRow t createdAt
      now).resetBinding t selected epoch now) := by
  have honly : OnlyTask t s (((s.releaseReservations t row.leaseToken now).retryRow t createdAt
      now).resetBinding t selected epoch now) :=
    ((OnlyTask.releaseReservations _).trans (.retryRow _)).trans (.resetBinding _ _)
  obtain ⟨hb, hsome⟩ := ((s.releaseReservations t row.leaseToken now).retryRow t createdAt
    now).binding_reset t selected epoch now
  have hrebinds : (s.view t).Rebinds ((((s.releaseReservations t row.leaseToken now).retryRow t
      createdAt now).resetBinding t selected epoch now).bindings.lookup t) :=
    @State.rebinds_reset now s t selected epoch hsel
  by_cases hc : row.status = .completed
  · refine .step honly (@Step.reopen now (s.view t) row (createdAt.getD row.createdAt) _ hrow hc hb
      hsome hrebinds) ?_ (hl' hc) (by decide)
    rw [← State.hold_release]
    simp [State.view, State.retryRow, State.releaseReservations, State.resetBinding, hrow]
  · have hstatus : row.status = .failed ∨ row.status = .cancelled := by
      revert hdone hc
      cases row.status <;> simp [Status.terminal]
    refine .step honly (@Step.retry now (s.view t) row (createdAt.getD row.createdAt) _ hrow hstatus
      hb hsome hrebinds) ?_ hl (by decide)
    rw [← State.hold_release]
    simp [State.view, State.retryRow, State.releaseReservations, State.resetBinding, hrow]

/-! ## Settlement and heartbeat -/

/-- The lease checks of a settlement, a failure and a heartbeat. -/
structure Leased (s : State) (t : TaskId) (row : Task) (lease : LeaseId) (now : Time) : Prop where
  stored : s.tasks.lookup t = some row
  running : row.status = .running
  live : ∀ d ∈ row.leaseExpiresAt, now < d
  lease : row.leaseToken = some lease

theorem State.checkTaskLease_ok {fence : Int} (h : s.checkTaskLease t lease fence now = .ok row) :
    Leased s t row lease now ∧ fence = row.leaseFence := by
  simp only [checkTaskLease, bind_eq_ok, orThrow_eq_ok, require_eq_ok, return_ok] at h
  obtain ⟨_, hrow, _, ⟨hrun, hlease⟩, _, hfence, _, hlive, rfl⟩ := h
  exact ⟨⟨hrow, hrun, hlive, hlease⟩, hfence⟩

/-- An attempt that was just settled is closed. -/
theorem State.closed_settleAttemptRow {b : Option AttemptId} (h : ∀ c ∈ b, c = a) :
    ((s.settleAttemptRow a).view t).Closed b := by
  intro c hc g hg
  obtain rfl := h c hc
  obtain ⟨x, hx, rfl⟩ := Option.map_eq_some_iff.mp (Option.mem_def.mp hg)
  obtain ⟨hlookup, -⟩ := Option.filter_eq_some_iff.mp hx
  rw [settleAttemptRow, lookup_modify_self] at hlookup
  obtain ⟨x, -, rfl⟩ := Option.map_eq_some_iff.mp hlookup
  rfl

/-- The rows of the attempt and of its task in a settlement, whose result has been published, or in a
failure. -/
theorem Evolves.finishRows {status : Status} {result : Json} (hl : A t .finish)
    (hn : ∀ x, s.attempts.lookup a = some x → A x.taskId .note) (h : Leased s t row lease now)
    (hattempt : ∀ b ∈ row.attemptId, b = a)
    (hstatus : status = .completed ∧ s.Published t (some result) ∨ status = .failed) :
    Evolves now A s (({ s.settleAttemptRow a with tasks := s.tasks.modify t fun r =>
      { r with status := status, result := some result, leaseExpiresAt := none, waitingReason := none
               updatedAt := now } }.releaseReservations t (some lease) now).releaseBinding t .released
        now) := by
  let settled := s.settleAttemptRow a
  let finished : State := { settled with tasks := s.tasks.modify t fun r =>
    { r with status := status, result := some result, leaseExpiresAt := none, waitingReason := none
             updatedAt := now } }
  let rows := (finished.releaseReservations t (some lease) now).releaseBinding t .released now
  have hfinished : OnlyTask t settled finished := .modifyTask fun _ => rfl
  have honly : OnlyTask t settled rows :=
    (hfinished.trans (.releaseReservations _)).trans (.releaseBinding _)
  have hview : rows.view t = { settled.view t with
        row := some { row with status := status, result := some result, leaseExpiresAt := none
                               waitingReason := none, updatedAt := now }
        binding := (settled.view t).binding.map (Binding.closed .released now)
        hold := releaseHolds (some lease) now (settled.view t).hold } := by
    rw [← State.hold_release]
    simp [rows, finished, State.view, State.releaseReservations, State.releaseBinding, h.stored]
    rfl
  have hdone : rows.ResultPublished t := by
    intro result' hdone
    rw [hview] at hdone
    rcases hstatus with ⟨rfl, staged, hout, hstaged⟩ | rfl
    · obtain rfl : some result = result' := by simpa [View.Done] using hdone
      refine ⟨staged, hout, fun o ho => ⟨(hstaged o ho).1, fun p hp => (hstaged o ho).2 p ?_⟩⟩
      rw [← hp]
      simp [rows, finished, settled, State.projectOf, State.releaseReservations,
        State.releaseBinding, State.settleAttemptRow, h.stored]
    · simp [View.Done] at hdone
  -- the attempt is settled before the rows are written, which is the same state
  refine (Evolves.settleAttemptRow a hn).trans (.at honly (L := (· = .finish))
    (by rintro _ rfl; exact hl) ?_ (by simp) (by simp) (fun _ => hdone) (by simp))
  rw [hview]
  exact .single rfl (.finish h.stored h.running h.live h.lease
    (State.closed_settleAttemptRow hattempt) (hstatus.imp_left And.left))

/-- The statements of a settlement; its result has been published. -/
theorem Evolves.completeTaskRows {result : Json} (hl : A t .finish)
    (hn : ∀ x, s.attempts.lookup a = some x → A x.taskId .note) (h : Leased s t row lease now)
    (hattempt : ∀ b ∈ row.attemptId, b = a) (hpub : s.Published t (some result)) :
    Evolves now A s (s.completeTaskRows t task lease a result now) :=
  (Evolves.finishRows hl hn h hattempt (.inl ⟨rfl, hpub⟩)).trans
    ((Evolves.setRunStatus task.runId .completed now).trans (.appendEvent ..))

/-- The statements of a failure. -/
theorem Evolves.failTaskRows {failure : Json} (hl : A t .finish)
    (hn : ∀ x, s.attempts.lookup a = some x → A x.taskId .note) (h : Leased s t row lease now)
    (hattempt : ∀ b ∈ row.attemptId, b = a) :
    Evolves now A s (s.failTaskRows t task lease a failure now) :=
  (Evolves.finishRows hl hn h hattempt (.inr rfl)).trans
    ((Evolves.setRunStatus task.runId .failed now).trans (.appendEvent ..))

theorem Evolves.extendLease {deadline : Time} (hl : A t .extend) (h : Leased s t row lease now) :
    Evolves now A s (s.extendLease t lease deadline now) := by
  have htask : OnlyTask t s { s with tasks := s.tasks.modify t fun r =>
      { r with leaseExpiresAt := some deadline, updatedAt := now } } := .modifyTask fun _ => rfl
  have honly : OnlyTask t s (s.extendLease t lease deadline now) :=
    htask.trans (.mapReservations fun _ _ hk => if_neg fun h => hk h.1)
  have hrow := h.stored
  refine .step honly (@Step.extend now (s.view t) row lease deadline hrow h.running h.live) ?_ hl
    (by decide)
  rw [← s.hold_extend t lease deadline now]
  simp [State.view, State.extendLease, hrow]

/-! ## Start -/

theorem State.reserveAll_eq (r : Reservation) (keys : List ResourceKey) :
    s.reserveAll t r keys =
      { s with reservations := s.reservations.upsertAll (keys.map (t, ·)) r } := by
  induction keys generalizing s with
  | nil => rfl
  | cons k keys ih =>
    rw [reserveAll, List.foldl_cons, ← reserveAll, ih]
    rfl

theorem State.view_reserveAll (r : Reservation) (keys : List ResourceKey) :
    (s.reserveAll t r keys).view t =
      { s.view t with hold := fun k => if k ∈ keys then some r else (s.view t).hold k } := by
  simp [view, reserveAll_eq, lookup_upsertAll]

/-- The reservations of a claim. -/
theorem OnlyTask.reserveAll (r : Reservation) (keys : List ResourceKey) :
    OnlyTask t s (s.reserveAll t r keys) := by
  rw [reserveAll_eq]
  refine ⟨fun t' ht => ?_, ⟨rfl, rfl, rfl, fun _ h => h, rfl, rfl, rfl, rfl⟩,
    fun row sp hrow hsp => .inr ⟨row, hrow, hsp⟩⟩
  simp [view, lookup_upsertAll, Ne.symm ht]

theorem State.occupied_of_holds {k : ResourceKey} {x : ExecutorId} (h : (s.view t).Holds k lease x) :
    s.occupied x k = true := by
  obtain ⟨r, hr, hheld, -, rfl⟩ := h
  have hmem := lookup_eq_some_iff.mp hr
  exact List.any_eq_true.mpr ⟨_, hmem, by simp [hheld]⟩

/-- A claim that takes keys which are free on its executor holds them alone. -/
theorem State.holdsAlone_reserve {keys : List ResourceKey} {r : Reservation} (honly : OnlyTask t s s')
    (hhold : (s'.view t).hold = fun k => if k ∈ keys then some r else (s.view t).hold k)
    (hfree : ∀ k ∈ keys, s.occupied r.executorId k = false) (h : Inv s) : s'.HoldsAlone t := by
  intro t' k lease lease' x hh hh'
  by_contra hne
  rw [honly.other t' (Ne.symm hne)] at hh'
  obtain ⟨r', hr', hheld, hlease, hx⟩ := hh
  rw [hhold] at hr'
  by_cases hk : k ∈ keys
  · obtain rfl : r = r' := by simpa [hk] using hr'
    have hocc := occupied_of_holds hh'
    rw [← hx, hfree k hk] at hocc
    exact absurd hocc (by simp)
  · have hr : (s.view t).hold k = some r' := by simpa [hk] using hr'
    exact hne (h.unique t t' k lease lease' x ⟨r', hr, hheld, hlease, hx⟩ hh')

/-- What a stored digest loads. -/
theorem State.loadSpec_ok {digest : Option TaskSpec} (h : s.loadSpec digest = .ok sp) :
    digest.getD {} = sp ∧ (digest = none ∨ digest = some sp) := by
  cases digest with
  | none => simp_all [loadSpec]
  | some sp' =>
    simp only [loadSpec, bind_eq_ok, require_eq_ok, return_ok] at h
    obtain ⟨_, -, rfl⟩ := h
    simp

/-- The guards under which a claim is granted. -/
structure Startable (s : State) (t : TaskId) (task : Task) (executor : ExecutorId) : Prop where
  stored : s.tasks.lookup t = some task
  status : task.status = .queued ∨ task.status = .cancelRequested
  resolved : ¬(s.view t).unresolved
  admitted : s.admissions.lookup t = none → ∀ i, s.dependencies.lookup (t, i) = none
  free : ∀ k ∈ s.requiredResourceKeys task.capability, s.occupied executor k = false

/-- The row of a started task. -/
def Task.started (task : Task) (executor : ExecutorId) (lease : LeaseId) (epoch : Nat) (now : Time)
    (spec : Option TaskSpec) : Task :=
  { task with status := .running, executorId := some executor, leaseToken := some lease
              leaseFence := task.leaseFence + 1, leaseExpiresAt := some (now + leaseDuration)
              waitingReason := none, attempt := task.attempt + 1, runtimeEpoch := some epoch
              spec := spec, updatedAt := now }

/-- The task's own rows of a granted claim: the started row, and the reservations. -/
theorem Evolves.startRows {started : State} {spec : Option TaskSpec} {r : Reservation}
    (hl : A t .start) (h : Startable s t task executor) (hspec : Stamped task.spec spec)
    (honly : OnlyTask t s started) (hview : started.view t =
      { s.view t with row := some (task.started executor lease epoch now spec) })
    (hlease : r.leaseToken = lease) (hheld : r.releasedAt = none) (hexec : r.executorId = executor) :
    Evolves now A s (started.reserveAll t r (s.requiredResourceKeys task.capability)) := by
  have hreserved := honly.trans (.reserveAll r (s.requiredResourceKeys task.capability))
  have hafter : (started.reserveAll t r (s.requiredResourceKeys task.capability)).view t =
      { s.view t with
        row := some (task.started executor lease epoch now spec)
        hold := fun k =>
          if k ∈ s.requiredResourceKeys task.capability then some r else (s.view t).hold k } := by
    rw [view_reserveAll, hview]
  refine .at hreserved (L := (· = .start)) (by rintro _ rfl; exact hl) ?_ nofun nofun nofun
    fun _ => holdsAlone_reserve hreserved (by rw [hafter]) (hexec ▸ h.free)
  rw [hafter]
  exact .single rfl (.start h.stored h.status h.resolved h.admitted hspec hlease hheld)

/-- The statements of a granted claim. -/
theorem Evolves.startClaim (hl : A t .start) (h : Startable s t task executor)
    (hspec : s.loadSpec task.spec = .ok spec) :
    Evolves now A s (s.startClaim t task spec executor x lease epoch now) := by
  let r : Reservation :=
    { leaseToken := lease, createdAt := now, executorId := executor, fence := task.leaseFence + 1,
      leaseExpiresAt := now + leaseDuration, runtimeEpoch := epoch }
  let keys := s.requiredResourceKeys task.capability
  let started := s.startRow t executor lease (task.leaseFence + 1) (now + leaseDuration) epoch now
  let seen (x : Executor) : Executor := { x with runtimeEpoch := epoch, lastSeenAt := some now }
  let event := EventKind.claimed executor (task.attempt + 1) (task.leaseFence + 1)
  have honly : OnlyTask t s started := .startRow ..
  have hrow := h.stored
  by_cases hrender : task.capability = State.renderCapability
  · let stamped := { spec with runtimeReuseToolchain := some (State.executorToolchainDigest x) }
    have hstamp : Stamped task.spec (some stamped) := by
      refine .inr ⟨some (State.executorToolchainDigest x), ?_⟩
      rw [(State.loadSpec_ok hspec).1]
    have hview : (started.putTaskSpec t stamped).view t =
        { s.view t with row := some (task.started executor lease epoch now (some stamped)) } := by
      simp [State.view, State.putTaskSpec, State.storeSpec, started, State.startRow, hrow,
        Task.started]
    let next := (started.putTaskSpec t stamped).reserveAll t r keys
    have hrows : Evolves now A s next :=
      .startRows hl h hstamp (honly.trans (.putTaskSpec _)) hview rfl rfl rfl
    have heq : s.startClaim t task spec executor x lease epoch now =
        ((({ next with executors := next.executors.modify executor seen }).putRunSpec task.runId
          stamped).setRunStatus task.runId .running now).appendEvent task.runId (some t) event
            now := by
      simp only [State.startClaim, State.stampSpec, if_pos hrender, next, State.reserveAll_eq]
      rfl
    rw [heq]
    exact hrows.trans (((Evolves.modifyExecutor executor seen fun _ => rfl).trans
      (.putRunSpec ..)).trans ((Evolves.setRunStatus ..).trans (.appendEvent ..)))
  · have hview : started.view t =
        { s.view t with row := some (task.started executor lease epoch now task.spec) } := by
      simp [State.view, started, State.startRow, hrow, Task.started]
    let next := started.reserveAll t r keys
    have hrows : Evolves now A s next := .startRows hl h (.inl rfl) honly hview rfl rfl rfl
    have heq : s.startClaim t task spec executor x lease epoch now =
        (({ next with executors := next.executors.modify executor seen }).setRunStatus task.runId
          .running now).appendEvent task.runId (some t) event now := by
      simp only [State.startClaim, State.stampSpec, if_neg hrender, next, State.reserveAll_eq]
      rfl
    rw [heq]
    exact hrows.trans ((Evolves.modifyExecutor executor seen fun _ => rfl).trans
      ((Evolves.setRunStatus ..).trans (.appendEvent ..)))

/-- The row that a granted claim leaves. -/
theorem State.startClaim_attempts :
    (s.startClaim t task spec executor x lease epoch now).attempts = s.attempts := by
  simp only [startClaim, stampSpec, reserveAll_eq]
  split <;> rfl

theorem State.startClaim_row (hrow : s.tasks.lookup t = some task)
    (h : (s.startClaim t task spec executor x lease epoch now).tasks.lookup t = some row) :
    ∃ sp, row = task.started executor lease epoch now sp := by
  simp only [startClaim, stampSpec, reserveAll_eq] at h
  split at h
  · refine ⟨some { spec with runtimeReuseToolchain := some (executorToolchainDigest x) }, ?_⟩
    simpa [appendEvent, setRunStatus, putRunSpec, putTaskSpec,
      storeSpec, startRow, hrow, Task.started] using h.symm
  · refine ⟨task.spec, ?_⟩
    simpa [appendEvent, setRunStatus, startRow, hrow, Task.started] using h.symm

/-! ## Attempts -/

/-- The attempt of a started task, under a fence that none of its attempts has. -/
theorem Evolves.insertAttempt {x : Attempt} {attempts : Table AttemptId Attempt}
    (hl : A x.taskId .bind) (hins : s.attempts.insertNew a x = some attempts)
    (hrow : s.tasks.lookup x.taskId = some row) (hrunning : row.status = .running)
    (hfence : x.fence = row.leaseFence) (hopen : x.settled = false)
    (hfresh : ∀ b g, (s.view x.taskId).grant b = some g → g.fence < row.leaseFence)
    (hepoch : x.runtimeEpoch ≤ s.currentRuntimeEpoch) :
    Evolves now A s ({ s with attempts }.setAttempt x.taskId a) := by
  have hlookup := lookup_insertNew hins
  have hnew : s.attempts.lookup a = none := by
    simpa using insertNew_eq_some_iff.mp ⟨_, hins⟩
  have hpath : ∀ t, Life now (fun l => t = x.taskId ∧ l = .bind) (s.view t)
      (({ s with attempts }.setAttempt x.taskId a).view t) := by
    intro t
    by_cases ht : t = x.taskId
    · subst ht
      refine .single ⟨rfl, rfl⟩ ?_
      have hview : ({ s with attempts }.setAttempt x.taskId a).view x.taskId =
          { s.view x.taskId with
            row := some { row with attemptId := some a }
            grant := fun b => if b = a then some x.grant else (s.view x.taskId).grant b } := by
        refine View.ext ?_ rfl rfl rfl rfl (funext fun b => ?_) rfl
        · simp [view, setAttempt, hrow]
        · by_cases hb : b = a <;> simp [view, setAttempt, hlookup, hb, Option.filter]
      rw [hview]
      exact .attempt a hrow hrunning (by simp [view, hnew]) hfence hopen hfresh
    · refine .of_eq (View.ext ?_ rfl rfl rfl rfl (funext fun b => ?_) rfl)
      · simp [view, setAttempt, lookup_modify_of_ne _ _ ht]
      · by_cases hb : b = a
        · subst hb
          simp [view, setAttempt, hlookup, hnew, Option.filter, Ne.symm ht]
        · simp [view, setAttempt, hlookup, hb]
  refine .tame hpath (fun t l hl' => hl'.1 ▸ hl'.2 ▸ hl) (fun t l hl' => hl'.2 ▸ by decide)
    { Grow.refl s with attempts := fun b y hy => ?_ } fun hs =>
    { hs with spec := fun t row' sp hrow' hsp => ?_, attempt := fun b y hy => ?_ }
  · have hne : b ≠ a := by
      rintro rfl
      simp [hnew] at hy
    exact ⟨y, by simp [setAttempt, hlookup, hne, hy], .refl y⟩
  · by_cases ht : t = x.taskId
    · subst ht
      simp only [setAttempt, lookup_modify_self, hrow, Option.map_some,
        Option.some.injEq] at hrow'
      subst hrow'
      exact hs.spec _ row sp hrow hsp
    · simp only [setAttempt, lookup_modify_of_ne _ _ ht] at hrow'
      exact hs.spec t row' sp hrow' hsp
  · have hfenced : y.runtimeEpoch ≤ s.currentRuntimeEpoch ∧
        ∃ row', s.tasks.lookup y.taskId = some row' ∧ y.fence ≤ row'.leaseFence := by
      simp only [setAttempt, hlookup] at hy
      split at hy
      · cases hy
        exact ⟨hepoch, row, hrow, hfence.le⟩
      · exact hs.attempt b y hy
    obtain ⟨he, row', hrow', hle⟩ := hfenced
    refine ⟨he, ?_⟩
    by_cases ht : y.taskId = x.taskId
    · rw [ht] at hrow' ⊢
      exact ⟨{ row' with attemptId := some a }, by simp [setAttempt, hrow'], hle⟩
    · exact ⟨row', by simp [setAttempt, lookup_modify_of_ne _ _ ht, hrow'], hle⟩

theorem Evolves.claimBinding {fence : Nat} {placement : Placement} {b : Binding} (hl : A t .bind)
    (hrow : s.tasks.lookup t = some row) (hrunning : row.status = .running)
    (hb : s.bindings.lookup t = some b) (hprepared : b.status = .prepared)
    (hexternal : placement.External)
    (hmatch : executionPlacementMatches b.selected placement = true) :
    Evolves now A s (s.claimBinding t a lease fence executor epoch placement now) := by
  have honly : OnlyTask t s (s.claimBinding t a lease fence executor epoch placement now) :=
    .modifyBinding
  obtain ⟨hverified, fields, hactual, hne⟩ := hexternal
  refine .step honly (@Step.bind now (s.view t) row b { b with
    attemptId := some a, leaseId := some lease, fence := fence, executorId := some executor
    runtimeEpoch := epoch, placement := some placement, status := .claimed, updatedAt := now }
    hrow hrunning hb hprepared rfl ?_ rfl hmatch) ?_ hl (by decide)
  · simp [Binding.unresolvedExternal, hverified, hactual, Json.asObj, hne]
  simp [State.view, State.claimBinding, hb, hprepared]

/-! ## Owner stops and placement recovery -/

/-- The task's own rows of a finalised owner stop, whose binding is stale. -/
theorem Evolves.finalizeRows (hl : A t .finalize) (hrow : s.tasks.lookup t = some row)
    (hrequested : row.status = .cancelRequested) (hclosed : (s.view t).Closed row.attemptId)
    (hstale : ∃ b ∈ s.bindings.lookup t, b.status = .stale) :
    Evolves now A s (((s.releaseReservations t row.leaseToken now).closeStaleBinding t
      now).cancelRow t now) := by
  have hclose : OnlyTask t (s.releaseReservations t row.leaseToken now)
      ((s.releaseReservations t row.leaseToken now).closeStaleBinding t now) := .modifyBinding
  have honly : OnlyTask t s (((s.releaseReservations t row.leaseToken now).closeStaleBinding t
      now).cancelRow t now) := ((OnlyTask.releaseReservations _).trans hclose).trans .cancelRow
  obtain ⟨b, hb, hst⟩ := hstale
  have hresolved : Resolved (some { b with status := .released, updatedAt := now }) := by
    rintro _ ⟨⟩
    simp [Binding.unresolvedExternal]
  have hrebinds : (s.view t).Rebinds (some { b with status := .released, updatedAt := now }) := by
    rintro _ ⟨⟩
    exact ⟨b, hb, .inl rfl, by simp⟩
  refine .step honly (Step.finalize hrow hrequested hclosed hresolved hrebinds) ?_ hl (by decide)
  rw [← hold_release]
  have hb : s.bindings.lookup t = some b := hb
  simp [view, cancelRow, closeStaleBinding, releaseReservations, hrow, hb,
    hst]

/-- A queued child whose parent's placement was replaced. -/
theorem Evolves.fenceRows (hl : A t .fence) (hrow : s.tasks.lookup t = some row)
    (hqueued : row.status = .queued) (hres : ¬(s.view t).unresolved) :
    Evolves now A s ((s.fenceChildRow t now).fenceChildBinding t now) := by
  have hbinding : OnlyTask t (s.fenceChildRow t now)
      ((s.fenceChildRow t now).fenceChildBinding t now) := .modifyBinding
  refine .step (OnlyTask.fenceChildRow.trans hbinding) (Step.fence hrow hqueued hres) ?_ hl
    (by decide)
  simp [view, fenceChildRow, fenceChildBinding, hrow]
  rfl

/-- A placement decision is about its own task. -/
theorem OnlyTask.recordDecision (r : RunId) (d : PlacementDecision) :
    OnlyTask t s (s.appendEvent r (some t) (.placementRecovered d) now) where
  other t' ht := by
    simp [view, appendEvent, placementDecision, Ne.symm ht]
  tables := ⟨rfl, rfl, rfl, fun _ h => h, rfl, rfl, rfl, rfl⟩
  spec row sp hrow hsp := .inr ⟨row, hrow, hsp⟩

/-- The replaced placement of a failed or cancelled task. -/
theorem Evolves.replacePlacement {d : PlacementDecision} (r : RunId) (hl : A t .replace)
    (hnote : A t .note) (hrow : s.tasks.lookup t = some row)
    (hstatus : row.status = .failed ∨ row.status = .cancelled)
    (hfree : ∃ b ∈ s.bindings.lookup t, b.status ≠ .claimed) (hd : (s.view t).Decides row d) :
    Evolves now A s (((s.replaceBinding t d.replacementTarget now).touchTask t now).appendEvent r
      (some t) (.placementRecovered d) now) := by
  obtain ⟨b, hb, hfree⟩ := hfree
  have hb : s.bindings.lookup t = some b := hb
  have honly : OnlyTask t s (s.replaceBinding t d.replacementTarget now) := .modifyBinding
  have hprepared : Prepared (some { b with
      attemptId := none, leaseId := none, fence := 0, executorId := none
      sessionId := s.lifecycle.bootId, runtimeEpoch := s.lifecycle.runtimeEpoch
      selected := d.replacementTarget, placement := none, status := .prepared, updatedAt := now }) := by
    rintro _ ⟨⟩
    rfl
  have hreplaced : Evolves now A s ((s.replaceBinding t d.replacementTarget now).appendEvent r
      (some t) (.placementRecovered d) now) := by
    refine .step (honly.trans (.recordDecision r d))
      (Step.replace hrow hstatus (by simp [State.view, hb]) hprepared rfl hd) ?_ hl (by decide)
    simp [State.view, State.replaceBinding, State.appendEvent, State.placementDecision, hb, hfree]
  exact hreplaced.trans (.touchTask hnote)

end WorkspaceRuntime
