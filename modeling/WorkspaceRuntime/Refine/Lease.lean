import WorkspaceRuntime.Refine.Delegation

/-!
# Lease expiry and restart

The reaper and the start of a session take expired or interrupted tasks back to the queue, or mark
them. Their rounds read rows that earlier rounds may have changed since; that the lease they release
is still the one of the row follows from what the labels of a round can do to a lease.
-/

namespace WorkspaceRuntime

open Fallible State View

variable {now : Time} {s s' : State} {t : TaskId} {row task : Task} {l : Label} {v : View}
  {lease : Option LeaseId} {attempt : Option AttemptId} {boot : String}

/-- The labels of the work that any claim or session does on the way. -/
def Label.Background (l : Label) : Prop := l.Quiet ∨ l = .cancel ∨ l = .expire

/-- The background labels, for every task. -/
def backgroundLabels (_ : TaskId) (l : Label) : Prop := l.Background

theorem Label.Background.ne (h : l.Background) :
    l ≠ .start ∧ l ≠ .extend ∧ (∀ lin, l ≠ .create lin) ∧ l ≠ .retire ∧ l ≠ .finish ∧ l ≠ .lift ∧
      l ≠ .finalize ∧ l ≠ .reopen ∧ l ≠ .retry ∧ l ≠ .bind ∧ l ≠ .fence ∧ l ≠ .replace := by
  rcases h with (rfl | rfl) | rfl | rfl <;> simp

theorem containLabels.background {parent : TaskId} (h : containLabels s parent t l) :
    l.Background :=
  h.imp id fun h => .inl h.1

theorem quietLabels.background (h : quietLabels t l) : l.Background :=
  .inl h

/-! ## Orphans -/

/-- The labels of containments, whatever their parent. -/
def orphanLabels (_ : TaskId) (l : Label) : Prop := l.Quiet ∨ l = .cancel

theorem containLabels.orphan {parent : TaskId} (h : containLabels s parent t l) :
    orphanLabels t l :=
  h.imp id fun h => h.1

theorem orphanLabels.background (h : orphanLabels t l) : l.Background :=
  h.imp id .inl

theorem Inv.containOrphanedDelegations (hi : Inv s) (h : s.containOrphanedDelegations now = .ok s') :
    Evolves now orphanLabels s s' := by
  refine .loop hi (fun child _ {s₁ s₂} hi₁ _ hstep => ?_) h
  simp only [containOrphan, bind_eq_ok] at hstep
  obtain ⟨sp, -, lin, -, live, -, hstep⟩ := hstep
  split at hstep
  next =>
    cases hstep
    exact .refl _
  next => exact (hi₁.containDelegatedChildren hstep).mono fun _ _ => containLabels.orphan

/-! ## Expiry -/

/-- The reservations are not part of what the invariant says about a single view. -/
theorem View.Wf.withHold (h : v.Wf) (hrow : v.row ≠ none) (hold : ResourceKey → Option Reservation) :
    Wf { v with hold := hold } where
  blank hnone := absurd hnone hrow
  dep_lt := h.dep_lt
  dep_pair := h.dep_pair
  row row hr := { h.row row hr with }

/-- Nor is whether an attempt is settled. -/
theorem View.Wf.unsettled {a : AttemptId} (h : Wf { v with grant := settleGrants a v.grant }) :
    v.Wf where
  blank hnone := by
    have hblank := h.blank hnone
    have hgrant : v.grant = View.blank.grant := by
      funext b
      cases hg : v.grant b with
      | none => rfl
      | some g =>
        obtain ⟨g', hg', -⟩ := settleGrants_of_some (a := a) hg
        exact absurd (hg'.symm.trans (congrFun (congrArg View.grant hblank) b)) (by simp [View.blank])
    exact View.ext hnone (congrArg View.binding hblank :) (congrArg View.admission hblank :)
      (congrArg dep hblank :) (congrArg hold hblank :) hgrant
      (congrArg decisions hblank :)
  dep_lt := h.dep_lt
  dep_pair := h.dep_pair
  row row hr :=
    { h.row row hr with
      grant_le := fun b g hg => by
        obtain ⟨g', hg', hsame⟩ := settleGrants_of_some (a := a) hg
        exact hsame.fence ▸ (h.row row hr).grant_le b g' hg'
      grant_current := fun hrunning b g hg hfence => by
        obtain ⟨g', hg', hsame⟩ := settleGrants_of_some (a := a) hg
        exact (h.row row hr).grant_current hrunning b g' hg' (hsame.fence.trans hfence) }

theorem State.view_settleAttemptOf (a : AttemptId) (t' : TaskId) :
    (s.settleAttemptOf t a).view t' =
      { s.view t' with
        grant := if t' = t then settleGrants a (s.view t').grant else (s.view t').grant } := by
  refine View.ext rfl rfl rfl rfl rfl (funext fun b => ?_) rfl
  simp only [view, settleAttemptOf, Table.lookup_modify]
  by_cases hb : b = a
  · subst hb
    cases hx : s.attempts.lookup b with
    | none => by_cases ht : t' = t <;> simp [ht, settleGrants, hx]
    | some x =>
      by_cases ht : t' = t
      · subst ht
        by_cases hxt : x.taskId = t' <;> simp [settleGrants, hx, Option.filter, Attempt.grant, hxt]
      · by_cases hxt : x.taskId = t <;> simp [hx, Option.filter, hxt, ht, Ne.symm ht]
  · by_cases ht : t' = t <;> simp [hb, ht, settleGrants]

/-- Whether an attempt is settled is not part of the invariant. -/
theorem Inv.unsettled {a : AttemptId} (hi : Inv (s.settleAttemptOf t a)) : Inv s := by
  have hsettle : Evolves 0 (fun _ _ => True) s (s.settleAttemptOf t a) := .settleAttemptOf a trivial
  have hsame := hsettle.grow.attempts
  refine { hi with attempt := fun b x hx => ?_, view := fun t' => ?_, lineage := fun t' lin hlin => ?_ }
  · obtain ⟨x', hx', hlease⟩ := hsame b x hx
    rw [← hlease.taskId, ← hlease.fence, ← hlease.runtimeEpoch]
    exact hi.attempt b x' hx'
  · have hwf := hi.view t'
    rw [view_settleAttemptOf] at hwf
    split at hwf
    · exact hwf.unsettled
    · exact hwf
  · have hroots := hi.lineage t' lin hlin
    obtain ⟨g, hg, hlease, hfence, hepoch⟩ := hroots.grant
    rw [view_settleAttemptOf] at hg
    refine ⟨hroots.row, hroots.lineage, ?_⟩
    dsimp only at hg
    split at hg
    · obtain ⟨g₀, hg₀, hsame, -⟩ := of_settleGrants hg
      exact ⟨g₀, hg₀, hsame.leaseId.symm.trans hlease, hsame.fence.symm.trans hfence,
        hsame.runtimeEpoch.symm.trans hepoch⟩
    · exact ⟨g, hg, hlease, hfence, hepoch⟩

/-- The row of a task whose lease expired. -/
theorem OnlyTask.requeueExpired : OnlyTask t s (s.requeueExpired t now) := .modifyTask fun _ => rfl

/-- The requeued row with its lease released. -/
theorem Evolves.requeueRows {A : TaskId → Label → Prop} (hl : A t .expire)
    (hrow : s.tasks.lookup t = some row) (hleased : row.status.leased = true)
    (hres : ¬(s.view t).unresolved) (hlease : row.leaseToken = lease ∨ row.leaseToken = none)
    (hclosed : (s.view t).Closed row.attemptId) :
    Evolves now A s ((s.requeueExpired t now).releaseReservations t lease now) := by
  refine .step (OnlyTask.requeueExpired.trans (.releaseReservations _))
    (Step.requeue hrow hleased hres hlease hclosed) ?_ hl (by decide)
  rw [← hold_release]
  simp [view, requeueExpired, releaseReservations, hrow]

/-- The invariant right after the row is requeued, while its reservations are still there. -/
theorem Inv.requeueClosed (hi : Inv s) (hrow : s.tasks.lookup t = some row)
    (hleased : row.status.leased = true) (hres : ¬(s.view t).unresolved)
    (hclosed : (s.view t).Closed row.attemptId) : Inv (s.requeueExpired t now) := by
  have hreleased : Inv ((s.requeueExpired t now).releaseReservations t row.leaseToken now) :=
    (Evolves.requeueRows (A := fun _ _ => True) trivial hrow hleased hres (.inl rfl) hclosed).inv hi
  refine { hreleased with
    view := fun t' => ?_, lineage := fun t' lin hlin => ?_, unique := hi.unique }
  · by_cases ht : t' = t
    · subst ht
      refine (hreleased.view t').withHold ?_ (s.view t').hold
      simp [State.view, State.requeueExpired, State.releaseReservations, hrow]
    · rw [OnlyTask.requeueExpired.other t' ht]
      exact hi.view t'
  · obtain ⟨hrow', hlineage, hgrant⟩ := hreleased.lineage t' lin hlin
    exact ⟨hrow', hlineage, hgrant⟩

/-- The invariant in the same place, while the attempt is open as well. -/
theorem Inv.requeueExpired (hi : Inv s) (hrow : s.tasks.lookup t = some row)
    (hleased : row.status.leased = true) (hres : ¬(s.view t).unresolved) :
    Inv (s.requeueExpired t now) := by
  cases ha : row.attemptId with
  | none => exact hi.requeueClosed hrow hleased hres (by simp [Closed, ha])
  | some a =>
    have hsettle : Evolves now (fun _ _ => True) s (s.settleAttemptOf t a) :=
      .settleAttemptOf a trivial
    have hrequeued : Inv ((s.settleAttemptOf t a).requeueExpired t now) :=
      (hsettle.inv hi).requeueClosed hrow hleased hres (ha ▸ closed_settleAttemptOf)
    exact Inv.unsettled (t := t) (a := a) hrequeued

/-- The attempt, if there is one, is settled. -/
def closeGrants : Option AttemptId → (AttemptId → Option Grant) → AttemptId → Option Grant
  | none => id
  | some a => settleGrants a

theorem closeGrants_comm (attempt : Option AttemptId) (a : AttemptId)
    (grant : AttemptId → Option Grant) :
    closeGrants attempt (settleGrants a grant) = settleGrants a (closeGrants attempt grant) := by
  cases attempt with
  | none => rfl
  | some b => exact settleGrants_comm b a grant

theorem Life.close (v : View) (attempt : Option AttemptId) :
    Life now Label.Quiet v { v with grant := closeGrants attempt v.grant } := by
  cases attempt with
  | none => exact .refl v
  | some a => exact .single (.inl rfl) (.settle a)

theorem View.closed_closeGrants (v : View) (attempt : Option AttemptId) :
    Closed { v with grant := closeGrants attempt v.grant } attempt := by
  rintro a rfl g hg
  exact settleGrants_self hg

theorem View.Closed.closeGrants (h : v.Closed attempt) :
    closeGrants attempt v.grant = v.grant := by
  cases attempt with
  | none => rfl
  | some a =>
    funext b
    by_cases hb : b = a
    · subst hb
      cases hg : v.grant b with
      | none => simp [WorkspaceRuntime.closeGrants, settleGrants, hg]
      | some g =>
        have hsettled : g.settled = true := h b rfl g hg
        simp [WorkspaceRuntime.closeGrants, settleGrants, hg, ← hsettled]
    · simp [WorkspaceRuntime.closeGrants, settleGrants, hb]

/-- The path of a requeued task. The reaper requeues the row, reconciles the attempt, and then
releases the reservations; as the reconciliation moves the task by quiet steps only, its path is that
of a settlement and a release before it. -/
theorem Life.requeue {v' : View} (hrow : v.row = some row) (hleased : row.status.leased = true)
    (hres : ¬v.unresolved) (hlease : row.leaseToken = lease ∨ row.leaseToken = none)
    (hattempt : row.attemptId = attempt ∨ row.attemptId = none)
    (hquiet : Life now Label.Quiet { v with
      row := some
        { row with status := .queued, executorId := none, leaseToken := none, leaseExpiresAt := none,
                   waitingReason := some .waitingForWorker, updatedAt := now } } v')
    (hclosed : v'.Closed attempt) :
    Life now Label.Background v { v' with hold := releaseHolds lease now v.hold } := by
  have hfirst : Life now Label.Quiet v { v with grant := closeGrants attempt v.grant } :=
    .close v attempt
  have hopen : Closed { v with grant := closeGrants attempt v.grant } row.attemptId := by
    rcases hattempt with h | h
    · exact h ▸ v.closed_closeGrants attempt
    · simp [Closed, h]
  have hthird := hquiet.beside (releaseHolds lease now v.hold) (closeGrants_comm attempt)
  rw [hclosed.closeGrants] at hthird
  have hsecond : Step now .expire { v with grant := closeGrants attempt v.grant } _ :=
    .requeue hrow hleased hres hlease hopen
  exact ((hfirst.mono fun _ => .inl).trans (.single (.inr (.inr rfl)) hsecond)).trans
    (hthird.mono fun _ => .inl)

theorem Inv.requeue (hi : Inv s) (hrow : s.tasks.lookup t = some row)
    (hleased : row.status.leased = true) (hres : ¬(s.view t).unresolved)
    (hlease : row.leaseToken = lease ∨ row.leaseToken = none)
    (hattempt : row.attemptId = attempt ∨ row.attemptId = none)
    (h : (s.requeueExpired t now).reconcileRuntimeAttempt t attempt now = .ok s') :
    Evolves now backgroundLabels s (s'.releaseReservations t lease now) ∧
      ¬((s'.releaseReservations t lease now).view t).unresolved ∧
      ∃ row, s'.tasks.lookup t = some row ∧ row.status = .queued := by
  have hi₁ : Inv (s.requeueExpired t now) := hi.requeueExpired hrow hleased hres
  have hrec := hi₁.reconcileRuntimeAttempt h
  have hi₂ := hrec.inv hi₁
  have hcalm := hrec.contained_calm hi₁
  have honly : OnlyTask t s (s.requeueExpired t now) := .requeueExpired
  have hrelease : OnlyTask t s' (s'.releaseReservations t lease now) := .releaseReservations lease
  have hrequeued : (s.requeueExpired t now).view t = { s.view t with
      row := some
        { row with status := .queued, executorId := none, leaseToken := none, leaseExpiresAt := none,
                   waitingReason := some .waitingForWorker, updatedAt := now } } := by
    simp [State.view, State.requeueExpired, hrow]
  have hquiet : Life now Label.Quiet ((s.requeueExpired t now).view t) (s'.view t) :=
    (hrec.path t).mono fun l hl => hl.elim id fun hself => absurd hself.2 hi₁.childOf_irrefl
  have hpath : ∀ t', Life now Label.Background (s.view t')
      ((s'.releaseReservations t lease now).view t') := by
    intro t'
    by_cases ht : t' = t
    · subst ht
      have hlife := Life.requeue hrow hleased hres hlease hattempt (hrequeued ▸ hquiet)
        (State.reconcileWith_closed h)
      refine hlife.trans (.of_eq ?_)
      have hhold : (s'.view t').hold = (s.view t').hold := hcalm.hold
      rw [← hhold, ← State.hold_release]
      rfl
    · rw [hrelease.other t' ht, ← honly.other t' ht]
      exact (hrec.path t').mono fun _ => containLabels.background
  have hgrow : Grow s (s'.releaseReservations t lease now) :=
    (honly.tables.grow.trans hrec.grow).trans hrelease.tables.grow
  refine ⟨⟨hpath, hgrow, fun t' adm hnone hsome c hc => ?_, fun _ => ?_⟩, fun hu => ?_, ?_⟩
  · exact (hrec.admits t' adm hnone hsome c hc).imp id containLabels.background
  · exact hi.of_path hpath hgrow (fun _ _ hc => hc.ne.2.2.1 _ rfl)
      ⟨hi₂.spec, hi₂.attempt, hi₂.executors⟩
      (fun _ hf => absurd rfl hf.ne.2.2.2.2.1) fun _ hs => absurd rfl hs.ne.1
  · exact hres (hcalm.unresolved.mp hu)
  · obtain ⟨row', hrow', hstage⟩ := hcalm.row _ (congrArg View.row hrequeued)
    exact ⟨row', hrow', hstage.status⟩

/-- The row has the lease, the deadline and the attempt that it had before, or has lost them. -/
structure Task.LeaseBefore (task row : Task) : Prop where
  token : row.leaseToken = task.leaseToken ∨ row.leaseToken = none
  deadline : row.leaseExpiresAt = task.leaseExpiresAt ∨ row.leaseExpiresAt = none
  attempt : row.attemptId = task.attemptId ∨ row.attemptId = none

theorem Task.LeaseBefore.stage {row' : Task} (h : task.LeaseBefore row) (hs : row.SameStage row') :
    task.LeaseBefore row' :=
  ⟨hs.leaseToken ▸ h.token, hs.leaseExpiresAt ▸ h.deadline, hs.attemptId ▸ h.attempt⟩

/-- The lease of a leased row that background work has not ended is the one it had. -/
theorem Evolves.background_lease (h : Evolves now backgroundLabels s s')
    (hrow : s.tasks.lookup t = some task) (hrow' : s'.tasks.lookup t = some row) :
    task.LeaseBefore row := by
  have htoken := (h.path t).token_eq fun hs => hs.ne.1 rfl
  have hdeadline := (h.path t).deadline_eq (fun hs => hs.ne.1 rfl) (fun he => he.ne.2.1 rfl)
    fun _ hc => hc.ne.2.2.1 _ rfl
  have hcurrent := (h.path t).current_eq (fun hb => hb.ne.2.2.2.2.2.2.2.2.2.1 rfl)
    fun _ hc => hc.ne.2.2.1 _ rfl
  exact ⟨by simpa [token, view, hrow, hrow'] using htoken,
    by simpa [deadline, view, hrow, hrow'] using hdeadline,
    by simpa [current, view, hrow, hrow'] using hcurrent⟩

/-- The statements after the release: the run, the reset of the binding, and the event. -/
theorem State.releaseExpired_evolves (h : s.releaseExpired t task now = .ok s')
    (hrow : s.tasks.lookup t = some row) (hopen : row.status.terminal = false)
    (hres : ¬((s.releaseReservations t task.leaseToken now).view t).unresolved) :
    Evolves now backgroundLabels (s.releaseReservations t task.leaseToken now) s' := by
  simp only [releaseExpired, resetExecutionAttempt, bind_eq_ok, return_ok] at h
  obtain ⟨_, ⟨selected, hselected, rfl⟩, rfl⟩ := h
  have hrun : Evolves now backgroundLabels (s.releaseReservations t task.leaseToken now)
      ((s.requeueRun task.runId now).releaseReservations t task.leaseToken now) :=
    .requeueRun task.runId now
  refine hrun.trans (Evolves.trans (.resetBinding (.inl (.inl rfl)) hrow hopen hres
    (effectiveExecutionTarget_selects hselected)) (.appendEvent ..))

/-- A round over a task of which a query has read that it was leased: nothing happens when it has lost
its lease, and else its children are contained, and the binding decides. -/
theorem Inv.leased_round {attempt : Option AttemptId} {mark : Task → State → Except Err State}
    {take : State → Except Err State} (hi : Inv s)
    (h : (do
      let latest ← orThrow (s.tasks.lookup t) (.keyError "status")
      if ¬latest.status.leased then return s
      else
        let contained ← s.containDelegatedChildren t attempt now
        let binding ← contained.executionBinding t
        if unresolvedExternal binding then mark latest contained else take contained :
      Except Err State) = .ok s') :
    ∃ latest, s.tasks.lookup t = some latest ∧ (latest.status.leased = false ∧ s' = s ∨
      latest.status.leased = true ∧ ∃ contained row,
        s.containDelegatedChildren t attempt now = .ok contained ∧
        Evolves now (containLabels s t) s contained ∧ contained.tasks.lookup t = some row ∧
        latest.SameStage row ∧ row.status.leased = true ∧
        ((contained.view t).unresolved ∧ mark latest contained = .ok s' ∨
          ¬(contained.view t).unresolved ∧ take contained = .ok s')) := by
  simp only [bind_eq_ok, orThrow_eq_ok] at h
  obtain ⟨latest, hlatest, h⟩ := h
  refine ⟨latest, hlatest, ?_⟩
  split at h
  next hover => exact .inl ⟨by simpa using hover, (Except.ok.inj h).symm⟩
  next hleased =>
    have hleased : latest.status.leased = true := by simpa using hleased
    simp only [bind_eq_ok] at h
    obtain ⟨contained, hcontained, binding, hbinding, h⟩ := h
    have hcont := hi.containDelegatedChildren hcontained
    obtain ⟨row, hrow, hstage⟩ := (hcont.contained_calm hi).row _ hlatest
    refine .inr ⟨hleased, contained, row, hcontained, hcont, hrow, hstage,
      hstage.status ▸ hleased, ?_⟩
    split at h
    next hunres => exact .inl ⟨(unresolvedExternal_iff hbinding).mp hunres, h⟩
    next hres => exact .inr ⟨fun hu => hres ((unresolvedExternal_iff hbinding).mpr hu), h⟩

theorem Inv.reapLease (hi : Inv s)
    (hbefore : ∀ row, s.tasks.lookup t = some row → task.LeaseBefore row)
    (hover : ∀ d ∈ task.leaseExpiresAt, d ≤ now) (h : s.reapLease now (t, task) = .ok s') :
    Evolves now backgroundLabels s s' := by
  obtain ⟨latest, hlatest, ⟨-, rfl⟩ | ⟨-, contained, row, -, hcont, hrow, hstage, hleased, h⟩⟩ :=
    hi.leased_round h
  · exact .refl _
  have hlease := (hbefore latest hlatest).stage hstage
  refine (hcont.mono fun _ _ => containLabels.background).trans ?_
  rcases h with ⟨hunres, h⟩ | ⟨hres, h⟩
  · cases h
    refine Evolves.trans (.markProviderUnknown (.inr (.inr rfl)) hrow hleased hunres
      fun d hd => ?_) (.appendEvent ..)
    rcases hlease.deadline with hd' | hd'
    · exact hover d (hd' ▸ hd)
    · simp [hd'] at hd
  · obtain ⟨reconciled, hrec, hrelease⟩ := bind_eq_ok.mp h
    obtain ⟨hrequeued, hres', row', hrow', hqueued⟩ :=
      (hcont.inv hi).requeue hrow hleased hres hlease.token hlease.attempt hrec
    exact hrequeued.trans (releaseExpired_evolves hrelease hrow'
      (by simp [hqueued, Status.terminal]) hres')

theorem Inv.reapExpiredLeases (hi : Inv s) (h : s.reapExpiredLeases now = .ok s') :
    Evolves now backgroundLabels s s' := by
  simp only [State.reapExpiredLeases, bind_eq_ok] at h
  obtain ⟨contained, hcontained, hloop⟩ := h
  have horphans := (hi.containOrphanedDelegations hcontained).mono fun _ _ => orphanLabels.background
  refine horphans.trans (.loop (horphans.inv hi) (fun e he {s₁ s₂} hi₁ hev hstep => ?_) hloop)
  rw [overdueLeaseRows, List.mem_insertionSort, List.mem_filter] at he
  obtain ⟨hmem, hover⟩ := he
  have hrow := Table.lookup_eq_some_iff.mpr hmem
  refine hi₁.reapLease (fun row hrow' => hev.background_lease hrow hrow') (fun d hd => ?_) hstep
  have hany : e.2.leaseExpiresAt.any (· ≤ now) = true := by
    simpa [Task.overdue] using (Bool.and_eq_true_iff.mp hover).2
  rw [Option.mem_def.mp hd] at hany
  simpa using hany

theorem Inv.reapOverdueLeases (hi : Inv s) (h : s.reapOverdueLeases now = .ok s') :
    Evolves now backgroundLabels s s' := by
  unfold State.reapOverdueLeases at h
  split at h
  next =>
    cases h
    exact .refl _
  next => exact hi.reapExpiredLeases h

/-! ## Restart -/

/-- A new session: every prepared binding moves to it, and the epoch advances. -/
theorem Evolves.openSession {epoch : Nat} (hepoch : s.currentRuntimeEpoch < epoch) :
    Evolves now backgroundLabels s (s.openSession boot epoch now) := by
  have hpath : ∀ t, Life now (· = .note) (s.view t) ((s.openSession boot epoch now).view t) := by
    intro t
    by_cases hp : ∃ b, s.bindings.lookup t = some b ∧ b.status = .prepared
    · obtain ⟨b, hb, hstatus⟩ := hp
      have hres : ¬(s.view t).unresolved := by
        simp [unresolved, State.view, hb, Binding.unresolvedExternal, hstatus]
      have hprepared : Prepared (some { b with
          sessionId := boot, runtimeEpoch := epoch, updatedAt := now }) := by
        rintro _ ⟨⟩
        exact hstatus
      have hbefore : Prepared (s.view t).binding := by
        intro b' hb'
        obtain rfl := Option.mem_unique hb hb'
        exact hstatus
      have hview : (s.openSession boot epoch now).view t = { s.view t with
          binding := some { b with
            sessionId := boot, runtimeEpoch := epoch, updatedAt := now } } := by
        simp [State.view, State.openSession, State.refreshPrepared, hb, hstatus]
      have hrebinds : (s.view t).Rebinds (some { b with
          sessionId := boot, runtimeEpoch := epoch, updatedAt := now }) := by
        rintro _ ⟨⟩
        exact ⟨b, hb, .inl rfl, fun hclaimed => by simp [hstatus] at hclaimed⟩
      rw [hview]
      exact .single rfl (.rebind hres (.inl hbefore) hprepared (by simp [State.view, hb]) hrebinds)
    · refine .of_eq ?_
      simp only [State.view, State.openSession, State.refreshPrepared, Table.lookup_mapRows]
      cases hb : s.bindings.lookup t with
      | none => rfl
      | some b =>
        have hne : b.status ≠ .prepared := fun hst => hp ⟨b, hb, hst⟩
        simp [hne]
  refine .tame hpath (fun t l hl => .inl (.inl hl)) (by rintro t l rfl; decide)
    { Grow.refl s with epoch := hepoch.le } fun hs =>
    { hs with attempt := fun a x hx => ?_ }
  obtain ⟨hle, hfence⟩ := hs.attempt a x hx
  exact ⟨hle.trans hepoch.le, hfence⟩

theorem Inv.recoverInterrupted {previous : Nat} (hi : Inv s)
    (hbefore : ∀ row, s.tasks.lookup t = some row → task.LeaseBefore row)
    (h : s.recoverInterrupted previous now (t, task) = .ok s') :
    Evolves now backgroundLabels s s' := by
  obtain ⟨latest, hlatest, ⟨-, rfl⟩ | ⟨-, contained, row, -, hcont, hrow, hstage, hleased, h⟩⟩ :=
    hi.leased_round h
  · exact .refl _
  refine (hcont.mono fun _ _ => containLabels.background).trans ?_
  rcases h with ⟨hunres, h⟩ | ⟨hres, h⟩
  · cases h
    rw [← hstage.status]
    exact .recoverUnknownTask (.inr (.inr rfl)) hrow hleased hunres
  · obtain ⟨reconciled, hrec, hrecover⟩ := bind_eq_ok.mp h
    have hi₁ := hcont.inv hi
    have hreco := hi₁.reconcileRuntimeAttempt hrec
    have hcalm := hreco.contained_calm hi₁
    obtain ⟨row₂, hrow₂, hstage₂⟩ := hcalm.row _ hrow
    have hlease := ((hbefore latest hlatest).stage hstage).stage hstage₂
    have hclosed : (reconciled.view t).Closed row₂.attemptId := by
      rcases hlease.attempt with ha | ha
      · exact ha ▸ reconcileWith_closed hrec
      · simp [Closed, ha]
    exact (hreco.mono fun _ _ => containLabels.background).trans
      (.recoverTask (.inr (.inr rfl)) (.inl (.inl rfl)) hrow₂ (hstage₂.status ▸ hleased)
        (mt hcalm.unresolved.mp hres) hlease.token hclosed hrecover)

/-- A session opens under a higher epoch, and then recovers the interrupted tasks. -/
theorem Inv.beginRuntimeSession_ok {floor : Option Int} (hi : Inv s)
    (h : s.beginRuntimeSession boot floor now = .ok s') : ∃ epoch, s.currentRuntimeEpoch < epoch ∧
      Evolves now backgroundLabels s (s.openSession boot epoch now) ∧
      Evolves now backgroundLabels (s.openSession boot epoch now) s' := by
  simp only [beginRuntimeSession, bind_eq_ok, require_eq_ok, return_ok] at h
  obtain ⟨_, -, _, -, recovered, hloop, rfl⟩ := h
  have hopen : Evolves now backgroundLabels s (s.openSession boot
      (max s.currentRuntimeEpoch (floor.getD 0).toNat + 1) now) :=
    .openSession (by omega)
  refine ⟨_, by omega, hopen, ?_⟩
  have hrec : Evolves now backgroundLabels (s.openSession boot
      (max s.currentRuntimeEpoch (floor.getD 0).toNat + 1) now) recovered := by
    refine .loop (hopen.inv hi) (fun e he {s₁ s₂} hi₁ hev hstep => ?_) hloop
    have hrow := Table.lookup_of_mem_filter he
    exact hi₁.recoverInterrupted (fun row hrow' => hev.background_lease hrow hrow') hstep
  split
  next => exact hrec
  next => exact hrec.trans (Records.evolves rfl)

theorem Inv.beginRuntimeSession {floor : Option Int} (hi : Inv s)
    (h : s.beginRuntimeSession boot floor now = .ok s') : Evolves now backgroundLabels s s' := by
  obtain ⟨_, -, hopen, hrec⟩ := hi.beginRuntimeSession_ok h
  exact hopen.trans hrec

end WorkspaceRuntime
