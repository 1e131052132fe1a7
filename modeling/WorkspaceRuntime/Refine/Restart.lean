import WorkspaceRuntime.Refine.Epoch

/-!
# The rounds of a restart

A restart goes through the tasks that held a lease, in the order of their rows. A round contains the
delegated children of its task, and then takes the task back or marks it. So a task that held a lease
has a round of its own, and in the rounds of other tasks it is cancelled at most, as their child. The
lemmas here say what each of these does to one task: `Life` for the rounds of others
(`State.around_recoverInterrupted`), the exact view for its own (`Recovered`), and a frame for what no
round does (`State.Frame`).
-/

namespace WorkspaceRuntime

open Fallible State

variable {now : Time} {s s' : State} {t : TaskId} {row task : Task} {previous : Nat} {v v' : View}
  {l : Label} {cancel : State → TaskId → Except Err State} {attempt : Option AttemptId}

/-! ## External work stays -/

/-- Background work, or the cancel of a failed task. -/
def Label.Ending (l : Label) : Prop := l.Background ∨ l = .withdraw

/-- These labels, for every task. -/
def endingLabels (_ : TaskId) (l : Label) : Prop := l.Ending

theorem containLabels.ending {parent : TaskId} (h : containLabels s parent t l) : l.Ending :=
  .inl h.background

theorem cancelLabels.ending {target : TaskId} (h : cancelLabels s target t l) : l.Ending := by
  rcases h with h | h | h
  · exact .inl (.inl h)
  · exact .inl (.inr (.inl h.1))
  · exact .inr h.1

/-- None of this ends external work. -/
theorem Step.unresolved_kept (h : Step now l v v') (hl : l.Ending) (hu : v.unresolved) :
    v'.unresolved := by
  cases h with
  | rebind hresolved | stop _ _ hresolved | withdraw _ _ hresolved => exact absurd hu hresolved
  | request _ _ hunresolved | keepUnknown _ _ hunresolved => simpa [View.unresolved] using hu
  | respec | wait | touch | settle | admission | mark | requeue | recover => exact hu
  | _ => simp [Label.Ending, Label.Background, Label.Quiet] at hl

theorem Life.unresolved_kept {allowed : Label → Prop} (h : Life now allowed v v')
    (hl : ∀ l, allowed l → l.Ending) (hu : v.unresolved) : v'.unresolved :=
  h.relates (R := fun v v' => v.unresolved → v'.unresolved) (fun _ => id) (fun h h' => h' ∘ h)
    (fun ha hs => hs.unresolved_kept (hl _ ha)) hu

/-! ## What no round does -/

/-- The attempts of tasks with external work stay as they are, and no binding becomes prepared. -/
structure State.Frame (s s' : State) : Prop where
  attempts : ∀ a x, s.attempts.lookup a = some x → (s.view x.taskId).unresolved →
    s'.attempts.lookup a = some x
  prepared : ∀ t b, s'.bindings.lookup t = some b → b.status = .prepared →
    s.bindings.lookup t = some b

theorem State.Frame.refl (s : State) : s.Frame s := ⟨fun _ _ h _ => h, fun _ _ h _ => h⟩

theorem State.Frame.trans {s₁ s₂ s₃ : State} (h : s₁.Frame s₂) (h' : s₂.Frame s₃)
    (hev : Evolves now endingLabels s₁ s₂) : s₁.Frame s₃ where
  attempts a x hx hu :=
    h'.attempts a x (h.attempts a x hx hu) ((hev.path x.taskId).unresolved_kept (fun _ => id) hu)
  prepared t b hb hp := h.prepared t b (h'.prepared t b hb hp) hp

/-- After it, neither table changes. -/
theorem State.Frame.same {s₁ s₂ : State} (h : s.Frame s₁) (ha : s₂.attempts = s₁.attempts)
    (hb : s₂.bindings = s₁.bindings) : s.Frame s₂ :=
  ⟨fun a x hx hu => ha ▸ h.attempts a x hx hu, fun t b hx hp => h.prepared t b (hb ▸ hx) hp⟩

/-- A claimed binding is closed. -/
theorem State.Frame.releaseBinding {status : BindingStatus} (hstatus : status ≠ .prepared) :
    s.Frame (s.releaseBinding t status now) where
  attempts _ _ hx _ := hx
  prepared t' b hb hp := by
    simp only [State.releaseBinding, Table.lookup_modify] at hb
    split at hb
    next ht =>
      obtain ⟨b₀, hb₀, rfl⟩ := Option.map_eq_some_iff.mp hb
      split at hp
      · exact absurd hp hstatus
      next hne => rw [if_neg hne]; exact ht ▸ hb₀
    next => exact hb

/-- An attempt of a task without external work is settled. -/
theorem State.Frame.settleAttemptOf {a : AttemptId} (hres : ¬(s.view t).unresolved) :
    s.Frame (s.settleAttemptOf t a) where
  attempts b x hx hu := by
    simp only [State.settleAttemptOf, Table.lookup_modify]
    split
    next hb =>
      subst hb
      have hne : x.taskId ≠ t := fun h => hres (h ▸ hu)
      simp [hx, hne]
    next => exact hx
  prepared _ _ hb _ := hb

/-! ### Continuations -/

/-- The admission of a continuation writes tasks, specs and admissions. -/
theorem State.admitContinuation_same (h : s.admitContinuation t now = .ok s') :
    s'.attempts = s.attempts ∧ s'.bindings = s.bindings := by
  unfold admitContinuation at h
  dsimp only at h
  split at h
  next => exact Except.ok.inj h ▸ ⟨rfl, rfl⟩
  split at h
  next => exact Except.ok.inj h ▸ ⟨rfl, rfl⟩
  split at h
  next => exact Except.ok.inj h ▸ ⟨rfl, rfl⟩
  split at h
  next => exact Except.ok.inj h ▸ ⟨rfl, rfl⟩
  split at h
  next => exact Except.ok.inj h ▸ ⟨rfl, rfl⟩
  next =>
    simp only [resolveContinuation, bind_eq_ok, return_ok] at h
    obtain ⟨_, -, _, -, _, -, _, -, _, -, rfl⟩ := h
    exact ⟨rfl, rfl⟩

theorem State.refreshContinuations_same {p : TaskId}
    (h : s.refreshContinuationsForPredecessor p now = .ok s') :
    s'.attempts = s.attempts ∧ s'.bindings = s.bindings := by
  refine foldlM_rel
    (R := fun s₁ s₂ : State => s₂.attempts = s₁.attempts ∧ s₂.bindings = s₁.bindings)
    (fun _ => ⟨rfl, rfl⟩) (fun h₁ h₂ => ⟨h₂.1.trans h₁.1, h₂.2.trans h₁.2⟩)
    (fun c _ {s₁ s₂} hround => ?_) h
  simp only [refreshContinuation, bind_eq_ok, return_ok] at hround
  obtain ⟨tried, htried, rfl⟩ := hround
  have hsame := admitContinuation_same htried
  split <;> exact hsame

/-! ### Containment and cancellation -/

/-- A loop whose rounds evolve the realm and have the frame. -/
theorem Inv.frame_loop {α : Type} {items : List α} {round : State → α → Except Err State} (hi : Inv s)
    (hround : ∀ a ∈ items, ∀ {s₁ s₂}, Inv s₁ → round s₁ a = .ok s₂ →
      Evolves now endingLabels s₁ s₂ ∧ s₁.Frame s₂)
    (h : items.foldlM round s = .ok s') : s.Frame s' := by
  have hrel := foldlM_rel
    (R := fun s₁ s₂ => Inv s₁ → Evolves now endingLabels s₁ s₂ ∧ s₁.Frame s₂)
    (fun s₁ _ => ⟨.refl s₁, .refl s₁⟩)
    (fun h₁ h₂ hi₁ => by
      obtain ⟨hev, hframe⟩ := h₁ hi₁
      obtain ⟨hev', hframe'⟩ := h₂ (hev.inv hi₁)
      exact ⟨hev.trans hev', hframe.trans hframe' hev⟩)
    (fun a ha _ _ hstep hi₁ => hround a ha hi₁ hstep) h
  exact (hrel hi).2

/-- What a containment needs of the cancellation that it calls, besides `CancelSpec`. -/
def FrameSpec (cancel : State → TaskId → Except Err State) : Prop :=
  ∀ {s t s'}, Inv s → cancel s t = .ok s' → s.Frame s'

theorem Inv.frame_containWith (hcancel : CancelSpec now cancel) (hframe : FrameSpec cancel)
    (hi : Inv s) (h : s.containWith cancel t attempt now = .ok s') : s.Frame s' := by
  simp only [State.containWith, bind_eq_ok] at h
  obtain ⟨closed, hclosed, hloop⟩ := h
  have hev : Evolves now endingLabels s closed :=
    (closeDelegation_evolves hclosed).mono fun _ _ h => .inl h.background
  have hclose : s.Frame closed := by
    unfold State.closeDelegation at hclosed
    split at hclosed
    next => exact Except.ok.inj hclosed ▸ .refl s
    next =>
      simp only [bind_eq_ok, return_ok] at hclosed
      obtain ⟨_, -, rfl⟩ := hclosed
      split
      · exact Frame.same (.refl s) rfl rfl
      · exact .refl s
  have hchild : ∀ c ∈ closed.delegatedChildren t attempt, ∀ {s₁ s₂}, Inv s₁ →
      containChild cancel t now s₁ c = .ok s₂ →
      Evolves now endingLabels s₁ s₂ ∧ s₁.Frame s₂ := by
    intro c _ s₁ s₂ hi₁ hround
    unfold containChild at hround
    split at hround
    · exact Except.ok.inj hround ▸ ⟨.refl s₁, .refl s₁⟩
    · simp only [bind_eq_ok, return_ok] at hround
      obtain ⟨cancelled, hcancelled, rfl⟩ := hround
      exact ⟨((hcancel hi₁ hcancelled).mono fun _ _ => cancelLabels.ending).trans (.appendEvent ..),
        (hframe hi₁ hcancelled).same rfl rfl⟩
  exact hclose.trans ((hev.inv hi).frame_loop hchild hloop) hev

/-- The attempt that is reconciled is one of a task without external work. -/
theorem Inv.frame_reconcileWith (hcancel : CancelSpec now cancel) (hframe : FrameSpec cancel)
    (hi : Inv s) (hres : ¬(s.view t).unresolved) (h : s.reconcileWith cancel t attempt now = .ok s') :
    s.Frame s' := by
  unfold State.reconcileWith at h
  split at h
  next => exact Except.ok.inj h ▸ .refl s
  next a =>
    simp only [bind_eq_ok, return_ok] at h
    obtain ⟨contained, hcontained, rfl⟩ := h
    have hev := hi.containWith hcancel hcontained
    have hres' : ¬(contained.view t).unresolved :=
      mt (hev.contained_calm hi).unresolved.mp hres
    exact (hi.frame_containWith hcancel hframe hcontained).trans (.settleAttemptOf hres')
      (hev.mono fun _ _ => containLabels.ending)

/-- Cancellation, by induction on the nested calls. -/
theorem State.frame_cancelTask (depth : Nat) : FrameSpec (cancelTask now depth) := by
  induction depth with
  | zero =>
    intro s t s' _ h
    cases h
  | succ depth ih =>
    intro s t s' hi h
    have hcancel : CancelSpec now (cancelTask now depth) := cancelTask_evolves depth
    simp only [cancelTask, bind_eq_ok, orThrow_eq_ok] at h
    obtain ⟨task, hrow, h⟩ := h
    split at h
    next =>
      simp only [bind_eq_ok, return_ok] at h
      obtain ⟨_, -, rfl⟩ := h
      exact .refl _
    next hopen =>
      simp only [not_or] at hopen
      simp only [bind_eq_ok] at h
      obtain ⟨contained, hcontained, binding, hbinding, h⟩ := h
      have hcont := (hi.containWith hcancel hcontained)
      have hframe := hi.frame_containWith hcancel ih hcontained
      split at h
      next hunres =>
        simp only [bind_eq_ok, return_ok] at h
        obtain ⟨_, -, rfl⟩ := h
        have hrelease : contained.Frame (contained.requestCancelTask t task now) :=
          Frame.same (Frame.releaseBinding (by decide)) rfl rfl
        exact hframe.trans hrelease (hcont.mono fun _ _ => containLabels.ending)
      next hres =>
        simp only [bind_eq_ok, return_ok] at h
        obtain ⟨reconciled, hrec, refreshed, hrefresh, _, -, rfl⟩ := h
        have hi₁ := hcont.inv hi
        have hresolved : ¬(contained.view t).unresolved :=
          fun hu => hres ((unresolvedExternal_iff hbinding).mpr hu)
        have hrows : reconciled.Frame (reconciled.cancelTaskRows t task binding.isSome now) := by
          unfold cancelTaskRows
          dsimp only
          split
          · exact Frame.same (Frame.releaseBinding (by decide)) rfl rfl
          · exact Frame.same (.refl reconciled) rfl rfl
        have hreco : contained.Frame refreshed :=
          ((hi₁.frame_reconcileWith hcancel ih hresolved hrec).trans hrows
            ((hi₁.reconcileWith hcancel hrec).mono fun _ _ => containLabels.ending)).same
            (refreshContinuations_same hrefresh).1 (refreshContinuations_same hrefresh).2
        exact hframe.trans hreco (hcont.mono fun _ _ => containLabels.ending)

theorem Inv.frame_containDelegatedChildren (hi : Inv s)
    (h : s.containDelegatedChildren t attempt now = .ok s') : s.Frame s' :=
  hi.frame_containWith (cancelTask_evolves _) (frame_cancelTask _) h

theorem Inv.frame_reconcileRuntimeAttempt (hi : Inv s) (hres : ¬(s.view t).unresolved)
    (h : s.reconcileRuntimeAttempt t attempt now = .ok s') :
    s.Frame s' :=
  hi.frame_reconcileWith (cancelTask_evolves _) (frame_cancelTask _) hres h

/-! ## Rounds -/

/-- What a round does: nothing for a task that has lost its lease, and else it contains the children
of the task and then marks the task, or takes it back. `task` is the row that the query read. -/
inductive Recovers (previous : Nat) (now : Time) (s : State) (t : TaskId) (task : Task)
    (s' : State) : Prop
  | ended {latest : Task} (hrow : s.tasks.lookup t = some latest)
      (hover : latest.status.leased = false) (h : s' = s)
  | unknown {latest : Task} {contained : State} (hrow : s.tasks.lookup t = some latest)
      (hleased : latest.status.leased = true)
      (hcontained : Evolves now (containLabels s t) s contained) (hframe : s.Frame contained)
      (hsession : s.SameSession contained) (hunresolved : (contained.view t).unresolved)
      (h : s' = contained.recoverUnknownTask previous t task latest.status now)
  | taken {latest : Task} {reconciled : State} (hrow : s.tasks.lookup t = some latest)
      (hleased : latest.status.leased = true)
      (hcontained : Evolves now (containLabels s t) s reconciled) (hframe : s.Frame reconciled)
      (hsession : s.SameSession reconciled) (hresolved : ¬(reconciled.view t).unresolved)
      (hclosed : (reconciled.view t).Closed task.attemptId)
      (h : reconciled.recoverTask previous t task now = .ok s')

theorem Inv.recoverInterrupted_ok (hi : Inv s)
    (h : s.recoverInterrupted previous now (t, task) = .ok s') :
    Recovers previous now s t task s' := by
  obtain ⟨latest, hrow, ⟨hover, hs'⟩ | ⟨hleased, contained, -, hcontained, hcont, -, -, -, h⟩⟩ :=
    hi.leased_round h
  · exact .ended hrow hover hs'
  have hframe := hi.frame_containDelegatedChildren hcontained
  have hsession := (steady_containDelegatedChildren contained hcontained).session
  rcases h with ⟨hunres, h⟩ | ⟨hresolved, h⟩
  · exact .unknown hrow hleased hcont hframe hsession hunres (Except.ok.inj h).symm
  · obtain ⟨reconciled, hrec, h⟩ := bind_eq_ok.mp h
    have hi₁ := hcont.inv hi
    have hreco := hi₁.reconcileRuntimeAttempt hrec
    have hsame : ∀ p c, contained.ChildOf p c ↔ s.ChildOf p c := fun _ _ =>
      hcont.childOf_iff fun _ _ => containLabels.keepsSpec
    exact .taken hrow hleased
      (hcont.trans (hreco.mono fun _ _ hl => (containLabels_iff hsame).mp hl))
      (hframe.trans (hi₁.frame_reconcileRuntimeAttempt hresolved hrec)
        (hcont.mono fun _ _ => containLabels.ending))
      (hsession.trans (steady_reconcileRuntimeAttempt reconciled hrec).session)
      (mt (hreco.contained_calm hi₁).unresolved.mp hresolved) (reconcileWith_closed hrec) h

/-- The tables after a task is taken back. -/
theorem State.recoverTask_ok (h : s.recoverTask previous t task now = .ok s') :
    ∃ selected, OnlyTask t s (((s.recoverQueued t now).releaseReservations t task.leaseToken
        now).resetBinding t selected s.currentRuntimeEpoch now) ∧
      s' = ((((s.recoverQueued t now).requeueRun task.runId now).releaseReservations t
        task.leaseToken now).resetBinding t selected s.currentRuntimeEpoch now).appendEvent
        task.runId (some t) (.runtimeRecovered previous (s.reconciledAttempt t task.attemptId)
          task.leaseFence false) now := by
  simp only [recoverTask, resetExecutionAttempt, bind_eq_ok, return_ok] at h
  obtain ⟨_, ⟨selected, -, rfl⟩, rfl⟩ := h
  exact ⟨selected, (OnlyTask.recoverQueued.trans (.releaseReservations _)).trans
    (.resetBinding _ _), rfl⟩

namespace Recovers

/-- In the round of another task, a task is cancelled at most, as its child. -/
theorem elsewhere (h : Recovers previous now s t task s') {u : TaskId} (hu : u ≠ t) :
    Life now (containLabels s t u) (s.view u) (s'.view u) := by
  cases h with
  | ended _ _ h => exact .of_eq (congrArg (view · u) h).symm
  | @unknown latest contained _ _ hcontained _ _ _ h =>
    have honly : OnlyTask t contained ((contained.recoverUnknown t
        (if latest.status = .cancelRequested then .cancelRequested else .queued)
        now).releaseBinding t .stale now) :=
      (OnlyTask.recoverUnknown _).trans (.releaseBinding _)
    refine (hcontained.path u).trans (.of_eq ?_)
    rw [h, recoverUnknownTask, view_appendEvent _ _ _ rfl]
    exact (honly.other u hu).symm
  | taken _ _ hcontained _ _ _ _ h =>
    obtain ⟨selected, honly, rfl⟩ := recoverTask_ok h
    refine (hcontained.path u).trans (.of_eq ?_)
    rw [view_appendEvent _ _ _ rfl]
    exact (honly.other u hu).symm

/-- A round does not touch the attempts of tasks with external work. -/
theorem attempts (h : Recovers previous now s t task s') {a : AttemptId} {x : Attempt}
    (hx : s.attempts.lookup a = some x) (hu : (s.view x.taskId).unresolved) :
    s'.attempts.lookup a = some x := by
  cases h with
  | ended _ _ h => exact h ▸ hx
  | unknown _ _ _ hframe _ _ h =>
    subst h
    exact hframe.attempts a x hx hu
  | taken _ _ _ hframe _ _ _ h =>
    obtain ⟨selected, -, rfl⟩ := recoverTask_ok h
    exact hframe.attempts a x hx hu

end Recovers

/-- Every prepared binding belongs to the session. -/
def State.Fresh (s : State) : Prop :=
  ∀ t b, s.bindings.lookup t = some b → b.status = .prepared →
    b.runtimeEpoch = s.currentRuntimeEpoch ∧ b.sessionId = s.lifecycle.bootId

theorem State.fresh_openSession {boot : String} {epoch : Nat} :
    (s.openSession boot epoch now).Fresh := by
  intro t b hb hp
  simp only [openSession, refreshPrepared, Table.lookup_mapRows] at hb
  obtain ⟨b₀, -, rfl⟩ := Option.map_eq_some_iff.mp hb
  split
  · exact ⟨rfl, rfl⟩
  next hne => simp [hne] at hp

theorem State.Frame.fresh (h : s.Frame s') (hsession : s.SameSession s') (hs : s.Fresh) :
    s'.Fresh := by
  intro t b hb hp
  rw [hsession.epoch, show s'.lifecycle = s.lifecycle from hsession]
  exact hs t b (h.prepared t b hb hp) hp

theorem Recovers.fresh (h : Recovers previous now s t task s') (hs : s.Fresh) : s'.Fresh := by
  cases h with
  | ended _ _ h => exact h ▸ hs
  | @unknown latest contained _ _ _ hframe hsession _ h =>
    have hrelease : contained.Frame (contained.recoverUnknownTask previous t task latest.status now) :=
      Frame.same (Frame.releaseBinding (by decide)) rfl rfl
    exact h ▸ hrelease.fresh rfl (hframe.fresh hsession hs)
  | @taken latest reconciled _ _ _ hframe hsession _ _ h =>
    obtain ⟨selected, -, rfl⟩ := recoverTask_ok h
    have hfresh : reconciled.Fresh := hframe.fresh hsession hs
    intro u b hb hp
    simp only [appendEvent, resetBinding, Table.lookup_modify] at hb
    split at hb
    next =>
      obtain ⟨b₀, hb₀, rfl⟩ := Option.map_eq_some_iff.mp hb
      split
      next hprepared => exact hfresh u b₀ hb₀ hprepared
      next => exact ⟨rfl, rfl⟩
    next => exact hfresh u b hb hp

end WorkspaceRuntime
