import WorkspaceRuntime.Store.Claim

/-!
# What background work leaves alone, and what it logs

Reaping, containment, cancellation and the admission of continuations write tasks, runs, attempts,
reservations, bindings, admissions, specs and events. `State.outside` is the rest of the database,
and none of them changes it. The event log is append-only: containment, cancellation and the refresh
of continuations append events of their own kinds, and only the reaper appends that a lease has
expired.
-/

namespace WorkspaceRuntime

open Fallible

variable {now : Time} {s s' : State} {t : TaskId} {P : Event → Prop}
  {cancel : State → TaskId → Except Err State} {attempt : Option AttemptId}

/-- The tables that background work does not write. -/
def State.outside (s : State) : State :=
  { s with tasks := .empty, runs := .empty, attempts := .empty, reservations := .empty
           bindings := .empty, admissions := .empty, specs := [], events := [] }

theorem State.executors_of_outside (h : s'.outside = s.outside) : s'.executors = s.executors :=
  show s'.outside.executors = s.outside.executors by rw [h]

theorem State.capabilities_of_outside (h : s'.outside = s.outside) :
    s'.capabilities = s.capabilities :=
  show s'.outside.capabilities = s.outside.capabilities by rw [h]

theorem State.receipts_of_outside (h : s'.outside = s.outside) : s'.receipts = s.receipts :=
  show s'.outside.receipts = s.outside.receipts by rw [h]

/-- The log has grown by events with this property. -/
def State.Logs (P : Event → Prop) (s s' : State) : Prop :=
  ∃ added, s'.events = s.events ++ added ∧ ∀ e ∈ added, P e

theorem State.Logs.of_eq (h : s'.events = s.events) : s.Logs P s' :=
  ⟨[], by rw [h, List.append_nil], by simp⟩

theorem State.Logs.refl (s : State) : s.Logs P s := .of_eq rfl

theorem State.Logs.trans {s₁ s₂ s₃ : State} (h : s₁.Logs P s₂) (h' : s₂.Logs P s₃) :
    s₁.Logs P s₃ := by
  obtain ⟨added, hadded, hP⟩ := h
  obtain ⟨added', hadded', hP'⟩ := h'
  refine ⟨added ++ added', by rw [hadded', hadded, List.append_assoc], fun e he => ?_⟩
  rcases List.mem_append.mp he with he | he
  · exact hP e he
  · exact hP' e he

/-- One more event. -/
theorem State.Logs.append {runId : RunId} {taskId : Option TaskId} {kind : EventKind}
    (h : s.Logs P s') (hP : P { runId, taskId, kind, createdAt := now }) :
    s.Logs P (s'.appendEvent runId taskId kind now) := by
  obtain ⟨added, hadded, hall⟩ := h
  refine ⟨added ++ [{ runId, taskId, kind, createdAt := now }], ?_, fun e he => ?_⟩
  · show s'.events ++ [_] = _
    rw [hadded, List.append_assoc]
  · rcases List.mem_append.mp he with he | he
    · exact hall e he
    · rw [List.mem_singleton.mp he]
      exact hP

/-- The log does not shrink. -/
theorem State.Logs.length_le (h : s.Logs P s') : s.events.length ≤ s'.events.length := by
  obtain ⟨added, hadded, -⟩ := h
  rw [hadded, List.length_append]
  exact Nat.le_add_right _ _

/-- The event of a cancel, of a contained child, or of an admitted continuation. -/
def Event.ofCancel (e : Event) : Prop :=
  match e.kind with
  | .cancelled _ | .cancelRequested | .parentContained _ | .continuationAdmitted _ => True
  | _ => False

/-- What background work does besides writing the rows of tasks: it leaves the rest alone, and logs
events of its own kinds. -/
structure State.Background (s s' : State) : Prop where
  outside : s'.outside = s.outside
  logs : s.Logs Event.ofCancel s'

namespace State

theorem Background.refl (s : State) : s.Background s := ⟨rfl, .refl s⟩

theorem Background.trans {s₁ s₂ s₃ : State} (h : s₁.Background s₂) (h' : s₂.Background s₃) :
    s₁.Background s₃ :=
  ⟨h'.outside.trans h.outside, h.logs.trans h'.logs⟩

/-- Rows are written and no event is logged. -/
theorem Background.of_rows (houtside : s'.outside = s.outside) (hevents : s'.events = s.events) :
    s.Background s' :=
  ⟨houtside, .of_eq hevents⟩

/-- One more event. -/
theorem Background.append {runId : RunId} {taskId : Option TaskId} {kind : EventKind}
    (h : s.Background s')
    (hP : Event.ofCancel { runId, taskId, kind, createdAt := now }) :
    s.Background (s'.appendEvent runId taskId kind now) :=
  ⟨h.outside, h.logs.append hP⟩

theorem Background.foldlM {α : Type} {round : State → α → Except Err State} {l : List α}
    (hround : ∀ {s s' a}, round s a = .ok s' → s.Background s') (h : l.foldlM round s = .ok s') :
    s.Background s' :=
  foldlM_rel (R := Background) .refl (fun {_ _ _} => .trans) (fun _ _ {_ _} => hround) h

/-! ## Continuations -/

theorem background_admitContinuation (h : s.admitContinuation t now = .ok s') :
    s.Background s' := by
  unfold admitContinuation at h
  dsimp only at h
  split at h
  next => exact Except.ok.inj h ▸ .refl s
  split at h
  next => exact Except.ok.inj h ▸ .refl s
  split at h
  next => exact Except.ok.inj h ▸ .refl s
  split at h
  next => exact Except.ok.inj h ▸ .refl s
  split at h
  next => exact Except.ok.inj h ▸ .of_rows rfl rfl
  next =>
    simp only [resolveContinuation, bind_eq_ok, return_ok] at h
    obtain ⟨_, -, _, -, _, -, _, -, _, -, rfl⟩ := h
    exact .append (.of_rows rfl rfl) trivial

theorem background_claimDependencies (h : s.claimDependencies t now = .ok s') :
    s.Background s' := by
  unfold claimDependencies at h
  split at h
  · exact background_admitContinuation h
  · exact Except.ok.inj h ▸ .refl s

theorem background_refreshContinuations {p : TaskId}
    (h : s.refreshContinuationsForPredecessor p now = .ok s') : s.Background s' := by
  refine Background.foldlM (fun {s s' t} hround => ?_) h
  simp only [refreshContinuation, bind_eq_ok, return_ok] at hround
  obtain ⟨tried, htried, rfl⟩ := hround
  split
  · exact background_admitContinuation htried
  · exact (background_admitContinuation htried).trans (.of_rows rfl rfl)

/-! ## Containment and cancellation -/

theorem background_containWith {parent : TaskId}
    (hcancel : ∀ {s s' t}, cancel s t = .ok s' → s.Background s')
    (h : s.containWith cancel parent attempt now = .ok s') : s.Background s' := by
  simp only [containWith, bind_eq_ok] at h
  obtain ⟨closed, hclosed, hloop⟩ := h
  have hclose : s.Background closed := by
    unfold closeDelegation at hclosed
    split at hclosed
    next => exact Except.ok.inj hclosed ▸ .refl s
    next =>
      simp only [bind_eq_ok, return_ok] at hclosed
      obtain ⟨_, -, rfl⟩ := hclosed
      split <;> exact .of_rows rfl rfl
  refine hclose.trans (Background.foldlM (fun {s s' child} hround => ?_) hloop)
  unfold containChild at hround
  split at hround
  · exact Except.ok.inj hround ▸ .refl s
  · simp only [bind_eq_ok, return_ok] at hround
    obtain ⟨cancelled, hcancelled, rfl⟩ := hround
    exact (hcancel hcancelled).append trivial

theorem background_reconcileWith
    (hcancel : ∀ {s s' t}, cancel s t = .ok s' → s.Background s')
    (h : s.reconcileWith cancel t attempt now = .ok s') : s.Background s' := by
  unfold reconcileWith at h
  split at h
  next => exact Except.ok.inj h ▸ .refl s
  next a =>
    simp only [bind_eq_ok, return_ok] at h
    obtain ⟨contained, hcontained, rfl⟩ := h
    exact (background_containWith hcancel hcontained).trans (.of_rows rfl rfl)

/-- Cancellation, by induction on the nested calls. -/
theorem background_cancelTask (depth : Nat) :
    ∀ {s s' : State} {t : TaskId}, cancelTask now depth s t = .ok s' → s.Background s' := by
  induction depth with
  | zero => exact fun h => nomatch h
  | succ depth ih =>
    intro s s' t h
    simp only [cancelTask, bind_eq_ok] at h
    obtain ⟨task, -, h⟩ := h
    split at h
    next =>
      simp only [bind_eq_ok, return_ok] at h
      obtain ⟨_, -, rfl⟩ := h
      exact .refl s
    next =>
      simp only [bind_eq_ok] at h
      obtain ⟨contained, hcontained, binding, -, h⟩ := h
      have hcont := background_containWith ih hcontained
      split at h
      next =>
        simp only [bind_eq_ok, return_ok] at h
        obtain ⟨_, -, rfl⟩ := h
        exact .append (hcont.trans (.of_rows rfl rfl)) trivial
      next =>
        simp only [bind_eq_ok, return_ok] at h
        obtain ⟨reconciled, hrec, refreshed, hrefresh, _, -, rfl⟩ := h
        have hrows : reconciled.Background
            (reconciled.cancelTaskRows t task binding.isSome now) := by
          unfold cancelTaskRows
          dsimp only
          split <;> exact .append (.of_rows rfl rfl) trivial
        exact ((hcont.trans (background_reconcileWith ih hrec)).trans hrows).trans
          (background_refreshContinuations hrefresh)

theorem background_containDelegatedChildren {parent : TaskId}
    (h : s.containDelegatedChildren parent attempt now = .ok s') : s.Background s' :=
  background_containWith (background_cancelTask _) h

theorem background_reconcileRuntimeAttempt (h : s.reconcileRuntimeAttempt t attempt now = .ok s') :
    s.Background s' :=
  background_reconcileWith (background_cancelTask _) h

theorem background_containOrphanedDelegations (h : s.containOrphanedDelegations now = .ok s') :
    s.Background s' := by
  refine Background.foldlM (fun {s s' child} hround => ?_) h
  simp only [containOrphan, bind_eq_ok] at hround
  obtain ⟨_, -, _, -, _, -, hround⟩ := hround
  split at hround
  · exact Except.ok.inj hround ▸ .refl s
  · exact background_containDelegatedChildren hround

/-! ## Reaping -/

theorem outside_reapLease {overdue : TaskId × Task} (h : s.reapLease now overdue = .ok s') :
    s'.outside = s.outside := by
  simp only [reapLease, bind_eq_ok] at h
  obtain ⟨latest, -, h⟩ := h
  split at h
  next => exact Except.ok.inj h ▸ rfl
  next =>
    simp only [bind_eq_ok] at h
    obtain ⟨contained, hcontained, binding, -, h⟩ := h
    have hcont := (background_containDelegatedChildren hcontained).outside
    split at h
    next =>
      cases h
      exact (show _ = contained.outside from rfl).trans hcont
    next =>
      simp only [releaseExpired, resetExecutionAttempt, bind_eq_ok, return_ok] at h
      obtain ⟨reconciled, hrec, _, ⟨_, -, rfl⟩, rfl⟩ := h
      exact (show _ = reconciled.outside from rfl).trans
        ((background_reconcileRuntimeAttempt hrec).outside.trans hcont)

/-- The reaper leaves the registrations, the checkpoints and the objects alone. -/
theorem outside_reapExpiredLeases (h : s.reapExpiredLeases now = .ok s') :
    s'.outside = s.outside := by
  simp only [reapExpiredLeases, bind_eq_ok] at h
  obtain ⟨contained, hcontained, hloop⟩ := h
  refine Eq.trans ?_ (background_containOrphanedDelegations hcontained).outside
  refine foldlM_rel (R := fun s s' => s'.outside = s.outside) (fun _ => rfl) ?_
    (fun _ _ {_ _} => outside_reapLease) hloop
  exact fun {s₁ s₂ s₃} h h' => h'.trans h

end State

end WorkspaceRuntime
