import WorkspaceRuntime.Refine.Claim
import WorkspaceRuntime.Service.Recovery

/-!
# Checkpoints and resume

The recovery commands before a restart write checkpoints and nonces only. A resume moves its task
along the lifting of its binding, the claim and the attempt, however far it gets.
-/

namespace WorkspaceRuntime

open Fallible State

variable {env : Env} {now : Time} {A : TaskId → Label → Prop} {s s' : State} {t : TaskId}
  {access : Access} {value : Json} {r : ResumeRequest} {c : CheckpointId} {row : RecoveryCheckpoint}
  {binding : Option BindingView} {placement : Option Placement} {epoch : Nat}

/-! ## Checkpoints -/

theorem State.prepareReboot_evolves (h : s.prepareReboot env access value = .ok s') :
    Evolves now A s s' := by
  simp only [prepareReboot, bind_eq_ok, return_ok] at h
  obtain ⟨_, -, a, -, _, -, _, -, row, -, _, -, rfl⟩ := h
  split
  · exact .refl _
  · exact .modifyAttempt a _ (fun _ => ⟨rfl, rfl, rfl, rfl, rfl, id⟩) fun _ _ hne => absurd rfl hne

theorem State.checkpointAttempt_evolves {a : AttemptId} {digest : String} {stored : Except Err Unit}
    (h : s.checkpointAttempt env access a value digest stored = .ok s') : Evolves now A s s' := by
  simp only [checkpointAttempt, bind_eq_ok] at h
  obtain ⟨_, -, _, -, _, -, _, -, _, -, row, -, _, -, nonce, -, _, -, h⟩ := h
  split at h
  next =>
    cases h
    exact .refl _
  next =>
    simp only [bind_eq_ok, return_ok] at h
    obtain ⟨_, -, _, -, rfl⟩ := h
    exact Records.evolves rfl

theorem State.requestReboot_evolves {intact : Except Err Unit}
    (h : s.requestReboot env access value intact = .ok s') : Evolves now A s s' := by
  simp only [requestReboot, bind_eq_ok, Prod.exists] at h
  obtain ⟨body, -, _, -, c, row, -, _, -, h⟩ := h
  split at h
  next =>
    simp only [bind_eq_ok, return_ok] at h
    obtain ⟨_, -, rfl⟩ := h
    exact .refl _
  next =>
    simp only [bind_eq_ok, return_ok] at h
    obtain ⟨_, -, _, -, _, -, _, -, _, -, _, -, rfl⟩ := h
    have hnonce : Evolves now A s
        { s with attempts := s.attempts.modify row.attemptId fun r =>
          { r with recoveryNonceUsed := true } } :=
      .modifyAttempt _ _ (fun _ => ⟨rfl, rfl, rfl, rfl, rfl, id⟩) fun _ _ hne => absurd rfl hne
    exact hnonce.trans (Records.evolves rfl)

theorem Evolves.finishReboot (c : CheckpointId) (executed : Bool) :
    Evolves now A s (s.finishReboot c executed) :=
  Records.evolves rfl

/-! ## Resume -/

/-- What the checks of a resume have read when it goes on to write. -/
theorem State.resumeChecks_proceed
    (h : s.resumeChecks env r = .ok (.proceed c row binding placement epoch)) :
    epoch = s.currentRuntimeEpoch ∧ s.executionBinding row.taskId = .ok binding ∧
      r.access.placement = .ok placement ∧ row.state.resumable = true ∧
      s.checkResumePlacement row.taskId binding placement = .ok () ∧
      ∃ checkpoint attempt, s.checkpointRow checkpoint attempt = .ok (c, row) := by
  simp only [resumeChecks, validateRuntimeEpoch, bind_eq_ok, require_eq_ok, return_ok, Prod.exists] at h
  obtain ⟨_, -, body, -, _, ⟨_, -, rfl⟩, c', row', hrow, _, -, _, -, h⟩ := h
  split at h
  next => simp [bind_eq_ok] at h
  next =>
    simp only [bind_eq_ok, require_eq_ok] at h
    obtain ⟨_, -, _, hstate, _, -, binding', hbinding, placement', htrusted, _, hplacement, rfl, rfl,
      rfl, rfl, rfl⟩ := h
    exact ⟨rfl, hbinding, htrusted, hstate, hplacement, _, _, hrow⟩

/-- The resume passes its checks and goes on to write to the task of its checkpoint. -/
def State.Resumes (env : Env) (s : State) (r : ResumeRequest) (t : TaskId) : Prop :=
  ∃ c row binding placement epoch,
    s.resumeChecks env r = .ok (.proceed c row binding placement epoch) ∧ row.taskId = t

/-- The labels of a resume: background work, and the lifting, the claim and the attempt of the task
of its checkpoint. -/
def resumeLabels (env : Env) (s : State) (r : ResumeRequest) (t : TaskId) (l : Label) : Prop :=
  l.Background ∨ ((l = .lift ∨ l = .start ∨ l = .bind) ∧ s.Resumes env r t)

/-- The first commit leaves a binding without external work. -/
theorem State.resumeReset_evolves (hl : A t .lift) (hbinding : s.executionBinding t = .ok binding)
    (h : s.resumeReset env t binding epoch = .ok s') :
    Evolves env.now A s s' ∧ ¬(s'.view t).unresolved := by
  unfold resumeReset at h
  split at h
  next =>
    simp only [resetExecutionAttempt, bind_eq_ok, return_ok] at h
    obtain ⟨selected, hselected, rfl⟩ := h
    exact ⟨.liftBinding hl (effectiveExecutionTarget_selects hselected), View.not_unresolved_iff.mpr
      (s.binding_reset t selected epoch env.now).1.resolved⟩
  next hnone =>
    cases h
    obtain rfl : binding = none := by simpa using hnone
    exact ⟨.refl _, fun hu => by simpa [unresolvedExternal] using
      (unresolvedExternal_iff hbinding).mpr hu⟩

theorem Evolves.markResumed (c : CheckpointId) (a : AttemptId) : Evolves now A s (s.markResumed c a) :=
  Records.evolves rfl

/-- The attempt and the checkpoint of a claimed resume. -/
theorem State.resumeClaimed_evolves {task : Task} (hl : A row.taskId .bind)
    (htask : Started s row.taskId task) (hepoch : epoch ≤ s.currentRuntimeEpoch)
    (hplacement : ∀ p ∈ placement, p.External) :
    Evolves env.now A s (s.resumeClaimed env c row task placement epoch).1 := by
  unfold resumeClaimed
  split
  next => exact .refl _
  next started hstarted =>
    have hstart : Evolves env.now A s started :=
      startAttempt_evolves hl htask hepoch hplacement hstarted
    dsimp only
    split <;> exact hstart.trans (.markResumed c _)

/-- A resume after its checks, however far it gets: the binding is lifted, and the claim and the
attempt follow. -/
theorem Inv.resumeProceed (hi : Inv s) (hbinding : s.executionBinding row.taskId = .ok binding)
    (hplacement : ∀ p ∈ placement, p.External) :
    ∃ lifted, Evolves env.now (fun t l => t = row.taskId ∧ l = .lift) s lifted ∧
      Evolves env.now (grantLabels row.taskId) lifted
        (s.resumeProceed env c row binding placement s.currentRuntimeEpoch).1 := by
  unfold State.resumeProceed
  split
  next => exact ⟨s, .refl s, .refl s⟩
  next reset hreset =>
    obtain ⟨hlifted, hres⟩ := resumeReset_evolves
      (A := fun t l => t = row.taskId ∧ l = .lift) ⟨rfl, rfl⟩ hbinding hreset
    have hi₁ := hlifted.inv hi
    refine ⟨reset, hlifted, ?_⟩
    split
    next => exact .refl _
    next claimed task hclaim =>
      have hclaimed : Evolves env.now (grantLabels row.taskId) reset claimed :=
        (hi₁.claimTask (fun _ => hres) hclaim).mono fun _ _ => claimLabels.grant
      split
      next => exact hclaimed
      next hrunning =>
        exact hclaimed.trans (resumeClaimed_evolves (.inr ⟨rfl, .inr rfl⟩)
          (hi₁.claimTask_started hclaim (by simpa using hrunning))
          (hlifted.grow.epoch.trans hclaimed.grow.epoch) hplacement)

/-- A resume does nothing, or lifts the binding of the task of its checkpoint before anything
else. -/
theorem Inv.resumeAttempt_lifts (hi : Inv s) (env : Env) (r : ResumeRequest) :
    (s.resumeAttempt env r).1 = s ∨ ∃ t lifted, s.Resumes env r t ∧
      Evolves env.now (fun t' l => t' = t ∧ l = .lift) s lifted ∧
      Evolves env.now (grantLabels t) lifted (s.resumeAttempt env r).1 := by
  unfold resumeAttempt
  split
  next => exact .inl rfl
  next => exact .inl rfl
  next c row binding placement epoch hchecks =>
    obtain ⟨rfl, hbinding, hplacement, -⟩ := resumeChecks_proceed hchecks
    obtain ⟨lifted, hlift, hgrant⟩ :=
      hi.resumeProceed (c := c) hbinding (Access.placement_external hplacement)
    exact .inr ⟨row.taskId, lifted, ⟨c, row, binding, placement, _, hchecks, rfl⟩, hlift, hgrant⟩

theorem Inv.resumeAttempt (hi : Inv s) :
    Evolves env.now (resumeLabels env s r) s (s.resumeAttempt env r).1 := by
  rcases hi.resumeAttempt_lifts env r with hsame | ⟨t, lifted, hr, hlift, hgrant⟩
  · rw [hsame]
    exact .refl s
  · refine (hlift.mono ?_).trans (hgrant.mono ?_)
    · rintro _ _ ⟨rfl, rfl⟩
      exact .inr ⟨.inl rfl, hr⟩
    · rintro _ _ (hl | ⟨rfl, hl⟩)
      · exact .inl hl
      · exact .inr ⟨.inr hl, hr⟩

/-- The claim of a resume has committed; its attempt may still be refused. -/
inductive ResumeClaims (env : Env) (s : State) (r : ResumeRequest) (t : TaskId) (claimed : State)
    (task : Task) : Prop
  | intro {c : CheckpointId} {row : RecoveryCheckpoint} {binding : Option BindingView}
      {placement : Option Placement} {epoch : Nat} {reset : State}
      (hchecks : s.resumeChecks env r = .ok (.proceed c row binding placement epoch))
      (htask : row.taskId = t)
      (hreset : s.resumeReset env t binding epoch = .ok reset)
      (hclaim : reset.claimTask env t row.executorId env.newLease epoch true = .ok (claimed, task))
      (hrunning : task.status = .running)

/-- After its claim a resume only inserts the attempt and marks the checkpoint. -/
theorem ResumeClaims.evolves {claimed : State} {task : Task} (hi : Inv s)
    (h : ResumeClaims env s r t claimed task) :
    Evolves env.now (fun t' l => t' = t ∧ l = .bind) claimed (s.resumeAttempt env r).1 := by
  obtain ⟨hchecks, rfl, hreset, hclaim, hrunning⟩ := h
  obtain ⟨rfl, hbinding, hplacement, -⟩ := resumeChecks_proceed hchecks
  obtain ⟨hlifted, hres⟩ :=
    resumeReset_evolves (A := fun _ _ => True) trivial hbinding hreset
  have hclaimed := (hlifted.inv hi).claimTask (fun _ => hres) hclaim
  simp only [resumeAttempt, hchecks, resumeProceed, hreset, hclaim]
  rw [if_neg (by simp [hrunning])]
  exact resumeClaimed_evolves ⟨rfl, rfl⟩
    ((hlifted.inv hi).claimTask_started hclaim hrunning)
    (hlifted.grow.epoch.trans hclaimed.grow.epoch) (Access.placement_external hplacement)

end WorkspaceRuntime
