import WorkspaceRuntime.Refine.Admission
import WorkspaceRuntime.Refine.Control
import WorkspaceRuntime.Refine.Executor

/-!
# Submission, delegation, import and placement

The remaining commands of the service on tasks. A delegated child is admitted under a live parent,
which exists and is no child itself; the import that the host runs is an admission, a claim and a
settlement in one transaction; a placement recovery fences the children of its task one by one.
-/

namespace WorkspaceRuntime

open Fallible State

variable {env : Env} {now : Time} {A : TaskId → Label → Prop} {s s' : State} {t : TaskId}
  {row task : Task} {create : TaskCreation} {lineage : Option Lineage} {a : AttemptId}
  {lease : LeaseBody} {settle : SettleRequest} {children : List (TaskId × Task)}
  {r : PlacementRecoveryRequest} {decision : PlacementDecision}

/-! ## Submission -/

theorem Inv.submitTask {hostOwned : Bool} (hi : Inv s)
    (hroot : ∀ lin ∈ lineage, (s.view lin.parentTaskId).Roots lin) :
    Evolves env.now (createLabels env s lineage) s (s.submitTask env create hostOwned lineage).1 := by
  unfold State.submitTask
  split
  · exact .refl _
  · have hrooted : s.Rooted { create with spec := create.spec.submitted lineage }.spec := hroot
    exact hi.createTask hrooted

/-- A submission inside a transaction. -/
theorem Inv.submitInTransaction {hostOwned : Bool} {a : Admitted} (hi : Inv s)
    (hroot : ∀ lin ∈ lineage, (s.view lin.parentTaskId).Roots lin)
    (h : inTransaction (s.submitTask env create hostOwned lineage) = .ok (s', a)) :
    Evolves env.now (createLabels env s lineage) s s' := by
  obtain rfl := congrArg Prod.fst (inTransaction_eq_ok.mp h)
  exact hi.submitTask hroot

/-- What the check of a delegating parent has read. -/
structure Delegates (s : State) (a : AttemptId) (lease : LeaseBody) (now : Time) (x : Attempt)
    (parent : Task) (sp : TaskSpec) : Prop where
  attempt : s.attempts.lookup a = some x
  live : AttemptLive s x lease now
  stored : s.tasks.lookup x.taskId = some parent
  running : parent.status = .running
  current : parent.attemptId = some a
  fence : parent.leaseFence = x.fence
  spec : parent.spec = some sp
  root : sp.delegatedParent = none
  policy : sp.childDelegation ≠ none

theorem State.liveDelegatingParent_ok {access : Access} {u : Unit}
    (h : s.liveDelegatingParent access a lease now = .ok u) :
    ∃ x parent sp, Delegates s a lease now x parent sp := by
  simp only [liveDelegatingParent, presentedAttempt, bind_eq_ok, orThrow_eq_ok,
    require_eq_ok] at h
  obtain ⟨x, hx, _, hlive, parent, hparent, _, ⟨hrunning, hcurrent, -, hfence, -⟩, sp, hload, _,
    hroot, _, -, _, hpolicy, -⟩ := h
  refine ⟨x, parent, sp, hx, validateAttemptLease_ok hlive, hparent, hrunning, hcurrent, hfence,
    ?_, hroot, hpolicy⟩
  rcases (loadSpec_ok hload).2 with hnone | hsome
  · -- a retired spec has no policy
    have : sp = {} := by simpa [hnone] using (loadSpec_ok hload).1.symm
    simp [this] at hpolicy
  · exact hsome

/-- The lineage names a delegating parent. -/
structure Lineage.Under (lin : Lineage) (s : State) (a : AttemptId) (lease : LeaseBody) (now : Time)
    (x : Attempt) (parent : Task) (sp : TaskSpec) : Prop where
  delegates : Delegates s a lease now x parent sp
  task : lin.parentTaskId = x.taskId
  attempt : lin.parentAttemptId = a
  lease : lin.parentLeaseId = x.leaseId
  fence : lin.parentFence = x.fence
  epoch : lin.runtimeEpoch = x.runtimeEpoch

theorem Lineage.Under.roots {lin : Lineage} {x : Attempt} {parent : Task} {sp : TaskSpec}
    (h : lin.Under s a lease now x parent sp) :
    (s.view lin.parentTaskId).Roots lin := by
  have hdel := h.delegates
  have hrow : (s.view x.taskId).row = some parent := hdel.stored
  rw [h.task]
  refine ⟨by simp [hrow], by simp [View.lineage, hrow, hdel.spec, hdel.root], x.grant, ?_,
    h.lease.symm, h.fence.symm, h.epoch.symm⟩
  simp [view, h.attempt, hdel.attempt]

/-- The labels of the admission of a child. -/
def delegateLabels (env : Env) (s : State) (r : ChildRequest) (t : TaskId) (l : Label) : Prop :=
  ∃ lin x parent sp, lin.Under s r.parentAttemptId r.lease env.now x parent sp ∧
    createLabels env s (some lin) t l

theorem Inv.admitDelegatedChild {r : ChildRequest} {a : Admitted} (hi : Inv s)
    (h : s.admitDelegatedChild env r = .ok (s', a)) :
    Evolves env.now (delegateLabels env s r) s s' := by
  simp only [State.admitDelegatedChild, State.presentedAttempt, bind_eq_ok, orThrow_eq_ok] at h
  obtain ⟨_, hlive, x, hx, parent, -, _, -, _, -, _, -, h⟩ := h
  obtain ⟨x', parent', sp, hdel⟩ := liveDelegatingParent_ok hlive
  obtain rfl := Option.mem_unique hx hdel.attempt
  refine (hi.submitInTransaction ?_ h).mono fun _ _ hl =>
    ⟨_, x, parent', sp, ⟨hdel, rfl, rfl, rfl, rfl, rfl⟩, hl⟩
  rintro _ ⟨rfl⟩
  exact Lineage.Under.roots ⟨hdel, rfl, rfl, rfl, rfl, rfl⟩

/-- The labels of an issued authority: the task of the attempt registers inputs. -/
def registerLabels (s : State) (a : AttemptId) (t : TaskId) (l : Label) : Prop :=
  l = .register ∧ ∃ x, s.attempts.lookup a = some x ∧ x.taskId = t

theorem Inv.issueChildAuthority {access : Access} {registered : Except Err (Json × List String)}
    (h : s.issueChildAuthority env access a lease registered = .ok s') :
    Evolves now (registerLabels s a) s s' := by
  simp only [State.issueChildAuthority, State.presentedAttempt, bind_eq_ok, orThrow_eq_ok,
    return_ok, Prod.exists] at h
  obtain ⟨_, hlive, x, hx, parent, hparent, sp, hload, registry, digests, -, _, -, rfl⟩ := h
  obtain ⟨x', parent', sp', hdel⟩ := liveDelegatingParent_ok hlive
  obtain rfl := Option.mem_unique hx hdel.attempt
  obtain rfl := Option.mem_unique hparent hdel.stored
  obtain rfl : sp' = sp := by simpa [hdel.spec] using (loadSpec_ok hload).1
  have hput : Evolves now (registerLabels s a) s
      (s.putTaskSpec x.taskId { sp' with derivedInputRegistry := some registry }) :=
    .registerInputs ⟨rfl, x, hx, rfl⟩ hparent hdel.spec
  exact hput.trans (.publish (fun _ => id) fun _ => List.mem_append_left _)

/-! ## Media import -/

/-- The labels of an import: those of an admission, a claim and a settlement. -/
def importLabels (env : Env) (s : State) (t : TaskId) (l : Label) : Prop :=
  l.Background ∨ retireLabels env s t l ∨ l = .create none ∨ l = .start ∨ l = .bind ∨ l = .finish

theorem Inv.claimMediaImportTask (hi : Inv s)
    (h : s.claimMediaImportTask env t = .ok (s', task)) : Evolves env.now (grantLabels t) s s' := by
  simp only [State.claimMediaImportTask, bind_eq_ok, orThrow_eq_ok, return_ok,
    Prod.mk.injEq, Prod.exists] at h
  obtain ⟨registered, hregistered, claimed, row, hclaim, _, hrunning, attempts, hins, rfl, rfl⟩ := h
  have hreg : Evolves env.now (grantLabels t) s registered := hi.upsertExecutor hregistered
  have hclaimed : Evolves env.now (grantLabels t) s claimed :=
    hreg.trans (((hreg.inv hi).claimTask (by simp) hclaim).mono fun _ _ => claimLabels.grant)
  have hstarted := (hreg.inv hi).claimTask_started hclaim (require_eq_ok.mp hrunning).1
  exact hclaimed.trans (.insertAttempt
    (x := { taskId := t, leaseId := env.newLease, fence := row.leaseFence
            executorId := mediaImportExecutor, leaseExpiresAt := row.leaseExpiresAt.getD env.now
            runtimeEpoch := s.currentRuntimeEpoch })
    (.inr ⟨rfl, .inr rfl⟩) hins hstarted.stored hstarted.running rfl rfl hstarted.fresh
    hclaimed.grow.epoch)

/-- An import claims its task and settles the attempt. -/
theorem Inv.settleMediaImport_ok (hi : Inv s) (h : s.settleMediaImport env create settle = .ok s') :
    ∃ claimed r replayed, Evolves env.now (fun t l => importLabels env s t l ∧ l ≠ .finish) s claimed ∧
      claimed.settleAttempt env r = .ok (s', replayed) := by
  simp only [settleMediaImport, bind_eq_ok, return_ok, Prod.exists] at h
  obtain ⟨created, admitted, hcreated, claimed, task, hclaimed, settled, replayed, hsettled, rfl⟩ := h
  have hcreate : Evolves env.now (fun t l => importLabels env s t l ∧ l ≠ .finish) s created :=
    (hi.submitInTransaction (by simp) hcreated).mono fun _ l hl => by
      rcases hl with hl | hl | ⟨-, rfl⟩
      · exact ⟨.inr (.inl hl), by simp [hl.1]⟩
      · exact ⟨.inl (.inl hl), (Label.Background.ne (.inl hl)).2.2.2.2.1⟩
      · exact ⟨.inr (.inr (.inl rfl)), by simp⟩
  refine ⟨claimed, _, replayed, ?_, hsettled⟩
  refine hcreate.trans (((hcreate.inv hi).claimMediaImportTask hclaimed).mono fun _ l hl => ?_)
  rcases hl with hl | ⟨-, rfl | rfl⟩
  · exact ⟨.inl hl, hl.ne.2.2.2.2.1⟩
  · exact ⟨.inr (.inr (.inr (.inl rfl))), by simp⟩
  · exact ⟨.inr (.inr (.inr (.inr (.inl rfl)))), by simp⟩

theorem Inv.settleMediaImport (hi : Inv s) (h : s.settleMediaImport env create settle = .ok s') :
    Evolves env.now (importLabels env s) s s' := by
  obtain ⟨claimed, r, replayed, hprefix, hsettled⟩ := hi.settleMediaImport_ok h
  have hclaim : Evolves env.now (importLabels env s) s claimed := hprefix.mono fun _ _ hl => hl.1
  refine hclaim.trans ?_
  cases replayed with
  | true =>
    obtain rfl := settleAttempt_replay hsettled
    exact .refl _
  | false =>
    obtain ⟨x, row, -, hsettle⟩ := (hclaim.inv hi).settleAttempt hsettled
    exact hsettle.mono fun _ l hl => hl.imp id fun h => .inr (.inr (.inr (.inr h.2)))

/-! ## Placement recovery -/

/-- The labels of a placement recovery: the children are fenced and the binding is replaced. -/
def placementLabels (s : State) (target t : TaskId) (l : Label) : Prop :=
  l = .note ∨ (l = .fence ∧ s.ChildOf target t) ∨ (t = target ∧ l = .replace)

theorem State.mem_lineageChildren {parent : TaskId} (h : s.lineageChildren parent = .ok children) :
    (children.map (·.1)).Nodup ∧
      ∀ c ∈ children, s.tasks.lookup c.1 = some c.2 ∧ s.ChildOf parent c.1 := by
  simp only [lineageChildren, bind_eq_ok, return_ok] at h
  obtain ⟨_, -, rfl⟩ := h
  refine ⟨s.tasks.nodup.sublist (List.filter_sublist.map Prod.fst), fun c hc => ?_⟩
  obtain ⟨hmem, hany⟩ := List.mem_filter.mp hc
  have hrow := Table.lookup_eq_some_iff.mpr hmem
  refine ⟨hrow, ?_⟩
  obtain ⟨lin, hlin, hparent⟩ := (Option.any_eq_true _ _).mp hany
  obtain ⟨sp, hsp, hdp⟩ := Option.bind_eq_some_iff.mp hlin
  have hspec : c.2.spec = some sp := (Option.filter_eq_some_iff.mp hsp).1
  exact ⟨lin, by simp [View.lineage, view, hrow, hspec, hdp], by simpa using hparent⟩

/-- A fenced child is queued without external work, or is left alone. -/
theorem Evolves.fenceChild {parent : TaskId} {child : TaskId × Task} (hl : A child.1 .fence)
    (hrow : s.tasks.lookup child.1 = some child.2)
    (hres : child.2.status = .queued → ¬(s.view child.1).unresolved) :
    Evolves now A s (fenceChild parent now s child) := by
  unfold State.fenceChild
  refine Evolves.trans ?_ (.appendEvent ..)
  split
  next hqueued =>
    have hrows : Evolves now A s ((s.fenceChildRow child.1 now).fenceChildBinding child.1 now) :=
      .fenceRows hl hrow hqueued (hres hqueued)
    exact hrows.trans (.setRunStatus child.2.runId .cancelled now)
  next => exact .refl _

theorem Inv.fenceChildren (hi : Inv s) (hnodup : (children.map (·.1)).Nodup)
    (hmem : ∀ c ∈ children, s.tasks.lookup c.1 = some c.2 ∧ s.ChildOf t c.1)
    (hquiet : ∀ c ∈ children, s.childQuiescent c = .ok ()) :
    Evolves now (fun t' l => l = .fence ∧ s.ChildOf t t') s
      (children.foldl (fenceChild t now) s) := by
  have hres : ∀ c ∈ children, c.2.status = .queued → ¬(s.view c.1).unresolved := by
    intro c hc hqueued hu
    have hknown : c.2.unknown = false := by
      have hok := hquiet c hc
      simp only [childQuiescent, bind_eq_ok, require_eq_ok] at hok
      obtain ⟨_, -, -, hknown, -⟩ := hok
      exact hknown
    simp [((hi.view c.1).row c.2 (hmem c hc).1).queued_marked hqueued hu] at hknown
  refine Evolves.rounds (·.1) (P := fun c s₁ => c ∈ children ∧ s₁.view c.1 = s.view c.1) hi hnodup
    (fun c hc => ⟨hc, rfl⟩) (fun {c s₁ s₂} hi₁ hpre hround => ?_) (foldlM_ok _ children s)
  obtain ⟨hc, hview⟩ := hpre
  cases hround
  have hrow : s₁.tasks.lookup c.1 = some c.2 := (congrArg View.row hview).trans (hmem c hc).1
  have hres₁ : c.2.status = .queued → ¬(s₁.view c.1).unresolved := hview ▸ hres c hc
  refine ⟨.fenceChild ⟨rfl, (hmem c hc).2⟩ hrow hres₁, fun b hne hb => ⟨hb.1, ?_⟩⟩
  have hev : Evolves now (fun t' _ => t' = c.1) s₁ (fenceChild t now s₁ c) :=
    .fenceChild rfl hrow hres₁
  rw [← hb.2]
  exact (hev.path b.1).eq_of_none fun _ => hne

/-- A recovery that found its task quiescent. -/
theorem State.assertPlacementRecoveryQuiescent_ok {u : Unit}
    (h : s.assertPlacementRecoveryQuiescent t task children = .ok u) :
    (task.status = .failed ∨ task.status = .cancelled) ∧
      ∀ c ∈ children, s.childQuiescent c = .ok () := by
  simp only [assertPlacementRecoveryQuiescent, bind_eq_ok, require_eq_ok] at h
  obtain ⟨_, hstatus, _, -, _, -, _, -, _, -, _, -, _, -, _, hchildren, -⟩ := h
  exact ⟨hstatus, fun c hc => (mem_of_mapM hchildren hc).choose_spec.1⟩

/-- A decision names the target of the admission, the one before it and one that differs from that. -/
theorem State.placementDecisionFor_ok {fields : Json.Fields}
    (h : s.placementDecisionFor env t task fields r = .ok decision) :
    (s.view t).Decides task decision := by
  simp only [placementDecisionFor, checkReplacement, bind_eq_ok, orThrow_eq_ok,
    require_eq_ok, return_ok, Prod.exists] at h
  obtain ⟨_, -, placementVersion, -, stored, hstored, request, rfl, original, -, _, horiginal, effective,
    heffective, current, rfl, _, -, _, -, _, -, _, -, replacement, hreplacement, _, hcheck, _, -, _, _,
    -, rfl⟩ := h
  obtain ⟨_, -, _, -, hmoved⟩ := hcheck
  obtain ⟨q, inputs, hq, hnormal⟩ := executionRequestFromRow_some hstored
  exact
    { version := rfl
      run := rfl
      original := ⟨q, request, inputs, hq, hnormal, horiginal.symm⟩
      previous := effectiveExecutionTarget_selects heffective current rfl
      normal := normalizeExecutionTarget_idem hreplacement
      moved := hmoved }

/-- The loop over the children leaves the task where it is: it is not its own child. -/
theorem Inv.fenceChildren_view (hi : Inv s) (hchildren : s.lineageChildren t = .ok children)
    (hquiescent : s.assertPlacementRecoveryQuiescent t task children = .ok ()) :
    Evolves now (fun t' l => l = .fence ∧ s.ChildOf t t') s
      (children.foldl (fenceChild t now) s) ∧
      (children.foldl (fenceChild t now) s).view t = s.view t := by
  obtain ⟨hnodup, hmem⟩ := mem_lineageChildren hchildren
  have hfenced : Evolves now (fun t' l => l = .fence ∧ s.ChildOf t t') s
      (children.foldl (fenceChild t now) s) :=
    hi.fenceChildren hnodup hmem (assertPlacementRecoveryQuiescent_ok hquiescent).2
  exact ⟨hfenced, (hfenced.path t).eq_of_none fun _ hl => hi.childOf_irrefl hl.2⟩

theorem Inv.recoverPlacementRows {activation : Option String} (hi : Inv s)
    (hrow : s.tasks.lookup t = some task) (hchildren : s.lineageChildren t = .ok children)
    (hquiescent : s.assertPlacementRecoveryQuiescent t task children = .ok ())
    (hd : (s.view t).Decides task decision)
    (h : s.recoverPlacementRows t task children decision activation now = .ok s') :
    Evolves now (placementLabels s t) s s' := by
  obtain ⟨hstatus, -⟩ := assertPlacementRecoveryQuiescent_ok hquiescent
  obtain ⟨hfenced, hview⟩ := hi.fenceChildren_view hchildren hquiescent
  have hrow' : (children.foldl (fenceChild t now) s).tasks.lookup t = some task :=
    (congrArg View.row hview).trans hrow
  simp only [State.recoverPlacementRows, bind_eq_ok, require_eq_ok, return_ok] at h
  obtain ⟨_, hfree, _, -, rfl⟩ := h
  have hreplaced : Evolves now (placementLabels s t) s
      ((((children.foldl (fenceChild t now) s).replaceBinding t decision.replacementTarget
        now).touchTask t now).appendEvent task.runId (some t) (.placementRecovered decision) now) :=
    (hfenced.mono fun _ _ hl => .inr (.inl hl)).trans (.replacePlacement task.runId
      (.inr (.inr ⟨rfl, rfl⟩)) (.inl rfl) hrow' hstatus hfree (hview.symm ▸ hd))
  split
  · exact hreplaced.trans (.appendEvent ..)
  · exact hreplaced

theorem Inv.recoverTaskPlacement {replayed : Bool} (hi : Inv s)
    (h : s.recoverTaskPlacement env t r = .ok (s', replayed)) :
    Evolves env.now (placementLabels s t) s s' := by
  simp only [State.recoverTaskPlacement, bind_eq_ok] at h
  obtain ⟨_, -, _, -, _, -, _, -, _, -, task, hget, replay, -, h⟩ := h
  split at h
  next =>
    cases h
    exact .refl _
  next =>
    simp only [bind_eq_ok, return_ok, Prod.mk.injEq] at h
    obtain ⟨decision, hdecision, children, hchildren, _, hquiescent, recovered, hrecovered, recorded, hrecord,
      rfl, -⟩ := h
    have hdecides := placementDecisionFor_ok hdecision
    exact (hi.recoverPlacementRows (getTask_ok hget) hchildren hquiescent hdecides
      hrecovered).trans (commandRecord_records hrecord).evolves

theorem Inv.revokeRemoteActivation {activation : String} {current : Except Err Unit} (hi : Inv s)
    (h : s.revokeRemoteActivation env t activation current = .ok s') :
    Evolves env.now (containLabels s t) s s' := by
  simp only [State.revokeRemoteActivation, bind_eq_ok] at h
  obtain ⟨_, -, task, -, h⟩ := h
  have hevent : Evolves env.now (containLabels s t) s
      (s.appendEvent task.runId (some t) (.activationRevoked activation) env.now) := .appendEvent ..
  exact hevent.trans ((hevent.inv hi).containDelegatedChildren h)

end WorkspaceRuntime
