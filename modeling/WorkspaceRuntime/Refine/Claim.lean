import WorkspaceRuntime.Refine.Lease

/-!
# Claims

What the chain of gates says about a task that passes it, what a claim can do to the task it names,
and what the worker's `claimNext` does with it.
-/

namespace WorkspaceRuntime

open Fallible State

variable {env : Env} {s s' : State} {t : TaskId} {row task : Task} {spec : TaskSpec}
  {executor : ExecutorId} {lease : LeaseId} {epoch : Nat} {recovery : Bool} {now : Time}
  {supplied : Int} {placement : Option Placement} {access : Access} {selected : Option BindingView}
  {body : ClaimBody} {item : TaskId × Task} {reply : ClaimReply} {key : Option String}

/-! ## The gates -/

/-- What the gates of `_claim_task` have checked of a task that may start. -/
structure ClaimGates (env : Env) (s : State) (task : Task) (spec : TaskSpec) (executor : ExecutorId)
    (x : Executor) : Prop where
  stored : s.executors.lookup executor = some x
  ready : x.ready = true
  registered : s.capabilities.lookup task.capability = none → task.capabilityDigest = none
  status : ∀ c ∈ s.capabilities.lookup task.capability, c.status = .ready
  storage : s.storagePreflight env task.capability spec.storageEstimate = .ok true
  advertised : x.hasCapabilityId task.capability = true
  live : x.live env.now = true
  digest : ∀ d ∈ task.capabilityDigest,
    (s.capabilities.lookup task.capability).map (·.definitionDigest) = some d
  descriptor : descriptorReady ((x.descriptor task.capability).getD []) = true
  facts : executionFactsMatch (spec.requiredFacts.getD noFacts)
    (descriptorFacts ((x.descriptor task.capability).getD [])) = .ok true
  concurrency : s.activeTasks executor < x.maxConcurrency
  resources : ∀ key ∈ s.requiredResourceKeys task.capability,
    key ∈ x.resourceKeys ∧ s.occupied executor key = false

theorem State.factsGate_none {x : Executor} (h : s.factsGate task spec executor x = .ok none) :
    descriptorReady ((x.descriptor task.capability).getD []) = true ∧
      executionFactsMatch (spec.requiredFacts.getD noFacts)
        (descriptorFacts ((x.descriptor task.capability).getD [])) = .ok true ∧
      s.activeTasks executor < x.maxConcurrency ∧
      ∀ key ∈ s.requiredResourceKeys task.capability,
        key ∈ x.resourceKeys ∧ s.occupied executor key = false := by
  simp only [factsGate, pure_eq_ok, gate_eq_none, bind_eq_ok] at h
  obtain ⟨hready, matched, hmatched, h⟩ := h
  have hm : matched = true := by
    by_contra hne
    simp [hne] at h
  subst hm
  have hmax : ¬x.maxConcurrency ≤ s.activeTasks executor := fun hle => by simp [hle] at h
  rw [if_neg (by simp), if_neg hmax, Except.ok.injEq, resourceGate, Option.map_eq_none_iff,
    List.find?_eq_none] at h
  refine ⟨by simpa using hready, hmatched, by omega, fun key hkey => ?_⟩
  simpa using h key hkey

theorem State.claimGate_none (h : s.claimGate env task spec executor = .ok none) :
    ∃ x, ClaimGates env s task spec executor x := by
  unfold claimGate at h
  split at h
  next => simp at h
  next x hx =>
    simp only [pure_eq_ok, gate_eq_none, bind_eq_ok] at h
    obtain ⟨hready, hreg, hstatus, stored, hstored, hst, hhas, hlive, hdigest, hfacts⟩ := h
    obtain ⟨hdesc, hfacts, hmax, hres⟩ := factsGate_none hfacts
    refine ⟨x, hx, by simpa using hready, fun hnone => ?_, fun c hc => ?_, ?_, by simpa using hhas,
      by simpa using hlive, fun d hd => ?_, hdesc, hfacts, hmax, hres⟩
    · by_contra hne
      exact hreg ⟨hnone, hne⟩
    · by_contra hne
      exact hstatus ⟨c, hc, hne⟩
    · have : stored = true := by simpa using hst
      rw [hstored, this]
    · by_contra hne
      exact hdigest ⟨d, hd, hne⟩

/-- The gates give no reason that marks external work. -/
theorem State.claimGate_ne {reason : Option WaitingReason}
    (h : s.claimGate env task spec executor = .ok reason) :
    reason ≠ some .providerStateUnknown := by
  rintro rfl
  unfold claimGate at h
  split at h
  next => simp at h
  next x hx =>
    simp only [pure_eq_ok, gate_eq_some, bind_eq_ok, reduceCtorEq, and_false, false_or] at h
    obtain ⟨-, -, -, stored, -, -, -, -, -, h⟩ := h
    simp only [factsGate, pure_eq_ok, gate_eq_some, bind_eq_ok, reduceCtorEq, and_false,
      false_or] at h
    obtain ⟨-, matched, -, h⟩ := h
    split_ifs at h
    all_goals simp [resourceGate, waitingForResource] at h

/-! ## The claim of one task -/

/-- The task is claimable: queued, or a stop that a resume may take over. -/
def Claimable (task : Task) (recovery : Bool) : Prop :=
  task.status = .queued ∨ (recovery = true ∧ task.unknown = true ∧ task.status = .cancelRequested)

/-- What the claim of one task does: nothing, the dependency stage alone, a waiting reason, or the
start. -/
inductive Claims (env : Env) (s : State) (t : TaskId) (executor : ExecutorId) (lease : LeaseId)
    (epoch : Nat) (recovery : Bool) (s' : State) : Prop
  | marked {task : Task} (hrow : s.tasks.lookup t = some task) (hclaim : Claimable task recovery)
      (hunknown : task.unknown = true) (hrec : recovery = false) (h : s' = s)
  | waits {task : Task} (hrow : s.tasks.lookup t = some task) (hclaim : Claimable task recovery)
      (hmark : task.unknown = true → recovery = true)
      (htried : s.claimDependencies t env.now = .ok s')
      (hdeps : s'.continuationRows t ≠ []) (hnone : s'.admissions.lookup t = none)
  | refused {task : Task} {tried : State} {spec : TaskSpec} {reason : WaitingReason} {row : Task}
      (hrow : s.tasks.lookup t = some task) (hclaim : Claimable task recovery)
      (hmark : task.unknown = true → recovery = true)
      (htried : s.claimDependencies t env.now = .ok tried)
      (hadm : tried.continuationRows t = [] ∨ tried.admissions.lookup t ≠ none)
      (hrow' : tried.tasks.lookup t = some row) (hspec : tried.loadSpec row.spec = .ok spec)
      (hgate : tried.claimGate env row spec executor = .ok (some reason))
      (h : s' = tried.setWaitingReason t (some reason) env.now)
  | starts {task : Task} {tried : State} {spec : TaskSpec} {x : Executor} {row : Task}
      (hrow : s.tasks.lookup t = some task) (hclaim : Claimable task recovery)
      (hmark : task.unknown = true → recovery = true)
      (htried : s.claimDependencies t env.now = .ok tried)
      (hadm : tried.continuationRows t = [] ∨ tried.admissions.lookup t ≠ none)
      (hrow' : tried.tasks.lookup t = some row) (hspec : tried.loadSpec row.spec = .ok spec)
      (hgate : tried.claimGate env row spec executor = .ok none)
      (hgates : ClaimGates env tried row spec executor x)
      (h : s' = tried.startClaim t row spec executor x lease epoch env.now)

theorem State.claimReaped_ok (h : s.claimReaped env t executor lease epoch recovery = .ok (s', row)) :
    Claims env s t executor lease epoch recovery s' ∧ s'.tasks.lookup t = some row := by
  simp only [claimReaped, bind_eq_ok, orThrow_eq_ok, require_eq_ok] at h
  obtain ⟨task, hrow, _, hclaim, h⟩ := h
  split at h
  next hmarked =>
    simp only [bind_eq_ok, return_ok, Prod.mk.injEq] at h
    obtain ⟨_, hget, rfl, rfl⟩ := h
    exact ⟨.marked hrow hclaim hmarked.1 (by simpa using hmarked.2) rfl, getTask_ok hget⟩
  next hmark =>
    have hmark : task.unknown = true → recovery = true := by
      intro hu
      by_contra hrec
      exact hmark ⟨hu, hrec⟩
    simp only [bind_eq_ok] at h
    obtain ⟨tried, htried, h⟩ := h
    split at h
    next hwait =>
      simp only [bind_eq_ok, return_ok, Prod.mk.injEq] at h
      obtain ⟨_, hget, rfl, rfl⟩ := h
      exact ⟨.waits hrow hclaim hmark htried hwait.1 hwait.2, getTask_ok hget⟩
    next hadm =>
      have hadm : tried.continuationRows t = [] ∨ tried.admissions.lookup t ≠ none := by
        by_contra hboth
        exact hadm (by simpa [not_or] using hboth)
      simp only [claimAdmitted, bind_eq_ok, orThrow_eq_ok, return_ok,
        Prod.mk.injEq] at h
      obtain ⟨row₁, hrow₁, spec, hspec, run, -, _, -, gate, hgate, _, hget, rfl, rfl⟩ := h
      refine ⟨?_, getTask_ok hget⟩
      cases gate with
      | none =>
        obtain ⟨x, hgates⟩ := claimGate_none hgate
        refine .starts hrow hclaim hmark htried hadm hrow₁ hspec hgate hgates ?_
        simp [claimDecided, hgates.stored]
      | some reason => exact .refused hrow hclaim hmark htried hadm hrow₁ hspec hgate rfl

theorem Inv.claimDependencies (hi : Inv s) (h : s.claimDependencies t now = .ok s') :
    Evolves now quietLabels s s' := by
  unfold State.claimDependencies at h
  split at h
  next => exact hi.admitContinuation h
  next =>
    cases h
    exact .refl _

/-- The labels of a claim: background work, and the start of the task. -/
def claimLabels (target t : TaskId) (l : Label) : Prop := l.Background ∨ (t = target ∧ l = .start)

/-- A task that is not marked, or that a resume has reset, has no external work when it is claimed. -/
theorem Inv.claimable_resolved (hi : Inv s) (hrow : s.tasks.lookup t = some task)
    (hclaim : Claimable task recovery) (hmark : task.unknown = true → recovery = true)
    (hreset : recovery = true → ¬(s.view t).unresolved) : ¬(s.view t).unresolved := by
  intro hu
  rcases hclaim with hq | ⟨hrec, -⟩
  · exact hreset (hmark (((hi.view t).row task hrow).queued_marked hq hu)) hu
  · exact hreset hrec hu

theorem Inv.claims (hi : Inv s) (hreset : recovery = true → ¬(s.view t).unresolved)
    (h : Claims env s t executor lease epoch recovery s') :
    Evolves env.now (claimLabels t) s s' := by
  have hquiet : ∀ {tried}, s.claimDependencies t env.now = .ok tried →
      Evolves env.now (claimLabels t) s tried := fun htried =>
    (hi.claimDependencies htried).mono fun _ _ hl => .inl (.inl hl)
  cases h with
  | marked _ _ _ _ h =>
    subst h
    exact .refl _
  | waits _ _ _ htried _ _ => exact hquiet htried
  | @refused _ tried _ reason row hrow hclaim hmark htried _ hrow' _ hgate h =>
    subst h
    have hcalm := ((hi.claimDependencies htried).path t).calm fun _ hl => hl
    have hres := hi.claimable_resolved hrow hclaim hmark hreset
    refine (hquiet htried).trans (.setWaitingReason (.inl (.inl (.inl rfl))) (fun _ _ _ hu => ?_)
      (claimGate_ne hgate))
    exact hres (hcalm.unresolved.mp hu)
  | @starts task tried _ x row hrow hclaim hmark htried hadm hrow' hspec _ hgates h =>
    subst h
    have hev := hi.claimDependencies htried
    have hcalm := (hev.path t).calm fun _ hl => hl
    have hres := hi.claimable_resolved hrow hclaim hmark hreset
    have hstatus : row.status = .queued ∨ row.status = .cancelRequested := by
      obtain ⟨row₁, hrow₁, hstage⟩ := hcalm.row task hrow
      obtain rfl := View.row_eq hrow₁ hrow'
      rw [hstage.status]
      exact hclaim.imp id fun h => h.2.2
    refine (hquiet htried).trans (.startClaim (.inr ⟨rfl, rfl⟩) ⟨hrow', hstatus, fun hu => ?_, ?_,
      fun k hk => (hgates.resources k hk).2⟩ hspec)
    · exact hres (hcalm.unresolved.mp hu)
    · intro hnone
      have hempty : tried.continuationRows t = [] := hadm.resolve_right (fun h => h hnone)
      rcases (hev.inv hi).predecessors t with ⟨-, hdeps⟩ | ⟨p, q, rp, rq, hpred⟩
      · exact hdeps
      · rw [hpred.rows] at hempty
        cases hempty

/-- `_claim_task`: the reaping, and then the claim of the task as the reaping left it. -/
theorem State.claimTask_ok (h : s.claimTask env t executor lease supplied recovery = .ok (s', row)) :
    supplied = s.currentRuntimeEpoch ∧ ∃ reaped, s.reapExpiredLeases env.now = .ok reaped ∧
      Claims env reaped t executor lease s.currentRuntimeEpoch recovery s' ∧
      s'.tasks.lookup t = some row := by
  simp only [claimTask, validateRuntimeEpoch, bind_eq_ok, require_eq_ok, return_ok] at h
  obtain ⟨_, -, _, ⟨_, hepoch, rfl⟩, reaped, hreaped, h⟩ := h
  exact ⟨hepoch, reaped, hreaped, claimReaped_ok h⟩

theorem Inv.claimTask (hi : Inv s) (hreset : recovery = true → ¬(s.view t).unresolved)
    (h : s.claimTask env t executor lease supplied recovery = .ok (s', row)) :
    Evolves env.now (claimLabels t) s s' := by
  obtain ⟨-, reaped, hreaped, hclaims, -⟩ := claimTask_ok h
  have hreap := hi.reapExpiredLeases hreaped
  refine (hreap.mono fun _ _ hl => .inl hl).trans ((hreap.inv hi).claims (fun hrec hu => ?_) hclaims)
  exact hreset hrec ((hreap.path t).unresolved_of (fun h => h.ne.2.2.2.2.2.2.2.2.2.1 rfl)
    (fun h => h.ne.2.2.2.2.2.2.2.2.2.2.1 rfl) (fun _ h => h.ne.2.2.1 _ rfl) hu)

/-- A claim that leaves its task running has started it. -/
theorem Claims.started (hi : Inv s) (h : Claims env s t executor lease epoch recovery s')
    (hrow : s'.tasks.lookup t = some row) (hrunning : row.status = .running) :
    ∃ tried task spec x, s.claimDependencies t env.now = .ok tried ∧
      tried.tasks.lookup t = some task ∧ tried.loadSpec task.spec = .ok spec ∧
      ClaimGates env tried task spec executor x ∧
      s' = tried.startClaim t task spec executor x lease epoch env.now := by
  have hstill : ∀ {task tried}, Claimable task recovery → s.tasks.lookup t = some task →
      s.claimDependencies t env.now = .ok tried → ∀ row, tried.tasks.lookup t = some row →
      row.status ≠ .running := by
    intro task tried hclaim htask htried row hrow hrun
    have hcalm := ((hi.claimDependencies htried).path t).calm fun _ hl => hl
    obtain ⟨row', hrow', hstage⟩ := hcalm.row task htask
    obtain rfl := View.row_eq hrow' hrow
    rw [hstage.status] at hrun
    rcases hclaim with hq | ⟨-, -, hc⟩ <;> simp_all
  cases h with
  | @marked task htask hclaim _ _ h =>
    subst h
    obtain rfl := Option.mem_unique htask hrow
    rcases hclaim with hq | ⟨-, -, hc⟩ <;> simp_all
  | waits htask hclaim _ htried _ _ => exact absurd hrunning (hstill hclaim htask htried row hrow)
  | @refused task tried spec reason row₁ htask hclaim hmark htried hadm hrow' hspec hgate h =>
    subst h
    have hsame : row.status = row₁.status := by
      simp only [setWaitingReason, Table.lookup_modify_self, hrow', Option.map_some,
        Option.some.injEq] at hrow
      rw [← hrow]
      split <;> rfl
    exact absurd (hsame ▸ hrunning) (hstill hclaim htask htried row₁ hrow')
  | @starts task tried spec x row₁ htask hclaim hmark htried hadm hrow' hspec hgate hgates h =>
    exact ⟨tried, row₁, spec, x, htried, hrow', hspec, hgates, h⟩

/-- The task runs under a fence that none of its attempts has. -/
structure Started (s : State) (t : TaskId) (task : Task) : Prop where
  stored : s.tasks.lookup t = some task
  running : task.status = .running
  fresh : ∀ a g, (s.view t).grant a = some g → g.fence < task.leaseFence

/-- A claim advances the fence, so that the attempts before it have lower ones. -/
theorem Inv.claimTask_started (hi : Inv s)
    (h : s.claimTask env t executor lease supplied recovery = .ok (s', row))
    (hrunning : row.status = .running) : Started s' t row := by
  obtain ⟨-, reaped, hreaped, hclaims, hrow⟩ := claimTask_ok h
  have hi₁ := (hi.reapExpiredLeases hreaped).inv hi
  obtain ⟨tried, task, spec, x, htried, htask, -, -, rfl⟩ := hclaims.started hi₁ hrow hrunning
  have hi₂ := (hi₁.claimDependencies htried).inv hi₁
  refine ⟨hrow, hrunning, fun a g hg => ?_⟩
  have hgrant : (tried.view t).grant a = some g := by
    simpa only [State.view, State.startClaim_attempts] using hg
  have hle := ((hi₂.view t).row task htask).grant_le a g hgrant
  obtain ⟨sp, rfl⟩ := startClaim_row htask hrow
  exact Nat.lt_succ_of_le hle

/-! ## The attempt of a started task -/

theorem State.bindExecutionAttempt_ok {a : AttemptId} {fence : Nat} {view : Option BindingView}
    (h : s.bindExecutionAttempt t a lease fence executor epoch placement now = .ok (s', view)) :
    (s.bindings.lookup t = none ∧ s' = s) ∨ ∃ b p, s.bindings.lookup t = some b ∧
      placement = some p ∧ executionPlacementMatches b.selected p = true ∧ b.status = .prepared ∧
      s' = s.claimBinding t a lease fence executor epoch p now := by
  simp only [bindExecutionAttempt, bind_eq_ok] at h
  obtain ⟨current, hcurrent, h⟩ := h
  have hb := executionBinding_ok hcurrent
  cases current with
  | none =>
    simp only [return_ok, Prod.mk.injEq] at h
    exact .inl ⟨hb.symm, h.1.symm⟩
  | some current =>
    cases placement with
    | none => cases h
    | some p =>
      simp only [bind_eq_ok, require_eq_ok, return_ok, Prod.mk.injEq] at h
      obtain ⟨_, hmatch, _, hprepared, _, -, rfl, -⟩ := h
      exact .inr ⟨current.row, p, hb.symm, rfl, hmatch, hprepared, rfl⟩

/-- A credential attests external placements only. -/
theorem Access.placement_external (h : access.placement = .ok placement) :
    ∀ p ∈ placement, p.External := by
  rintro p ⟨⟩
  unfold Access.placement at h
  split at h
  next => simp at h
  next => simp at h
  next value _ _ =>
    split at h
    next p' hp' =>
      obtain rfl : p' = p := by simpa using h
      exact normalizeVerifiedExecutionPlacement_external hp'
    next => simp at h

theorem State.startAttempt_evolves {A : TaskId → Label → Prop} (hl : A t .bind)
    (hstarted : Started s t task) (hepoch : epoch ≤ s.currentRuntimeEpoch)
    (hplacement : ∀ p ∈ placement, p.External)
    (h : s.startAttempt env t task lease executor epoch placement = .ok s') :
    Evolves env.now A s s' := by
  simp only [startAttempt, bind_eq_ok, orThrow_eq_ok, return_ok,
    Prod.exists] at h
  obtain ⟨attempts, hins, bound, view, hbind, rfl⟩ := h
  have hfirst : Evolves env.now A s ({ s with attempts }.setAttempt t env.newAttempt) :=
    .insertAttempt (x := { taskId := t, leaseId := lease, fence := task.leaseFence
                           executorId := executor, leaseExpiresAt := task.leaseExpiresAt.getD env.now
                           runtimeEpoch := epoch }) hl hins hstarted.stored hstarted.running rfl rfl
      hstarted.fresh hepoch
  have hbound : Evolves env.now A s bound := by
    rcases bindExecutionAttempt_ok hbind with ⟨-, rfl⟩ | ⟨b, p, hb, hp, hmatch, hprepared, rfl⟩
    · exact hfirst
    · have hrow' : ({ s with attempts }.setAttempt t env.newAttempt).tasks.lookup t =
          some { task with attemptId := some env.newAttempt } := by
        simp [setAttempt, hstarted.stored]
      exact hfirst.trans
        (.claimBinding hl hrow' hstarted.running hb hprepared (hplacement p hp) hmatch)
  split
  next => exact hbound.trans (.appendEvent ..)
  next => exact hbound

/-! ## The worker's claim -/

/-- The labels of a granted claim: background work, and the start and attempt of the task. -/
def grantLabels (target t : TaskId) (l : Label) : Prop :=
  l.Background ∨ (t = target ∧ (l = .start ∨ l = .bind))

theorem claimLabels.grant {target t : TaskId} {l : Label} (h : claimLabels target t l) :
    grantLabels target t l :=
  h.imp id fun h => ⟨h.1, .inl h.2⟩

theorem State.placementGate_ne :
    s.placementGate access placement t selected ≠ some .providerStateUnknown := by
  unfold placementGate
  split
  · simp
  · split
    · split_ifs <;> simp
    · simp

theorem State.mem_of_selectTask : ∀ {l : List (TaskId × Task)},
    s.selectTask body l = .ok (some (item, selected)) → item ∈ l
  | [], h => by cases h
  | e :: l, h => by
    unfold selectTask at h
    split at h
    next => exact .tail _ (mem_of_selectTask h)
    next =>
      simp only [bind_eq_ok] at h
      obtain ⟨binding, -, request, -, h⟩ := h
      split at h
      next =>
        simp only [return_ok, Option.some.injEq, Prod.mk.injEq] at h
        exact h.1 ▸ List.mem_cons_self
      next => exact .tail _ (mem_of_selectTask h)
      next =>
        split at h
        next =>
          simp only [return_ok, Option.some.injEq, Prod.mk.injEq] at h
          exact h.1 ▸ List.mem_cons_self
        next => exact .tail _ (mem_of_selectTask h)

theorem Inv.claimSelected (hi : Inv s) (hrow : s.tasks.lookup item.1 = some item.2)
    (hqueued : item.2.status = .queued) (hepoch : epoch ≤ s.currentRuntimeEpoch)
    (hplacement : ∀ p ∈ placement, p.External)
    (h : s.claimSelected env access body epoch placement item selected = .ok (s', reply)) :
    Evolves env.now (grantLabels item.1) s s' := by
  unfold State.claimSelected at h
  dsimp only at h
  split at h
  next =>
    simp only [bind_eq_ok, return_ok, Prod.mk.injEq] at h
    obtain ⟨_, -, rfl, -⟩ := h
    exact .refl _
  next hknown =>
    split at h
    next reason hgate =>
      simp only [bind_eq_ok, return_ok, Prod.mk.injEq] at h
      obtain ⟨_, -, rfl, -⟩ := h
      refine .setWaitingReason (.inl (.inl (.inl rfl))) (fun _ _ _ hu => ?_)
        (hgate ▸ placementGate_ne)
      exact hknown (((hi.view item.1).row item.2 hrow).queued_marked hqueued hu)
    next =>
      simp only [bind_eq_ok, Prod.exists] at h
      obtain ⟨claimed, task, hclaim, h⟩ := h
      have hev := (hi.claimTask (by simp) hclaim).mono fun _ _ => claimLabels.grant
      split at h
      next =>
        simp only [return_ok, Prod.mk.injEq] at h
        exact h.1 ▸ hev
      next hrunning =>
        simp only [bind_eq_ok, return_ok, Prod.mk.injEq] at h
        obtain ⟨started, hstart, rfl, -⟩ := h
        exact hev.trans (startAttempt_evolves (.inr ⟨rfl, .inr rfl⟩)
          (hi.claimTask_started hclaim (by simpa using hrunning)) (hepoch.trans hev.grow.epoch)
          hplacement hstart)

/-- The labels of `claim_next`: of some task, those of a granted claim. -/
def claimNextLabels (_ : TaskId) (l : Label) : Prop := l.Background ∨ l = .start ∨ l = .bind

theorem grantLabels.next {target t : TaskId} {l : Label} (h : grantLabels target t l) :
    claimNextLabels t l :=
  h.imp id fun h => h.2

theorem State.sessionRecord_records {kind : CommandKind} {aggregate : String}
    {request : RequestHash} (h : s.sessionRecord kind aggregate key request now = .ok s') :
    Records s s' := by
  unfold sessionRecord at h
  split at h
  · cases h
    rfl
  · simp only [bind_eq_ok, return_ok] at h
    obtain ⟨_, -, rfl⟩ := h
    rfl

/-- A claim that is no replay: the reaping, the selection and claim, and the receipt. -/
theorem State.claimNext_ok {access : Access} {value : Json} {key : Option String} {reply : ClaimReply}
    (h : s.claimNext env access value key = .ok (s', reply)) :
    (reply = .replayed ∧ s' = s) ∨ ∃ body placement reaped claimed, claimBody value = .ok body ∧
      access.placement = .ok placement ∧ s.reapExpiredLeases env.now = .ok reaped ∧
      reaped.claimQueued env access body s.currentRuntimeEpoch placement = .ok (claimed, reply) ∧
      Records claimed s' := by
  simp only [claimNext, validateRuntimeEpoch, bind_eq_ok, require_eq_ok, pure_eq_ok,
    Except.ok.injEq] at h
  obtain ⟨body, hbody, _, -, _, -, placement, hplacement, _, ⟨_, -, rfl⟩, replay, -, h⟩ := h
  split at h
  next =>
    simp only [bind_eq_ok, Except.ok.injEq, Prod.mk.injEq] at h
    obtain ⟨_, -, hs, hreply⟩ := h
    exact .inl ⟨hreply.symm, hs.symm⟩
  next =>
    simp only [bind_eq_ok, Except.ok.injEq, Prod.mk.injEq, Prod.exists] at h
    obtain ⟨reaped, hreaped, claimed, reply', hclaim, recorded, hrecord, rfl, rfl⟩ := h
    exact .inr ⟨body, placement, reaped, claimed, hbody, hplacement, hreaped, hclaim,
      sessionRecord_records hrecord⟩

/-- A claim that was answered with an attempt. -/
theorem State.claimQueued_attempt {a : AttemptId} {fence : Nat} {deadline : Time}
    (h : s.claimQueued env access body epoch placement = .ok (s', .attempt a t lease fence deadline)) :
    ∃ item selected claimed task, item.1 = t ∧
      s.selectTask body s.queuedTasks = .ok (some (item, selected)) ∧ item.2.unknown = false ∧
      s.claimTask env t body.executorId env.newLease epoch false = .ok (claimed, task) ∧
      task.status = .running ∧
      claimed.startAttempt env t task env.newLease body.executorId epoch placement = .ok s' := by
  simp only [claimQueued, bind_eq_ok] at h
  obtain ⟨found, hfound, h⟩ := h
  split at h
  next => simp at h
  next item selected =>
    unfold claimSelected at h
    dsimp only at h
    split at h
    next => simp [bind_eq_ok] at h
    next hknown =>
      split at h
      next => simp [bind_eq_ok] at h
      next =>
        simp only [bind_eq_ok, Prod.exists] at h
        obtain ⟨claimed, task, hclaim, h⟩ := h
        split at h
        next => simp at h
        next hrunning =>
          simp only [bind_eq_ok, return_ok, Prod.mk.injEq,
            ClaimReply.attempt.injEq] at h
          obtain ⟨started, hstart, rfl, -, rfl, -⟩ := h
          exact ⟨item, selected, claimed, task, rfl, hfound, by simpa using hknown, hclaim,
            by simpa using hrunning, hstart⟩

theorem Inv.claimQueued (hi : Inv s) (hepoch : epoch ≤ s.currentRuntimeEpoch)
    (hplacement : ∀ p ∈ placement, p.External)
    (h : s.claimQueued env access body epoch placement = .ok (s', reply)) :
    Evolves env.now claimNextLabels s s' := by
  simp only [State.claimQueued, bind_eq_ok] at h
  obtain ⟨found, hfound, h⟩ := h
  split at h
  next =>
    cases h
    exact .refl _
  next item selected =>
    have hmem := List.mem_filter.mp (mem_of_selectTask hfound)
    have hrow := Table.lookup_eq_some_iff.mpr hmem.1
    exact (hi.claimSelected hrow (by simpa using hmem.2) hepoch hplacement h).mono
      fun _ _ => grantLabels.next

theorem Inv.claimNext {value : Json} (hi : Inv s)
    (h : s.claimNext env access value key = .ok (s', reply)) :
    Evolves env.now claimNextLabels s s' := by
  rcases claimNext_ok h with
    ⟨-, rfl⟩ | ⟨_, _, reaped, claimed, -, hplacement, hreaped, hclaim, hrecords⟩
  · exact .refl _
  · have hreap := hi.reapExpiredLeases hreaped
    refine (hreap.mono fun _ _ hl => .inl hl).trans (Evolves.trans ?_ hrecords.evolves)
    exact (hreap.inv hi).claimQueued hreap.grow.epoch (Access.placement_external hplacement) hclaim

end WorkspaceRuntime
