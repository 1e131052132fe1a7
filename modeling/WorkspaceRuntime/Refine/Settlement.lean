import WorkspaceRuntime.Refine.Lease

/-!
# Settlement, failure and heartbeat

What the three commands of a worker on its attempt have checked when they write, and the step that
they are for the task.
-/

namespace WorkspaceRuntime

open Fallible State

variable {env : Env} {now : Time} {s s' : State} {t p : TaskId} {row task : Task} {lease : LeaseId}
  {a : AttemptId} {w : Settlement} {fence : Int} {failure : Json} {r : AttemptRequest}
  {progress : Except Err Unit}

/-- The labels of a settlement or a failure: background work, and the end of the task. -/
def finishLabels (target t : TaskId) (l : Label) : Prop :=
  l.Background ∨ (t = target ∧ l = .finish)

/-- The labels of a heartbeat. -/
def extendLabels (target t : TaskId) (l : Label) : Prop := t = target ∧ l = .extend

/-! ## The transitions of a task -/

/-- A settlement stores its outputs before it writes its result. -/
theorem State.published_publishOutputs (hrow : s.tasks.lookup t = some task) :
    (s.publishOutputs ((s.runs.lookup task.runId).bind (·.projectId)) w.staged).Published t
      (some w.resultJson) := by
  refine ⟨w.staged, by simp [Settlement.resultJson], fun o ho => ⟨?_, fun p hp => ?_⟩⟩
  · exact List.mem_append_right _ (List.mem_map_of_mem ho)
  · obtain ⟨row, hrow', hrun⟩ := Option.bind_eq_some_iff.mp hp
    obtain rfl := Option.mem_unique hrow hrow'
    obtain ⟨run, hr, hproj⟩ := Option.map_eq_some_iff.mp hrun
    have hproject : (s.runs.lookup task.runId).bind (·.projectId) = some p := by
      rw [show s.runs.lookup task.runId = some run from hr]
      exact hproj
    refine List.mem_append_right _ ?_
    rw [hproject]
    simpa using ⟨o, ho, rfl⟩

/-- The state that the rows of a settlement leave, before the refresh of its continuations. -/
def State.settledRows (s : State) (t : TaskId) (task : Task) (lease : LeaseId) (a : AttemptId)
    (w : Settlement) (now : Time) : State :=
  (s.publishOutputs ((s.runs.lookup task.runId).bind (·.projectId)) w.staged).completeTaskRows t task
    lease a w.resultJson now

/-- What a settlement has checked, and the states it goes through. -/
structure Settles (s : State) (t : TaskId) (lease : LeaseId) (fence : Int) (a : AttemptId)
    (w : Settlement) (now : Time) (task : Task) (s' : State) : Prop where
  leased : Leased s t task lease now
  fence : fence = task.leaseFence
  children : s.delegatedChildrenCompleted t a = .ok ()
  refreshed : (s.settledRows t task lease a w now).refreshContinuationsForPredecessor t now = .ok s'

theorem State.settleTask_ok (h : s.settleTask t lease fence a w now = .ok s') :
    ∃ task, Settles s t lease fence a w now task s' := by
  simp only [settleTask, bind_eq_ok, return_ok] at h
  obtain ⟨task, hlease, _, -, _, -, _, -, _, -, _, hchildren, _, -, _, -, refreshed, hrefresh, _, -,
    rfl⟩ := h
  obtain ⟨hleased, hfence⟩ := checkTaskLease_ok hlease
  exact ⟨task, hleased, hfence, hchildren, hrefresh⟩

theorem Leased.settledRows (h : Leased s t task lease now) (hattempt : task.attemptId = some a) :
    Evolves now (finishLabels t) s (s.settledRows t task lease a w now) := by
  have hpub : Evolves now (finishLabels t) s
      (s.publishOutputs ((s.runs.lookup task.runId).bind (·.projectId)) w.staged) :=
    .publish (fun _ => List.mem_append_left _) fun _ => List.mem_append_left _
  exact hpub.trans (.completeTaskRows (.inr ⟨rfl, rfl⟩) (fun _ _ => .inl (.inl (.inl rfl)))
    ⟨h.stored, h.running, h.live, h.lease⟩ (by simp [hattempt])
    (published_publishOutputs h.stored))

theorem Inv.settles (hi : Inv s) (h : Settles s t lease fence a w now task s')
    (hattempt : task.attemptId = some a) :
    Evolves now (finishLabels t) s s' :=
  hi.thenRefresh (fun _ _ hl => .inl (.inl hl)) h.refreshed (h.leased.settledRows hattempt)

/-- What a failure has checked, and the states it goes through. -/
structure Fails (s : State) (t : TaskId) (lease : LeaseId) (fence : Int) (a : AttemptId)
    (failure : Json) (now : Time) (task : Task) (contained s' : State) : Prop where
  leased : Leased s t task lease now
  fence : fence = task.leaseFence
  contains : s.containDelegatedChildren t (some a) now = .ok contained
  refreshed : (contained.failTaskRows t task lease a failure now).refreshContinuationsForPredecessor t
    now = .ok s'

theorem State.failTask_ok (h : s.failTask t lease fence a failure now = .ok s') :
    ∃ task contained, Fails s t lease fence a failure now task contained s' := by
  simp only [failTask, bind_eq_ok, return_ok] at h
  obtain ⟨task, hlease, contained, hcontained, refreshed, hrefresh, _, -, rfl⟩ := h
  obtain ⟨hleased, hfence⟩ := checkTaskLease_ok hlease
  exact ⟨task, contained, hleased, hfence, hcontained, hrefresh⟩

/-- A containment keeps the lease of its task. -/
theorem Inv.contained_leased {attempt : Option AttemptId} (hi : Inv s)
    (hleased : Leased s t task lease now)
    (h : s.containDelegatedChildren t attempt now = .ok s') :
    ∃ row, Leased s' t row lease now ∧ task.SameStage row := by
  obtain ⟨row, hrow, hstage⟩ :=
    ((hi.containDelegatedChildren h).contained_calm hi).row _ hleased.stored
  refine ⟨row, ⟨hrow, hstage.status.trans hleased.running, ?_, ?_⟩, hstage⟩
  · rw [hstage.leaseExpiresAt]
    exact hleased.live
  · rw [hstage.leaseToken]
    exact hleased.lease

theorem Inv.failedRows {contained : State} (hi : Inv s)
    (h : Fails s t lease fence a failure now task contained s') (hattempt : task.attemptId = some a) :
    Evolves now (finishLabels t) s (contained.failTaskRows t task lease a failure now) := by
  have hcont := hi.containDelegatedChildren h.contains
  obtain ⟨row, hleased, hstage⟩ := hi.contained_leased h.leased h.contains
  exact (hcont.mono fun _ _ hl => .inl hl.background).trans
    (.failTaskRows (.inr ⟨rfl, rfl⟩) (fun _ _ => .inl (.inl (.inl rfl))) hleased
      (by simp [hstage.attemptId, hattempt]))

theorem Inv.fails {contained : State} (hi : Inv s)
    (h : Fails s t lease fence a failure now task contained s') (hattempt : task.attemptId = some a) :
    Evolves now (finishLabels t) s s' :=
  hi.thenRefresh (fun _ _ hl => .inl (.inl hl)) h.refreshed (hi.failedRows h hattempt)

theorem State.statusOf_settledRows (hrow : s.tasks.lookup t = some row) :
    (s.settledRows t task lease a w now).statusOf t = some .completed := by
  have htasks : (s.settledRows t task lease a w now).tasks =
      (s.completeRow t w.resultJson now).tasks := rfl
  simp [statusOf, htasks, completeRow, hrow]

theorem State.statusOf_failTaskRows (hrow : s.tasks.lookup t = some row) :
    (s.failTaskRows t task lease a failure now).statusOf t = some .failed := by
  have htasks : (s.failTaskRows t task lease a failure now).tasks =
      (s.failRow t (.obj [("error", failure)]) now).tasks := rfl
  simp [statusOf, htasks, failRow, hrow]

/-- What a heartbeat has checked, and the state it leaves. -/
structure Extends (s : State) (t : TaskId) (lease : LeaseId) (fence : Int) (a : AttemptId)
    (deadline : Time) (now : Time) (task : Task) (s' : State) : Prop where
  leased : Leased s t task lease now
  fence : fence = task.leaseFence
  after : s' = { s.extendLease t lease deadline now with
    executors := match task.executorId with
      | some x => s.executors.modify x fun row => { row with lastSeenAt := some now }
      | none => s.executors
    attempts := s.attempts.modify a fun row => { row with leaseExpiresAt := deadline } }

theorem State.heartbeatTask_ok {seconds : Int}
    (h : s.heartbeatTask t lease fence a seconds now = .ok s') :
    ∃ task, Extends s t lease fence a (now + seconds * 1000) now task s' := by
  simp only [heartbeatTask, bind_eq_ok, return_ok] at h
  obtain ⟨_, -, task, hlease, _, -, rfl⟩ := h
  obtain ⟨hleased, hfence⟩ := checkTaskLease_ok hlease
  exact ⟨task, hleased, hfence, rfl⟩

theorem Extends.evolves {deadline : Time} (h : Extends s t lease fence a deadline now task s') :
    Evolves now (extendLabels t) s s' := by
  have hlease : Evolves now (extendLabels t) s (s.extendLease t lease deadline now) :=
    .extendLease ⟨rfl, rfl⟩ h.leased
  rw [h.after]
  cases task.executorId with
  | none =>
    exact hlease.trans (.modifyAttempt a (fun row => { row with leaseExpiresAt := deadline })
      (fun _ => ⟨rfl, rfl, rfl, rfl, rfl, id⟩) fun _ _ hne => absurd rfl hne)
  | some x =>
    exact hlease.trans ((Evolves.modifyExecutor x (fun row => { row with lastSeenAt := some now })
      fun _ => rfl).trans (.modifyAttempt a (fun row => { row with leaseExpiresAt := deadline })
        (fun _ => ⟨rfl, rfl, rfl, rfl, rfl, id⟩) fun _ _ hne => absurd rfl hne))

/-! ## The worker's commands -/

/-- What `_validate_attempt_lease` has checked of the presented attempt. -/
structure AttemptLive (s : State) (x : Attempt) (lease : LeaseBody) (now : Time) : Prop where
  unsettled : x.settled = false
  epoch : x.runtimeEpoch = s.currentRuntimeEpoch
  leaseId : x.leaseId = lease.leaseId
  fence : (x.fence : Int) = lease.fence
  live : now < x.leaseExpiresAt

theorem State.validateAttemptLease_ok {x : Attempt} {lease : LeaseBody} {u : Unit}
    (h : s.validateAttemptLease x lease now = .ok u) : AttemptLive s x lease now := by
  simp only [validateAttemptLease, bind_eq_ok, require_eq_ok] at h
  obtain ⟨_, -, _, ⟨hsettled, hepoch⟩, _, ⟨hlease, hfence⟩, hlive⟩ := h
  exact ⟨hsettled, hepoch, hlease, hfence, hlive⟩

theorem State.commandRecord_records {kind : CommandKind} {aggregate key : String}
    {request : RequestHash} {now : Time}
    (h : s.commandRecord kind aggregate key request now = .ok s') : Records s s' := by
  simp only [commandRecord, bind_eq_ok, return_ok] at h
  obtain ⟨_, -, rfl⟩ := h
  rfl

/-- The presented attempt holds its task: it is live, and the task runs under its lease and fence. -/
structure AttemptHolds (s : State) (a : AttemptId) (x : Attempt) (row : Task) (now : Time) :
    Prop where
  attempt : s.attempts.lookup a = some x
  unsettled : x.settled = false
  epoch : x.runtimeEpoch = s.currentRuntimeEpoch
  live : now < x.leaseExpiresAt
  leased : Leased s x.taskId row x.leaseId now
  fence : row.leaseFence = x.fence

theorem State.settleAttempt_ok {r : SettleRequest}
    (h : s.settleAttempt env r = .ok (s', false)) :
    ∃ x row w settled, AttemptHolds s r.attemptId x row env.now ∧
      Settles s x.taskId x.leaseId x.fence r.attemptId w env.now row settled ∧
      Records settled s' := by
  simp only [settleAttempt, presentedAttempt, bind_eq_ok, orThrow_eq_ok] at h
  obtain ⟨key, -, body, -, _, -, x, hx, _, -, replay, -, h⟩ := h
  split at h
  next => simp at h
  next =>
    simp only [bind_eq_ok, return_ok, Prod.mk.injEq, and_true] at h
    obtain ⟨_, hcheck, staged, -, settled, hsettled, recorded, hrecord, rfl⟩ := h
    simp only [checkSettlement, bind_eq_ok] at hcheck
    obtain ⟨_, hlease, -⟩ := hcheck
    have hlive := validateAttemptLease_ok hlease
    obtain ⟨row, hsettles⟩ := settleTask_ok hsettled
    refine ⟨x, row, _, settled, ⟨hx, hlive.unsettled, hlive.epoch, hlive.live, hsettles.leased, ?_⟩,
      hlive.fence ▸ hsettles, commandRecord_records hrecord⟩
    have := hlive.fence.trans hsettles.fence
    exact_mod_cast this.symm

theorem State.failAttempt_ok (h : s.failAttempt env r = .ok (s', false)) :
    ∃ x row failure contained failed, AttemptHolds s r.attemptId x row env.now ∧
      Fails s x.taskId x.leaseId x.fence r.attemptId failure env.now row contained failed ∧
      Records failed s' := by
  simp only [failAttempt, presentedAttempt, bind_eq_ok, orThrow_eq_ok, Prod.exists] at h
  obtain ⟨key, -, lease, error, reason, -, _, -, x, hx, _, -, replay, -, h⟩ := h
  split at h
  next => simp at h
  next =>
    simp only [bind_eq_ok, return_ok, Prod.mk.injEq, and_true] at h
    obtain ⟨_, hlease, _, -, failed, hfailed, recorded, hrecord, rfl⟩ := h
    have hlive := validateAttemptLease_ok hlease
    obtain ⟨row, contained, hfails⟩ := failTask_ok hfailed
    refine ⟨x, row, _, contained, failed, ⟨hx, hlive.unsettled, hlive.epoch, hlive.live,
      hfails.leased, ?_⟩, hfails, commandRecord_records hrecord⟩
    exact_mod_cast hfails.fence.symm

theorem State.heartbeatAttempt_ok (h : s.heartbeatAttempt env r progress = .ok (s', false)) :
    ∃ x row deadline extended reported, AttemptHolds s r.attemptId x row env.now ∧
      Extends s x.taskId x.leaseId x.fence r.attemptId deadline env.now row extended ∧
      (reported = extended ∨
        ∃ run payload, reported =
          extended.appendEvent run (some x.taskId) (.progress payload) env.now) ∧
      Records reported s' := by
  simp only [heartbeatAttempt, presentedAttempt, bind_eq_ok, orThrow_eq_ok,
    Prod.exists] at h
  obtain ⟨key, -, lease, seconds, report, -, _, -, _, -, x, hx, _, -, replay, -, h⟩ := h
  split at h
  next => simp at h
  next =>
    simp only [bind_eq_ok, return_ok, Prod.mk.injEq, and_true] at h
    obtain ⟨_, hlease, extended, hextended, recorded, hrecord, rfl⟩ := h
    have hlive := validateAttemptLease_ok hlease
    obtain ⟨row, hext⟩ := heartbeatTask_ok hextended
    refine ⟨x, row, _, extended, _, ⟨hx, hlive.unsettled, hlive.epoch, hlive.live, hext.leased, ?_⟩,
      hext, ?_, commandRecord_records hrecord⟩
    · exact_mod_cast hext.fence.symm
    · cases report with
      | none => exact .inl rfl
      | some payload => exact .inr ⟨_, payload, rfl⟩

/-- The row of a running task names the attempt that holds it. -/
theorem Inv.attempt_current {x : Attempt} (hi : Inv s) (h : AttemptHolds s a x row now) :
    row.attemptId = some a := by
  have hwf := (hi.view x.taskId).row row h.leased.stored
  exact hwf.grant_current h.leased.running a x.grant (by simp [State.view, h.attempt]) h.fence.symm

theorem Inv.settleAttempt {r : SettleRequest} (hi : Inv s)
    (h : s.settleAttempt env r = .ok (s', false)) :
    ∃ x row, AttemptHolds s r.attemptId x row env.now ∧
      Evolves env.now (finishLabels x.taskId) s s' := by
  obtain ⟨x, row, w, settled, hholds, hsettles, hrecords⟩ := settleAttempt_ok h
  exact ⟨x, row, hholds, (hi.settles hsettles (hi.attempt_current hholds)).trans hrecords.evolves⟩

theorem Inv.failAttempt (hi : Inv s) (h : s.failAttempt env r = .ok (s', false)) :
    ∃ x row, AttemptHolds s r.attemptId x row env.now ∧
      Evolves env.now (finishLabels x.taskId) s s' := by
  obtain ⟨x, row, failure, contained, failed, hholds, hfails, hrecords⟩ := failAttempt_ok h
  exact ⟨x, row, hholds, (hi.fails hfails (hi.attempt_current hholds)).trans hrecords.evolves⟩

theorem State.heartbeatAttempt_evolves (h : s.heartbeatAttempt env r progress = .ok (s', false)) :
    ∃ x row, AttemptHolds s r.attemptId x row env.now ∧
      Evolves env.now (extendLabels x.taskId) s s' := by
  obtain ⟨x, row, deadline, extended, reported, hholds, hext, hreported, hrecords⟩ :=
    heartbeatAttempt_ok h
  have hreport : Evolves env.now (extendLabels x.taskId) extended reported := by
    rcases hreported with rfl | ⟨run, payload, rfl⟩
    · exact .refl _
    · exact .appendEvent ..
  exact ⟨x, row, hholds, (hext.evolves.trans hreport).trans hrecords.evolves⟩

/-- What is recorded of a command is not about a task. -/
theorem Records.view (h : Records s s') (t : TaskId) : s'.view t = s.view t :=
  show s'.core.view t = s.core.view t by rw [h]

theorem Records.statusOf (h : Records s s') (t : TaskId) : s'.statusOf t = s.statusOf t :=
  congrArg (Option.map fun row : Task => row.status) (congrArg View.row (h.view t))

theorem Records.awake (h : Records s s') (hawake : s.Awake p) : s'.Awake p := by
  have hdep : ∀ t i, s'.dependencies.lookup (t, i) = s.dependencies.lookup (t, i) := fun t i =>
    congrFun (congrArg View.dep (h.view t)) i
  intro t i hp hready
  rw [show s'.admissions.lookup t = s.admissions.lookup t from congrArg View.admission (h.view t)]
  refine hawake t i (hdep t i ▸ hp) ⟨h.statusOf t ▸ hready.queued, fun j q hq => ?_⟩
  rw [← h.statusOf q]
  exact hready.done j q ((hdep t j).trans hq)

/-- The continuations of a task that a settlement completes are awake. -/
theorem Inv.settleAttempt_awake {r : SettleRequest} (hi : Inv s)
    (h : s.settleAttempt env r = .ok (s', false)) (hopen : s.statusOf p ≠ some .completed)
    (hdone : s'.statusOf p = some .completed) : s'.Awake p := by
  obtain ⟨x, row, w, settled, hholds, hsettles, hrecords⟩ := settleAttempt_ok h
  have hattempt := hi.attempt_current hholds
  by_cases hp : p = x.taskId
  · subst hp
    exact hrecords.awake (((hsettles.leased.settledRows hattempt).inv hi).refreshContinuations_awake
      hsettles.refreshed)
  · have hev : Evolves env.now (finishLabels x.taskId) s s' :=
      (hi.settles hsettles hattempt).trans hrecords.evolves
    exact absurd (hev.completed_of (by simp [finishLabels, Label.Background, Label.Quiet, hp]) hdone)
      hopen

/-- A settlement completes its task. -/
theorem Inv.settleAttempt_completed {r : SettleRequest} (hi : Inv s)
    (h : s.settleAttempt env r = .ok (s', false)) :
    ∃ x row, AttemptHolds s r.attemptId x row env.now ∧
      s.delegatedChildrenCompleted x.taskId r.attemptId = .ok () ∧
      s'.statusOf x.taskId = some .completed := by
  obtain ⟨x, row, w, settled, hholds, hsettles, hrecords⟩ := settleAttempt_ok h
  have hrows := (hsettles.leased.settledRows (w := w) (hi.attempt_current hholds)).inv hi
  refine ⟨x, row, hholds, hsettles.children, ?_⟩
  rw [hrecords.statusOf, (hrows.refreshContinuations hsettles.refreshed).quiet_statusOf]
  exact statusOf_settledRows hholds.leased.stored

/-- A failure completes no task. -/
theorem Inv.failAttempt_completed (hi : Inv s) (h : s.failAttempt env r = .ok (s', false))
    (hdone : s'.statusOf p = some .completed) :
    s.statusOf p = some .completed := by
  obtain ⟨x, row, failure, contained, failed, hholds, hfails, hrecords⟩ := failAttempt_ok h
  have hev : Evolves env.now (finishLabels x.taskId) s s' :=
    (hi.fails hfails (hi.attempt_current hholds)).trans hrecords.evolves
  by_cases hp : p = x.taskId
  · subst hp
    obtain ⟨row', hleased, -⟩ := hi.contained_leased hfails.leased hfails.contains
    have hrows := (hi.failedRows hfails (hi.attempt_current hholds)).inv hi
    rw [hrecords.statusOf, (hrows.refreshContinuations hfails.refreshed).quiet_statusOf,
      statusOf_failTaskRows hleased.stored] at hdone
    simp at hdone
  · exact hev.completed_of (by simp [finishLabels, Label.Background, Label.Quiet, hp]) hdone

/-- A replay writes nothing. -/
theorem State.settleAttempt_replay {r : SettleRequest}
    (h : s.settleAttempt env r = .ok (s', true)) : s' = s := by
  simp only [settleAttempt, bind_eq_ok] at h
  obtain ⟨_, -, _, -, _, -, _, -, _, -, replay, -, h⟩ := h
  split at h
  next => simpa using h.symm
  next => simp [bind_eq_ok] at h

theorem State.failAttempt_replay (h : s.failAttempt env r = .ok (s', true)) : s' = s := by
  simp only [failAttempt, bind_eq_ok] at h
  obtain ⟨_, -, _, -, _, -, _, -, _, -, replay, -, h⟩ := h
  split at h
  next => simpa using h.symm
  next => simp [bind_eq_ok] at h

theorem State.heartbeatAttempt_replay (h : s.heartbeatAttempt env r progress = .ok (s', true)) :
    s' = s := by
  simp only [heartbeatAttempt, bind_eq_ok] at h
  obtain ⟨_, -, _, -, _, -, _, -, _, -, _, -, replay, -, h⟩ := h
  split at h
  next => simpa using h.symm
  next => simp [bind_eq_ok] at h

end WorkspaceRuntime
