import WorkspaceRuntime.System

/-!
# Fencing

A worker's command acts on a task only through an attempt that still holds it. Fences and epochs only
grow, and an attempt row keeps the fence and the epoch it was inserted with, so an attempt that a
later claim or a later session has overtaken never acts again.
-/

namespace WorkspaceRuntime

open Fallible State Command

variable {env : Env} {s s' : State} {c : Command} {a : AttemptId} {x : Attempt} {t : TaskId}
  {row task : Task} {lease : LeaseId} {now : Time} {A : TaskId → Label → Prop}

/-! ## The worker's commands -/

/-- The attempt that a settlement, a failure or a heartbeat presents. -/
def Command.attempt : Command → Option AttemptId
  | settleAttempt r => some r.attemptId
  | failAttempt r => some r.attemptId
  | heartbeatAttempt r _ => some r.attemptId
  | _ => none

/-- The command is a settlement or a failure. -/
def Command.ends : Command → Bool
  | settleAttempt _ | failAttempt _ => true
  | _ => false

/-- The worker's command is executed, and not answered from the ledger. -/
inductive Acts (env : Env) (s : State) (a : AttemptId) : Command → Prop
  | settles {r : SettleRequest} {s' : State} (ha : r.attemptId = a)
      (h : s.settleAttempt env r = .ok (s', false)) : Acts env s a (.settleAttempt r)
  | fails {r : AttemptRequest} {s' : State} (ha : r.attemptId = a)
      (h : s.failAttempt env r = .ok (s', false)) : Acts env s a (.failAttempt r)
  | prolongs {r : AttemptRequest} {progress : Except Err Unit} {s' : State} (ha : r.attemptId = a)
      (h : s.heartbeatAttempt env r progress = .ok (s', false)) :
      Acts env s a (.heartbeatAttempt r progress)

/-- A command that changes anything was executed: a replay and an exception leave the state. -/
theorem Acts.of_changed (ha : c.attempt = some a) (h : c.next env s ≠ s) : Acts env s a c := by
  cases c with
  | settleAttempt r =>
    cases hr : s.settleAttempt env r with
    | error e => simp [next, committed, hr] at h
    | ok out =>
      obtain ⟨s', replayed⟩ := out
      cases replayed with
      | false => exact .settles (Option.some.inj ha) hr
      | true =>
        refine absurd ?_ h
        simpa [next, committed, hr] using settleAttempt_replay hr
  | failAttempt r =>
    cases hr : s.failAttempt env r with
    | error e => simp [next, committed, hr] at h
    | ok out =>
      obtain ⟨s', replayed⟩ := out
      cases replayed with
      | false => exact .fails (Option.some.inj ha) hr
      | true =>
        refine absurd ?_ h
        simpa [next, committed, hr] using failAttempt_replay hr
  | heartbeatAttempt r progress =>
    cases hr : s.heartbeatAttempt env r progress with
    | error e => simp [next, committed, hr] at h
    | ok out =>
      obtain ⟨s', replayed⟩ := out
      cases replayed with
      | false => exact .prolongs (Option.some.inj ha) hr
      | true =>
        refine absurd ?_ h
        simpa [next, committed, hr] using heartbeatAttempt_replay hr
  | _ => simp [attempt] at ha

/-- Only an attempt that holds its task acts. -/
theorem Acts.holds (h : Acts env s a c) : ∃ x row, AttemptHolds s a x row env.now := by
  cases h with
  | settles ha h =>
    obtain ⟨x, row, _, _, hholds, -⟩ := settleAttempt_ok h
    exact ⟨x, row, ha ▸ hholds⟩
  | fails ha h =>
    obtain ⟨x, row, _, _, _, hholds, -⟩ := failAttempt_ok h
    exact ⟨x, row, ha ▸ hholds⟩
  | prolongs ha h =>
    obtain ⟨x, row, _, _, _, hholds, -⟩ := heartbeatAttempt_ok h
    exact ⟨x, row, ha ▸ hholds⟩

/-! ## Attempts that are overtaken or settled -/

/-- A later session began, or the task was claimed again. -/
def State.Overtaken (s : State) (x : Attempt) : Prop :=
  x.runtimeEpoch < s.currentRuntimeEpoch ∨
    ∃ row, s.tasks.lookup x.taskId = some row ∧ x.fence < row.leaseFence

/-- The attempt cannot act: it is settled or overtaken. -/
def State.Dead (s : State) (a : AttemptId) : Prop :=
  ∃ x, s.attempts.lookup a = some x ∧ (x.settled = true ∨ s.Overtaken x)

theorem State.Dead.not_acts (h : s.Dead a) : ¬Acts env s a c := by
  intro hacts
  obtain ⟨x', row, hholds⟩ := hacts.holds
  obtain ⟨x, hx, hdead⟩ := h
  obtain rfl := Option.mem_unique hx hholds.attempt
  rcases hdead with hsettled | hepoch | ⟨row', hrow', hfence⟩
  · simp [hholds.unsettled] at hsettled
  · exact absurd hholds.epoch hepoch.ne
  · obtain rfl := Option.mem_unique hholds.leased.stored hrow'
    exact absurd hholds.fence hfence.ne'

/-- A dead attempt stays dead. -/
theorem State.Dead.leads (h : s.Dead a) (hi : Inv s) (hrun : Leads s s') : s'.Dead a := by
  have hgrow := hrun.grow hi
  obtain ⟨x, hx, hdead⟩ := h
  obtain ⟨x', hx', hsame⟩ := hgrow.attempts a x hx
  refine ⟨x', hx', ?_⟩
  rcases hdead with hsettled | hepoch | ⟨row, hrow, hfence⟩
  · exact .inl (hsame.settled hsettled)
  · exact .inr (.inl (hsame.runtimeEpoch ▸ hepoch.trans_le hgrow.epoch))
  · obtain ⟨row', hrow', -, -, hle, -⟩ := (hrun.later hi x.taskId).row row hrow
    refine .inr (.inr ⟨row', hsame.taskId ▸ hrow', ?_⟩)
    rw [hsame.fence]
    exact hfence.trans_le hle

/-- The settlement of a task settles its attempt. -/
theorem Settles.dead {fence : Int} {w : Settlement} (hi : Inv s)
    (h : Settles s t lease fence a w now task s') (hattempt : task.attemptId = some a)
    (hx : s.attempts.lookup a = some x) : s'.Dead a := by
  have hrows := (h.leased.settledRows (w := w) hattempt).inv hi
  have hsettled : (s.settledRows t task lease a w now).attempts.lookup a =
      some { x with settled := true } := by
    show (s.attempts.modify a _).lookup a = _
    rw [Table.lookup_modify_self, hx]
    rfl
  obtain ⟨x', hx', hsame⟩ := (hrows.refreshContinuations h.refreshed).grow.attempts a _ hsettled
  exact ⟨x', hx', .inl (hsame.settled rfl)⟩

/-- The failure of a task settles its attempt. -/
theorem Fails.dead {fence : Int} {failure : Json} {contained : State} (hi : Inv s)
    (h : Fails s t lease fence a failure now task contained s') (hattempt : task.attemptId = some a)
    (hx : s.attempts.lookup a = some x) : s'.Dead a := by
  have hcont := hi.containDelegatedChildren h.contains
  obtain ⟨x₁, hx₁, -⟩ := hcont.grow.attempts a x hx
  obtain ⟨row, hleased, hstage⟩ := hi.contained_leased h.leased h.contains
  have hrows : Evolves now (finishLabels t) contained
      (contained.failTaskRows t task lease a failure now) :=
    .failTaskRows (.inr ⟨rfl, rfl⟩) (fun _ _ => .inl (.inl (.inl rfl))) hleased
      (by simp [hstage.attemptId, hattempt])
  have hsettled : (contained.failTaskRows t task lease a failure now).attempts.lookup a =
      some { x₁ with settled := true } := by
    show (contained.attempts.modify a _).lookup a = _
    rw [Table.lookup_modify_self, hx₁]
    rfl
  obtain ⟨x', hx', hsame⟩ := ((hrows.inv (hcont.inv hi)).refreshContinuations
    h.refreshed).grow.attempts a _ hsettled
  exact ⟨x', hx', .inl (hsame.settled rfl)⟩

theorem State.Dead.of_core (h : s.Dead a) (hcore : s'.core = s.core) : s'.Dead a := by
  have hdead : s.core.Dead a := h
  rw [← hcore] at hdead
  exact hdead

/-- An attempt that its worker has settled is dead. -/
theorem Acts.dead (hi : Inv s) (h : Acts env s a c) (hends : c.ends = true) : (c.next env s).Dead a := by
  cases h with
  | settles ha h =>
    subst ha
    obtain ⟨x, row, w, settled, hholds, hsettles, hrecords⟩ := settleAttempt_ok h
    simpa [next, committed, h] using
      (hsettles.dead hi (hi.attempt_current hholds) hholds.attempt).of_core hrecords
  | fails ha h =>
    subst ha
    obtain ⟨x, row, _, _, failed, hholds, hfails, hrecords⟩ := failAttempt_ok h
    simpa [next, committed, h] using
      (hfails.dead hi (hi.attempt_current hholds) hholds.attempt).of_core hrecords
  | prolongs ha h => simp [ends] at hends

/-! ## Claims and sessions -/

/-- The fence of a task was reached from the one it had. -/
theorem Evolves.fence_le (h : Evolves now A s s') (hcreate : ∀ lin, ¬A t (.create lin))
    (hrow : s'.tasks.lookup t = some task) :
    ∃ row, s.tasks.lookup t = some row ∧ row.leaseFence ≤ task.leaseFence := by
  cases hold : s.tasks.lookup t with
  | none =>
    have hnone : (s'.view t).row = none := (h.path t).row_none hcreate hold
    exact absurd (hrow.symm.trans hnone) (by simp)
  | some row =>
    obtain ⟨row', hrow', -, -, hle, -⟩ := (h.path t).later.row row hold
    obtain rfl := View.row_eq hrow' hrow
    exact ⟨row, rfl, hle⟩

/-- A claim that leaves its task running raises its fence. -/
theorem State.claimTask_fence {executor : ExecutorId} {epoch : Int} {recovery : Bool} (hi : Inv s)
    (h : s.claimTask env t executor lease epoch recovery = .ok (s', task))
    (hrunning : task.status = .running) :
    ∃ row, s.tasks.lookup t = some row ∧ row.leaseFence < task.leaseFence := by
  obtain ⟨-, reaped, hreaped, hclaims, hrow'⟩ := claimTask_ok h
  have hreap := hi.reapExpiredLeases hreaped
  obtain ⟨tried, row₁, spec, x, htried, hrow₁, -, -, rfl⟩ :=
    hclaims.started (hreap.inv hi) hrow' hrunning
  have htry : Evolves env.now backgroundLabels reaped tried :=
    ((hreap.inv hi).claimDependencies htried).mono fun _ _ hl => .inl hl
  obtain ⟨row, hrow, hle⟩ := (hreap.trans htry).fence_le
    (by simp [backgroundLabels, Label.Background, Label.Quiet]) hrow₁
  obtain ⟨sp, rfl⟩ := startClaim_row hrow₁ hrow'
  exact ⟨row, hrow, Nat.lt_succ_of_le hle⟩

/-- The command has overtaken the attempts of the task: it claimed the task again, or it began a
session. -/
inductive Supersedes (env : Env) (s : State) (t : TaskId) : Command → Prop
  | claims {access : Access} {body : Json} {key : Option String} {s' : State} {a : AttemptId}
      {lease : LeaseId} {fence : Nat} {deadline : Time}
      (h : s.claimNext env access body key = .ok (s', .attempt a t lease fence deadline)) :
      Supersedes env s t (.claimNext access body key)
  | resumes {r : ResumeRequest} {claimed : State} {task : Task}
      (h : ResumeClaims env s r t claimed task) : Supersedes env s t (.resumeAttempt r)
  | begins {boot : String} {floor : Option Int} {s' : State}
      (h : s.beginRuntimeSession boot floor env.now = .ok s') :
      Supersedes env s t (.beginRuntimeSession boot floor)

/-- A claim under a higher fence overtakes the attempts that were there. -/
theorem Inv.overtaken_of_fence {claimed : State} (hi : Inv s) (hx : s.attempts.lookup a = some x)
    (hfence : ∀ row, s.tasks.lookup x.taskId = some row → row.leaseFence < task.leaseFence)
    (hrow : claimed.tasks.lookup x.taskId = some task) (hgrow : Grow s s')
    (hafter : Evolves now A claimed s') : s'.Dead a := by
  obtain ⟨-, row, hold, hle⟩ := hi.attempt a x hx
  obtain ⟨x', hx', hsame⟩ := hgrow.attempts a x hx
  obtain ⟨row', hrow', -, -, hle', -⟩ := (hafter.path x.taskId).later.row task hrow
  refine ⟨x', hx', .inr (.inr ⟨row', hsame.taskId ▸ hrow', ?_⟩)⟩
  rw [hsame.fence]
  exact (hle.trans_lt (hfence row hold)).trans_le hle'

/-- The attempts of a task are dead once it is claimed again or a session begins. -/
theorem Supersedes.dead (hi : Inv s) (h : Supersedes env s x.taskId c)
    (hx : s.attempts.lookup a = some x) : (c.next env s).Dead a := by
  cases h with
  | @claims access body key s' a' lease fence deadline h =>
    have hgrow := (hi.claimNext h).grow
    rcases claimNext_ok h with
      ⟨hreply, -⟩ | ⟨_, _, reaped, claimed, -, hplacement, hreaped, hclaim, hrecords⟩
    · simp at hreply
    obtain ⟨item, selected, started, task, -, -, -, hclaimed, hrunning, hstart⟩ :=
      claimQueued_attempt hclaim
    have hreap := hi.reapExpiredLeases hreaped
    have hi₁ := hreap.inv hi
    obtain ⟨row₁, hrow₁, hfence⟩ := claimTask_fence hi₁ hclaimed hrunning
    have hstarted := hi₁.claimTask_started hclaimed hrunning
    have hattempt : Evolves env.now (grantLabels x.taskId) started s' :=
      (startAttempt_evolves (.inr ⟨rfl, .inr rfl⟩) hstarted
        (hreap.grow.epoch.trans (hi₁.claimTask (by simp) hclaimed).grow.epoch)
        (Access.placement_external hplacement) hstart).trans hrecords.evolves
    simp only [next, committed, h]
    refine hi.overtaken_of_fence hx (fun row hrow => ?_) hstarted.stored hgrow hattempt
    obtain ⟨row', hrow', -, -, hle, -⟩ := (hreap.path x.taskId).later.row row hrow
    obtain rfl := View.row_eq hrow₁ hrow'
    exact hle.trans_lt hfence
  | @resumes r claimed task h =>
    have hafter := h.evolves hi
    obtain ⟨hchecks, htask, hreset, hclaim, hrunning⟩ := h
    obtain ⟨-, hbinding, -⟩ := resumeChecks_proceed hchecks
    obtain ⟨-, -, -, -, hrow'⟩ := claimTask_ok hclaim
    have hlift := (resumeReset_evolves (A := fun _ l => l = .lift) rfl
      (htask ▸ hbinding) hreset).1
    obtain ⟨row₁, hrow₁, hfence⟩ := claimTask_fence (hlift.inv hi) hclaim hrunning
    refine hi.overtaken_of_fence hx (fun row hrow => ?_) hrow'
      (hi.next (c := .resumeAttempt r)).grow hafter
    obtain ⟨row', hrow', -, -, hle, -⟩ := (hlift.path x.taskId).later.row row hrow
    obtain rfl := View.row_eq hrow₁ hrow'
    exact hle.trans_lt hfence
  | @begins boot floor s' h =>
    obtain ⟨epoch, hepoch, hopen, hrec⟩ := hi.beginRuntimeSession_ok h
    obtain ⟨x', hx', hsame⟩ := (hopen.trans hrec).grow.attempts a x hx
    have hlt : x.runtimeEpoch < s'.currentRuntimeEpoch :=
      ((hi.attempt a x hx).1.trans_lt hepoch).trans_le hrec.grow.epoch
    simp only [next, committed, h, id]
    exact ⟨x', hx', .inr (.inl (hsame.runtimeEpoch ▸ hlt))⟩

/-- A worker's command changes the realm only through an attempt that is unsettled, unexpired, of the
current epoch, and under the lease and fence that the task now has. Every claim raises the fence; so
once a task is claimed again or a session begins, the attempts before it change nothing any more, and
so does an attempt that was settled. -/
theorem stale_attempt_changes_nothing (hs : Reachable s) :
    (∀ env (c : Command) a, c.attempt = some a → c.next env s ≠ s →
      ∃ x row, AttemptHolds s a x row env.now) ∧
    (∀ env t executor lease epoch recovery s' task,
      s.claimTask env t executor lease epoch recovery = .ok (s', task) → task.status = .running →
        ∃ row, s.tasks.lookup t = some row ∧ row.leaseFence < task.leaseFence) ∧
    (∀ env (c : Command) a x s', s.attempts.lookup a = some x → Supersedes env s x.taskId c →
      Leads (c.next env s) s' → ∀ env' (c' : Command), c'.attempt = some a → c'.next env' s' = s') ∧
    (∀ env (c : Command) a s', c.attempt = some a → c.ends = true → c.next env s ≠ s →
      Leads (c.next env s) s' → ∀ env' (c' : Command), c'.attempt = some a → c'.next env' s' = s') := by
  have hi := hs.inv
  have hquiet : ∀ {env} {c : Command} {a s'}, (c.next env s).Dead a → Leads (c.next env s) s' →
      ∀ env' (c' : Command), c'.attempt = some a → c'.next env' s' = s' := by
    intro env c a s' hdead hrun env' c' ha
    by_contra hne
    exact (hdead.leads (hi.next.inv hi) hrun).not_acts (.of_changed ha hne)
  refine ⟨fun env c a ha hne => (Acts.of_changed ha hne).holds, ?_, ?_, ?_⟩
  · intro env t executor lease epoch recovery s' task h hrunning
    exact claimTask_fence hi h hrunning
  · intro env c a x s' hx h hrun
    exact hquiet (h.dead hi hx) hrun
  · intro env c a s' ha hends hne hrun
    exact hquiet ((Acts.of_changed ha hne).dead hi hends) hrun

/-- A task is claimed under a lease that ends at 30003 ms. -/
def claimedOnce : State :=
  initial.replay
    [(.tick 0 "0", .beginRuntimeSession "boot" none),
      (.tick 1 "1", .registers "e" [("capability_id", .str "c"), ("definition_digest", .str "d")] []),
      (.tick 2 "2", .submitTask { capability := "c", spec := {} }),
      (.tick 3 "3", .claims {} "e" 1 none)]

/-- The first attempt holds the task; after the second claim its settlement changes nothing. -/
theorem stale_attempt_changes_nothing_claimed :
    (∃ x row, AttemptHolds claimedOnce "attempt-3" x row 10) ∧
      (settles "attempt-3" "lease-3" 1 1 []).next (.tick 40001 "5")
          ((claims {} "e" 1 none).next (.tick 40000 "4") claimedOnce) =
        (claims {} "e" 1 none).next (.tick 40000 "4") claimedOnce := by
  have hfence := stale_attempt_changes_nothing
    (Reachable.replay _ : Reachable claimedOnce)
  refine ⟨hfence.1 (.tick 10 "5") (.settles "attempt-3" "lease-3" 1 1 []) "attempt-3" rfl
    (by decide +kernel), ?_⟩
  obtain ⟨x, hx, hholds⟩ : ∃ x, claimedOnce.attempts.lookup "attempt-3" = some x ∧
      x.taskId = "task-2" := by decide +kernel
  obtain ⟨⟨s', reply⟩, h, hreply⟩ := map_eq_ok.mp
    (show (claimedOnce.claimNext (.tick 40000 "4") {} (.obj [("capability_ids", .arr []),
      ("executor_id", .str "e"), ("runtime_epoch", .int 1)]) none).map Prod.snd =
      .ok (.attempt "attempt-4" "task-2" "lease-4" 2 70000) by decide +kernel)
  subst hreply
  exact hfence.2.2.1 (.tick 40000 "4") _ "attempt-3" x _ hx (hholds ▸ .claims h) (Trace.refl _)
    (.tick 40001 "5") _ rfl

end WorkspaceRuntime
