import WorkspaceRuntime.System

/-!
# Ended tasks

A completed, failed or cancelled task leaves its status and its result only through a retry, with one
exception: the cancel of a failed task turns it into a cancelled one. In the automaton of a task's
life this is the label `withdraw`, which no command has but `cancel_task`, and that one only for the
task that it names.
-/

namespace WorkspaceRuntime

open View

variable {now : Time} {l : Label} {v v' : View} {allowed : Label → Prop} {env : Env} {s s' : State}
  {c : Command} {t : TaskId} {status : Status} {result : Option Json}

/-! ## Steps -/

/-- The task has this status and this result. -/
def View.Shows (v : View) (status : Status) (result : Option Json) : Prop :=
  v.row.map (fun row => (row.status, row.result)) = some (status, result)

theorem View.shows_iff :
    v.Shows status result ↔ ∃ row, v.row = some row ∧ row.status = status ∧ row.result = result := by
  simp [Shows, Option.map_eq_some_iff]

theorem View.Shows.of_row {row : Task} (hv : v.Shows status result) (hrow : v.row = some row) :
    row.status = status ∧ row.result = result := by
  simpa [Shows, hrow] using hv

/-- The labels that a retry or the cancel of a failed task has. -/
def Label.Revives (l : Label) : Prop := l = .retry ∨ l = .reopen ∨ l = .withdraw

/-- No other step changes the status or the result of an ended task. -/
theorem Step.ended (h : Step now l v v') (hl : ¬l.Revives) (hdone : status.terminal = true)
    (hv : v.Shows status result) : v'.Shows status result := by
  cases h with
  | stop hrow hopen _ _ _ _ hfailed =>
    -- of the ended tasks, only cancelled ones are stopped again
    obtain ⟨row, hrow', rfl, rfl⟩ := shows_iff.mp hv
    obtain rfl := row_eq hrow hrow'
    have hcancelled : row.status = .cancelled := by
      cases hstatus : row.status <;> simp_all [Status.terminal]
    exact shows_iff.mpr ⟨_, rfl, hcancelled.symm, rfl⟩
  | request hrow hlive _ =>
    obtain ⟨rfl, -⟩ := hv.of_row hrow
    simp [hlive] at hdone
  | requeue hrow hleased _ _ _ | keepUnknown hrow hleased _ | recover hrow hleased _ _ _ =>
    obtain ⟨rfl, -⟩ := hv.of_row hrow
    simp [Status.leased_live hleased] at hdone
  | start hrow hstatus _ _ _ _ _ =>
    obtain ⟨rfl, -⟩ := hv.of_row hrow
    rcases hstatus with hstatus | hstatus <;> simp [hstatus, Status.terminal] at hdone
  | finish hrow hrunning _ _ _ _ =>
    obtain ⟨rfl, -⟩ := hv.of_row hrow
    simp [hrunning, Status.terminal] at hdone
  | finalize hrow hstatus _ _ | fence hrow hstatus _ =>
    obtain ⟨rfl, -⟩ := hv.of_row hrow
    simp [hstatus, Status.terminal] at hdone
  | retry | reopen | withdraw => simp [Label.Revives] at hl
  | create => simp [Shows, blank] at hv
  | _ => simp_all [Shows]

theorem Life.ended (h : Life now allowed v v') (hl : ∀ l, allowed l → ¬l.Revives)
    (hdone : status.terminal = true) (hv : v.Shows status result) :
    v'.Shows status result :=
  h.preserves (I := fun v => v.Shows status result) (fun ha hs => hs.ended (hl _ ha) hdone) hv

/-! ## Commands -/

/-- The command is a retry that may take the task back to the queue. -/
def Command.Retries (t : TaskId) : Command → Prop
  | .retryTask _ target _ _ => target = t
  | .retryRun .. => True
  | _ => False

/-- The command is the cancel of a failed task. -/
def Command.CancelsFailed (s : State) (t : TaskId) : Command → Prop
  | .cancelTask target _ _ => target = t ∧ (s.view t).Failed
  | _ => False

/-- Only these commands revive a task. -/
theorem Command.labels_revives (h : c.labels env s t l) (hl : l.Revives) :
    c.Retries t ∨ c.CancelsFailed s t := by
  rcases hl with rfl | rfl | rfl <;> cases c <;>
    simp [labels, Retries, CancelsFailed, createLabels, delegateLabels, registerLabels, claimNextLabels,
      backgroundLabels, cancelLabels, retryLabels, retryRunLabels, resumeLabels, finalizeLabels,
      placementLabels, containLabels, importLabels, retireLabels, Label.Background,
      Label.Quiet] at h ⊢
  all_goals grind

/-- In every run in which the task is not retried, and not cancelled while it is failed, the status
and the result of an ended task stay. -/
theorem ended_tasks_stay (hs : Reachable s) (t : TaskId) (row : Task)
    (hrow : s.tasks.lookup t = some row) (hdone : row.status.terminal = true)
    (hrun : Steps (fun s _ c => ¬c.Retries t ∧ ¬c.CancelsFailed s t) s s') :
    ∃ row', s'.tasks.lookup t = some row' ∧ row'.status = row.status ∧ row'.result = row.result := by
  have hshows : (s'.view t).Shows row.status row.result := by
    refine hrun.preserves hs.inv (I := fun s => (s.view t).Shows row.status row.result) ?_
      (shows_iff.mpr ⟨row, hrow, rfl, rfl⟩)
    rintro env s₁ c hi₁ ⟨hretry, hcancel⟩ hshows₁
    refine (hi₁.next.path t).ended (fun l hl hrevives => ?_) hdone hshows₁
    exact (Command.labels_revives hl hrevives).elim hretry hcancel
  exact shows_iff.mp hshows

/-- A task fails. -/
def failedRun : List (Env × Command) :=
  [(.tick 0 "0", .beginRuntimeSession "boot" none),
    (.tick 1 "1", .registers "e" [("capability_id", .str "c"), ("definition_digest", .str "d")] []),
    (.tick 2 "2", .submitTask { capability := "c", spec := {} }),
    (.tick 3 "3", .claims {} "e" 1 none),
    (.tick 4 "4", .failAttempt { attemptId := "attempt-3"
                                 body := .obj (Command.leaseFields "lease-3" 1 1)
                                 key := some "fail" })]

/-- A restart, and the cancel of the failed task's run. -/
def restartAndCancelRun : List (Env × Command) :=
  [(.tick 5 "5", .beginRuntimeSession "boot-2" none),
    (.tick 6 "6", .cancelRun "run-2" (some "cancel"))]

theorem ended_tasks_stay_restart :
    ∃ row row', (State.initial.replay failedRun).tasks.lookup "task-2" = some row ∧
      row.status = .failed ∧
      ((State.initial.replay failedRun).replay restartAndCancelRun).tasks.lookup "task-2" =
        some row' ∧
      row'.status = .failed := by
  obtain ⟨row, hrow, hfailed⟩ : ∃ row, (State.initial.replay failedRun).tasks.lookup "task-2" =
      some row ∧ row.status = .failed := by decide +kernel
  have hrun : Steps (fun s _ c => ¬c.Retries "task-2" ∧ ¬c.CancelsFailed s "task-2")
      (State.initial.replay failedRun)
      ((State.initial.replay failedRun).replay restartAndCancelRun) :=
    .replay (by simp [restartAndCancelRun, Command.Retries, Command.CancelsFailed])
  obtain ⟨row', hrow', hstatus, -⟩ := ended_tasks_stay (Reachable.replay failedRun) "task-2" row hrow
    (by rw [hfailed]; rfl) hrun
  exact ⟨row, row', hrow, hfailed, hrow', hstatus.trans hfailed⟩

/-- The cancel of the failed task makes it a cancelled one. -/
theorem failed_task_cancelled :
    (State.initial.replay failedRun).statusOf "task-2" = some .failed ∧
      (State.initial.replay (failedRun ++ [(.tick 5 "5", .cancelTask "task-2" (.obj [])
        (some "cancel"))])).statusOf "task-2" = some .cancelled := by
  decide +kernel

end WorkspaceRuntime
