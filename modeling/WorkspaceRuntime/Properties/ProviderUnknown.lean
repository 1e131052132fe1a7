import WorkspaceRuntime.System

/-!
# External work whose state is not known

A task is marked `provider_state_unknown` when a cancel, an expired lease or a restart finds the
binding of a verified external executor that may still run. The marker and that binding hold the task:
no other command starts it, requeues it or takes the marker away. A resume does, and it does so before
it knows that its claim is granted: a resume that is refused leaves the task open.
-/

namespace WorkspaceRuntime

open View

variable {now : Time} {l : Label} {v v' : View} {allowed : Label → Prop} {row : Task} {env : Env}
  {s s' : State} {c : Command} {t : TaskId}

/-! ## Held views -/

/-- The task is marked, and an external executor may still work on it. -/
structure View.Held (v : View) (row : Task) : Prop where
  stored : v.row = some row
  marked : row.unknown = true
  unresolved : v.unresolved

/-- The lease of a running task has ended. -/
def View.Over (v : View) (now : Time) : Prop :=
  ∀ row, v.row = some row → row.status = .running → ∀ d ∈ row.leaseExpiresAt, d ≤ now

/-- A held task is not terminal. -/
theorem View.Held.live (hh : v.Held row) (hv : v.Wf) {row' : Task} (hrow : v.row = some row') :
    row'.status.terminal = false := by
  obtain rfl := row_eq hh.stored hrow
  exact (hv.row _ hh.stored).marked_live hh.marked

/-- A row with the marker and the stage of the held one. -/
theorem View.Held.keep (hh : v.Held row) {row' row₀ : Task} (hrow : v.row = some row₀)
    (hrow' : v'.row = some row') (hu : v.unresolved → v'.unresolved)
    (hstatus : row'.status = row₀.status) (hreason : row'.waitingReason = row₀.waitingReason) :
    ∃ row', v'.Held row' ∧ (row.status = .cancelRequested → row'.status = .cancelRequested) := by
  obtain rfl := row_eq hh.stored hrow
  refine ⟨row', ⟨hrow', ?_, hu hh.unresolved⟩, fun h => hstatus.trans h⟩
  simpa [Task.unknown, hreason] using hh.marked

/-- Only a resume, a finalised stop and a settlement in time let a held task go. -/
theorem Step.held (h : Step now l v v') (hv : v.Wf) (hlift : l ≠ .lift) (hfinal : l ≠ .finalize)
    (hlate : l = .finish → v.Over now) (hh : v.Held row) :
    ∃ row', v'.Held row' ∧ (row.status = .cancelRequested → row'.status = .cancelRequested) := by
  have hbinding : ∀ b ∈ v.binding, b.status ≠ .prepared := by
    intro b hb hprepared
    obtain ⟨b', hb', hu⟩ := hh.unresolved
    obtain rfl := Option.mem_unique hb hb'
    simp [Binding.unresolvedExternal, hprepared] at hu
  cases h with
  | respec hrow _ _ | register hrow _ _ | touch hrow | attempt a hrow | extend hrow _ _ =>
    exact hh.keep hrow rfl id rfl rfl
  | settle => exact ⟨row, ⟨hh.stored, hh.marked, hh.unresolved⟩, id⟩
  | request hrow _ _ =>
    exact ⟨_, ⟨rfl, rfl, by simpa [unresolved] using hh.unresolved⟩, fun _ => rfl⟩
  | mark hrow _ _ _ =>
    obtain rfl := row_eq hh.stored hrow
    exact ⟨_, ⟨rfl, rfl, hh.unresolved⟩, id⟩
  | keepUnknown hrow _ _ =>
    obtain rfl := row_eq hh.stored hrow
    exact ⟨_, ⟨rfl, rfl, by simpa [unresolved] using hh.unresolved⟩, fun h => if_pos h⟩
  | wait _ _ hresolved _ | rebind hresolved _ _ _ | admission _ _ _ hresolved
  | stop _ _ hresolved | withdraw _ _ hresolved | requeue _ _ hresolved | recover _ _ hresolved
  | start _ _ hresolved | fence _ _ hresolved => exact absurd hh.unresolved hresolved
  | bind _ _ hb hprepared _ _ => exact absurd hprepared (hbinding _ hb)
  | finish hrow hrunning hlive _ _ =>
    obtain ⟨d, hd⟩ := Option.ne_none_iff_exists'.mp ((hv.row _ hrow).running_deadline hrunning)
    exact absurd (hlive d hd) (hlate rfl _ hrow hrunning d hd).not_gt
  | retry hrow hstatus _ _ | replace hrow hstatus _ =>
    have := hh.live hv hrow
    rcases hstatus with hstatus | hstatus <;> simp [hstatus, Status.terminal] at this
  | reopen hrow hstatus _ _ => simpa [hstatus, Status.terminal] using hh.live hv hrow
  | retire hrow hdone => simpa [hdone] using hh.live hv hrow
  | create _ => simpa [blank] using hh.stored
  | lift => exact absurd rfl hlift
  | finalize => exact absurd rfl hfinal

/-- The lease of a held task is not extended after its end. -/
theorem Step.over (h : Step now l v v') (hv : v.Wf) (hh : v.Held row) (ho : v.Over now) :
    v'.Over now := by
  cases h with
  | start _ _ hresolved => exact absurd hh.unresolved hresolved
  | extend hrow hrun hlive =>
    obtain ⟨d, hd⟩ := Option.ne_none_iff_exists'.mp ((hv.row _ hrow).running_deadline hrun)
    exact absurd (hlive d hd) (ho _ hrow hrun d hd).not_gt
  | create => simpa [blank] using hh.stored
  | keepUnknown => simp [Over]
  | recover => grind [Over]
  | _ => simp_all [Over]

theorem Life.held (h : Life now allowed v v') (hv : v.Wf) (hlift : ¬allowed .lift)
    (hfinal : ¬allowed .finalize) (hlate : allowed .finish → v.Over now) (hh : v.Held row) :
    ∃ row', v'.Held row' ∧ (row.status = .cancelRequested → row'.status = .cancelRequested) := by
  refine (h.preserves (I := fun v' => v'.Wf ∧ (allowed .finish → v'.Over now) ∧
    ∃ row', v'.Held row' ∧ (row.status = .cancelRequested → row'.status = .cancelRequested))
    ?_ ⟨hv, hlate, row, hh, id⟩).2.2
  rintro l v₁ v₂ ha hs ⟨hv₁, ho₁, row₁, hh₁, hreq₁⟩
  obtain ⟨row₂, hh₂, hreq₂⟩ := hs.held hv₁ (fun e => hlift (e ▸ ha)) (fun e => hfinal (e ▸ ha))
    (fun e => ho₁ (e ▸ ha)) hh₁
  exact ⟨hs.wf hv₁, fun hf => hs.over hv₁ hh₁ (ho₁ hf), row₂, hh₂, fun hr => hreq₂ (hreq₁ hr)⟩

/-! ## Commands -/

/-- The command lets a held task go: a resume of it returns, or its owner stop is finalised. -/
inductive Command.Releases (env : Env) (s : State) (t : TaskId) : Command → Prop
  | resumes {r : ResumeRequest} {reply : ResumeReply} (h : s.Resumes env r t)
      (hok : (s.resumeAttempt env r).2 = .ok reply) : Releases env s t (.resumeAttempt r)
  | finalizes {captured : Captured} {proof : String} {s' : State}
      (ht : t ∈ captured.entries.map (·.taskId))
      (hok : s.finalizeOwnedLocalCancellations captured proof env.now = .ok s') :
      Releases env s t (.finalizeOwned captured proof)

/-- No resume of the task is refused after its checks, and the clock is not before the end of the
lease that the task runs under. -/
structure Command.Orderly (env : Env) (s : State) (t : TaskId) (c : Command) : Prop where
  resume : ∀ r, c = .resumeAttempt r → s.Resumes env r t →
    ∃ reply, (s.resumeAttempt env r).2 = .ok reply
  clock : ∀ row, s.tasks.lookup t = some row → row.status = .running →
    ∀ d ∈ row.leaseExpiresAt, d ≤ env.now

/-- A step that is orderly and does not release the task keeps it held. -/
theorem Inv.held (hi : Inv s) (hok : c.Orderly env s t) (hkeep : ¬c.Releases env s t)
    (hh : (s.view t).Held row) : ∃ row', ((c.next env s).view t).Held row' ∧
      (row.status = .cancelRequested → row'.status = .cancelRequested) := by
  have hlift : ¬c.labels env s t .lift := by
    intro hl
    obtain ⟨r, rfl, hr⟩ := (Command.labels_rare hl).lift rfl
    obtain ⟨reply, hreply⟩ := hok.resume r rfl hr
    exact hkeep (.resumes hr hreply)
  by_cases hfinal : c.labels env s t .finalize
  · -- the finalisation names the task and did not commit, so it was rolled back
    obtain ⟨captured, proof, rfl, ht⟩ := (Command.labels_rare hfinal).finalize rfl
    cases hr : s.finalizeOwnedLocalCancellations captured proof env.now with
    | ok s' => exact absurd (.finalizes ht hr) hkeep
    | error e => exact ⟨row, by simpa [Command.next, committed, hr] using hh, id⟩
  · exact (hi.next.path t).held (hi.view t) hlift hfinal (fun _ => hok.clock) hh

/-- A held task is not handed out. -/
theorem Inv.held_not_claimed {access : Access} {value : Json} {key : Option String} {a : AttemptId}
    {lease : LeaseId} {fence : Nat} {deadline : Time} (hi : Inv s) (hh : (s.view t).Held row) :
    s.claimNext env access value key ≠ .ok (s', .attempt a t lease fence deadline) := by
  intro h
  rcases State.claimNext_ok h with ⟨hreply, -⟩ | ⟨_, _, reaped, claimed, -, -, hreaped, hclaim, -⟩
  · simp at hreply
  obtain ⟨item, selected, started, task, rfl, hselect, hmark, -⟩ := State.claimQueued_attempt hclaim
  have hback : ∀ l, backgroundLabels item.1 l → l ≠ .lift ∧ l ≠ .finalize ∧ l ≠ .finish := by
    intro l hl
    obtain ⟨-, -, -, -, hfinish, hlift, hfinal, -⟩ := hl.ne
    exact ⟨hlift, hfinal, hfinish⟩
  -- the reaper keeps the task held, so the selected row carries the marker
  obtain ⟨row', hh', -⟩ := ((hi.reapExpiredLeases hreaped).path item.1).held (hi.view item.1)
    (fun hl => (hback _ hl).1 rfl) (fun hl => (hback _ hl).2.1 rfl)
    (fun hl => absurd rfl (hback _ hl).2.2) hh
  have hitem : reaped.tasks.lookup item.1 = some item.2 :=
    Table.lookup_eq_some_iff.mpr (List.mem_filter.mp (State.mem_of_selectTask hselect)).1
  obtain rfl := row_eq hh'.stored hitem
  simp [hh'.marked] at hmark

/-- A restart has marked the checkpointed task. -/
def markedByRestart : State :=
  State.initial.replay (checkpointedRun [] ++ [(.tick 6 "6", .beginRuntimeSession "boot-2" none)])

theorem markedByRestart_held :
    ∃ row, (markedByRestart.view "task-2").Held row ∧ row.status = .queued := by
  obtain ⟨row, hrow, hmark, hstatus⟩ : ∃ row, markedByRestart.tasks.lookup "task-2" = some row ∧
      row.unknown = true ∧ row.status = .queued := by decide +kernel
  exact ⟨row, ⟨hrow, hmark, by decide +kernel⟩, hstatus⟩

end WorkspaceRuntime
