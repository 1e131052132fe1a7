import WorkspaceRuntime.System

/-!
# What a task holds

A task holds an open attempt and unreleased reservations while it runs, or while its external work is
not known to have ended. Every way out of that settles the attempt that the row names and releases the
reservations of its lease. A resume is the exception: it starts the next attempt of a task whose last
attempt and lease were kept, and nothing settles or releases these later. As long as no resume does
so, a terminal task holds nothing.
-/

namespace WorkspaceRuntime

open State View

variable {now : Time} {l : Label} {v v' : View} {row row' : Task} {allowed : Label → Prop}
  {env : Env} {s : State} {c : Command} {t : TaskId}

/-- The task runs, or it is open and its external work may still run. -/
def View.Active (v : View) (row : Task) : Prop :=
  row.status = .running ∨ (row.status.terminal = false ∧ v.unresolved)

theorem View.idle_of_waiting (hstatus : row.status = .queued ∨ row.status = .cancelRequested)
    (hres : ¬v.unresolved) : ¬v.Active row := by
  rintro (h | ⟨-, hu⟩)
  · simp [h] at hstatus
  · exact hres hu

theorem View.idle_of_done (hdone : row.status.terminal = true) : ¬v.Active row := by
  rintro (h | ⟨h, -⟩)
  · simp [h, Status.terminal] at hdone
  · simp [h] at hdone

theorem Status.terminal_of_stopped {status : Status}
    (h : status = .failed ∨ status = .cancelled) : status.terminal = true := by
  rcases h with rfl | rfl <;> rfl

/-! ## The open attempt -/

/-- The row names the open attempt with this grant, which holds the fence of the active task. -/
structure View.Names (v : View) (a : AttemptId) (g : Grant) (row : Task) : Prop where
  stored : v.row = some row
  current : row.attemptId = some a
  fence : g.fence = row.leaseFence
  active : v.Active row

/-- An open attempt is the one that the row names. -/
def View.OneOpen (v : View) : Prop :=
  ∀ a g, v.grant a = some g → g.settled = false → ∃ row, v.Names a g row

/-- No attempt is open. -/
def View.NoneOpen (v : View) : Prop := ∀ a g, v.grant a = some g → g.settled = true

/-- Without an open attempt, a step that starts none may do what it likes to the rest. -/
theorem View.NoneOpen.oneOpen (h : v.NoneOpen) (hgrant : v'.grant = v.grant) : v'.OneOpen := by
  intro a g hg hopen
  simp [h a g (hgrant ▸ hg)] at hopen

/-- A task that is not active has no open attempt. -/
theorem View.OneOpen.idle (h : v.OneOpen) (hrow : v.row = some row) (hidle : ¬v.Active row) :
    v.NoneOpen := by
  intro a g hg
  by_contra hopen
  obtain ⟨row', hnames⟩ := h a g hg (by simpa using hopen)
  obtain rfl := row_eq hrow hnames.stored
  exact hidle hnames.active

/-- A task whose named attempt is settled has no open attempt. -/
theorem View.OneOpen.closed (h : v.OneOpen) (hrow : v.row = some row)
    (hclosed : v.Closed row.attemptId) : v.NoneOpen := by
  intro a g hg
  by_contra hopen
  obtain ⟨row', hnames⟩ := h a g hg (by simpa using hopen)
  obtain rfl := row_eq hrow hnames.stored
  exact hopen (hclosed a hnames.current g hg)

/-- A change of the row that keeps its attempt, its fence and what its attempt stands for. -/
theorem View.OneOpen.keep (h : v.OneOpen) (hrow : v.row = some row)
    (hrow' : v'.row = some row') (hgrant : v'.grant = v.grant)
    (hcurrent : row'.attemptId = row.attemptId) (hfence : row'.leaseFence = row.leaseFence)
    (hactive : v.Active row → v'.Active row') : v'.OneOpen := by
  intro a g hg hopen
  obtain ⟨row₀, hnames⟩ := h a g (hgrant ▸ hg) hopen
  obtain rfl := row_eq hrow hnames.stored
  exact ⟨row', hrow', hcurrent.trans hnames.current, hnames.fence.trans hfence.symm,
    hactive hnames.active⟩

/-- Every step but the lifting of a binding keeps the open attempt the one that the row names. -/
theorem Step.oneOpen (h : Step now l v v') (hlift : l ≠ .lift) (ho : v.OneOpen) : v'.OneOpen := by
  cases h with
  | lift => exact absurd rfl hlift
  | respec hrow | register hrow | touch hrow | mark hrow | extend hrow => exact ho.keep hrow rfl rfl rfl rfl id
  | request hrow hlive hu =>
    exact ho.keep hrow rfl rfl rfl rfl fun _ => .inr ⟨rfl, by simpa [unresolved] using hu⟩
  | keepUnknown hrow hleased hu =>
    refine ho.keep hrow rfl rfl rfl rfl fun _ => .inr ⟨?_, by simpa [unresolved] using hu⟩
    dsimp only
    split <;> rfl
  | bind hrow hrunning => exact ho.keep hrow hrow rfl rfl rfl fun _ => .inl hrunning
  | rebind hres =>
    intro a g hg hopen
    obtain ⟨row, hnames⟩ := ho a g hg hopen
    exact ⟨row, hnames.stored, hnames.current, hnames.fence,
      .inl (hnames.active.resolve_right fun h => hres h.2)⟩
  | settle b =>
    intro a g hg hopen
    obtain ⟨g₀, hg₀, -, hsame⟩ := of_settleGrants hg
    obtain ⟨-, rfl⟩ := hsame hopen
    obtain ⟨row, hnames⟩ := ho a g₀ hg₀ hopen
    exact ⟨row, hnames.stored, hnames.current, hnames.fence, hnames.active⟩
  | attempt b hrow hrunning _ hfence _ hfresh =>
    intro a g hg hopen
    dsimp only at hg
    split at hg
    next hab =>
      cases hg
      exact ⟨_, rfl, by rw [hab], hfence, .inl hrunning⟩
    next =>
      -- an open attempt before would have the fence of the task, which is too high for it
      obtain ⟨row, hnames⟩ := ho a g hg hopen
      obtain rfl := row_eq hrow hnames.stored
      exact absurd hnames.fence (hfresh a g hg).ne
  | wait hrow hqueued hres | admission hrow hqueued _ hres | fence hrow hqueued hres =>
    exact (ho.idle hrow (idle_of_waiting (.inl hqueued) hres)).oneOpen (by rfl)
  | start hrow hstatus hres => exact (ho.idle hrow (idle_of_waiting hstatus hres)).oneOpen rfl
  | stop hrow _ _ _ hclosed | withdraw hrow _ _ _ hclosed | requeue hrow _ _ _ hclosed
  | recover hrow _ _ _ hclosed =>
    exact (ho.closed hrow hclosed).oneOpen (by rfl)
  | finish hrow _ _ _ hclosed | finalize hrow _ hclosed =>
    exact (ho.closed hrow hclosed).oneOpen rfl
  | retry hrow hstatus | replace hrow hstatus =>
    exact (ho.idle hrow (idle_of_done (Status.terminal_of_stopped hstatus))).oneOpen (by rfl)
  | reopen hrow hstatus =>
    exact (ho.idle hrow (idle_of_done (by rw [hstatus]; rfl))).oneOpen rfl
  | retire hrow hdone => exact (ho.idle hrow (idle_of_done hdone)).oneOpen rfl
  | create hcreated =>
    intro a g hg
    simp [hcreated.grant] at hg

theorem Life.oneOpen (h : Life now allowed v v') (hlift : ¬allowed .lift) (ho : v.OneOpen) :
    v'.OneOpen :=
  h.preserves (I := OneOpen) (fun ha hs => hs.oneOpen fun e => hlift (e ▸ ha)) ho

/-! ## The reservations -/

/-- An unreleased reservation is one of the lease that the row of the active task names. -/
def View.Covered (v : View) : Prop :=
  ∀ k lease x, v.Holds k lease x → ∃ row, v.row = some row ∧ row.leaseToken = some lease ∧ v.Active row

/-- No reservation is unreleased. -/
def View.Free (v : View) : Prop := ∀ k lease x, ¬v.Holds k lease x

/-- Without unreleased reservations, a step that makes none may do what it likes to the rest. -/
theorem View.Free.covered (h : v.Free) (hhold : v'.hold = v.hold) : v'.Covered := by
  rintro k lease x ⟨r, hr, hrest⟩
  exact absurd ⟨r, hhold ▸ hr, hrest⟩ (h k lease x)

/-- A task that is not active has no unreleased reservations. -/
theorem View.Covered.idle (h : v.Covered) (hrow : v.row = some row) (hidle : ¬v.Active row) :
    v.Free := by
  intro k lease x hh
  obtain ⟨row', hrow', -, hactive⟩ := h k lease x hh
  obtain rfl := row_eq hrow hrow'
  exact hidle hactive

/-- A change of the row that keeps its lease and what the lease stands for. -/
theorem View.Covered.keep (h : v.Covered) (hrow : v.row = some row) (hrow' : v'.row = some row')
    (hhold : ∀ k lease x, v'.Holds k lease x → v.Holds k lease x)
    (htoken : row'.leaseToken = row.leaseToken) (hactive : v.Active row → v'.Active row') :
    v'.Covered := by
  intro k lease x hh
  obtain ⟨row₀, hrow₀, hlease, ha⟩ := h k lease x (hhold k lease x hh)
  obtain rfl := row_eq hrow hrow₀
  exact ⟨row', hrow', htoken.trans hlease, hactive ha⟩

/-- The release of the lease that the row names, or of any when it names none, leaves nothing. -/
theorem View.Covered.released {lease : Option LeaseId} {row₁ : Option Task} {b : Option Binding}
    (h : v.Covered) (hrow : v.row = some row)
    (hlease : row.leaseToken = lease ∨ row.leaseToken = none) :
    Covered { v with row := row₁, binding := b, hold := releaseHolds lease now v.hold } := by
  intro k token x hh
  obtain ⟨hheld, -, hne⟩ := releaseHolds_holds hh
  obtain ⟨row', hrow', htoken, -⟩ := h k token x hheld
  obtain rfl := row_eq hrow hrow'
  rcases hlease with hlease | hlease
  · exact absurd (hlease.symm.trans htoken) hne
  · simp [hlease] at htoken

/-- Every step but the lifting of a binding keeps the reservations those of the row's lease. -/
theorem Step.covered (h : Step now l v v') (hlift : l ≠ .lift) (hc : v.Covered) : v'.Covered := by
  cases h with
  | lift => exact absurd rfl hlift
  | respec hrow | register hrow | touch hrow | mark hrow | attempt _ hrow =>
    exact hc.keep hrow rfl (fun _ _ _ => id) rfl id
  | extend hrow => exact hc.keep hrow rfl (fun _ _ _ => extendHolds_holds) rfl id
  | settle => exact fun k lease x hh => hc k lease x hh
  | request hrow hlive hu =>
    exact hc.keep hrow rfl (fun _ _ _ => id) rfl fun _ =>
      .inr ⟨rfl, by simpa [unresolved] using hu⟩
  | keepUnknown hrow hleased hu =>
    refine hc.keep hrow rfl (fun _ _ _ => id) rfl fun _ =>
      .inr ⟨?_, by simpa [unresolved] using hu⟩
    dsimp only
    split <;> rfl
  | bind hrow hrunning => exact hc.keep hrow hrow (fun _ _ _ => id) rfl fun _ => .inl hrunning
  | rebind hres =>
    intro k lease x hh
    obtain ⟨row, hrow, hlease, hactive⟩ := hc k lease x hh
    exact ⟨row, hrow, hlease, .inl (hactive.resolve_right fun h => hres h.2)⟩
  | wait hrow hqueued hres | admission hrow hqueued _ hres | fence hrow hqueued hres =>
    exact (hc.idle hrow (idle_of_waiting (.inl hqueued) hres)).covered (by rfl)
  | start hrow hstatus hres _ _ hlease _ =>
    have hfree := hc.idle hrow (idle_of_waiting hstatus hres)
    rintro k token x ⟨r, hr, hheld, rfl, rfl⟩
    dsimp only at hr
    split at hr
    next =>
      cases hr
      exact ⟨_, rfl, congrArg some hlease.symm, .inl rfl⟩
    next => exact absurd ⟨r, hr, hheld, rfl, rfl⟩ (hfree k _ _)
  | stop hrow _ _ hlease | withdraw hrow _ _ hlease | requeue hrow _ _ hlease
  | recover hrow _ _ hlease => exact hc.released hrow hlease
  | finish hrow _ _ hlease => exact hc.released hrow (.inl hlease)
  | finalize hrow | retry hrow | reopen hrow => exact hc.released hrow (.inl rfl)
  | replace hrow hstatus =>
    exact (hc.idle hrow (idle_of_done (Status.terminal_of_stopped hstatus))).covered rfl
  | retire hrow hdone => exact (hc.idle hrow (idle_of_done hdone)).covered rfl
  | create hcreated =>
    rintro k lease x ⟨r, hr, -⟩
    simp [hcreated.hold k] at hr

theorem Life.covered (h : Life now allowed v v') (hlift : ¬allowed .lift) (hc : v.Covered) :
    v'.Covered :=
  h.preserves (I := Covered) (fun ha hs => hs.covered fun e => hlift (e ▸ ha)) hc

/-! ## Resumes -/

/-- The lifting of a binding changes nothing else. -/
theorem Life.lift_eq (h : Life now allowed v v') (hlift : ∀ l, allowed l → l = .lift) :
    v' = { v with binding := v'.binding } := by
  refine h.relates (R := fun v v' => v' = { v with binding := v'.binding }) (fun _ => rfl)
    (fun {_ _ _} h h' => by rw [h', h]) fun {l v v'} ha hs => ?_
  obtain rfl := hlift l ha
  cases hs
  rfl

/-- Every attempt of the task is settled. -/
def State.AttemptsSettled (s : State) (t : TaskId) : Prop :=
  ∀ a x, s.attempts.lookup a = some x → x.taskId = t → x.settled = true

/-- What holds of every view and is kept by every step but the lifting of a binding is kept by a
command, if a resume that goes on to write does not lose it by the lifting. -/
theorem Inv.keeps {I : View → Prop} (hi : Inv s)
    (hpath : ∀ {now : Time} {allowed : Label → Prop} {v v' : View}, ¬allowed .lift →
      Life now allowed v v' → I v → I v')
    (hlift : ∀ r t b, c = .resumeAttempt r → s.Resumes env r t →
      I { s.view t with binding := b }) (hI : ∀ t, I (s.view t)) (t : TaskId) :
    I ((c.next env s).view t) := by
  by_cases hl : c.labels env s t .lift
  · obtain ⟨r, rfl, -⟩ := (Command.labels_rare hl).lift rfl
    show I ((s.resumeAttempt env r).1.view t)
    rcases hi.resumeAttempt_lifts env r with hsame | ⟨t', lifted, hr, hlifted, hgrant⟩
    · rw [hsame]
      exact hI t
    · refine hpath (by simp [grantLabels, Label.Background, Label.Quiet]) (hgrant.path t) ?_
      by_cases ht : t = t'
      · rw [(hlifted.path t).lift_eq fun _ hl => hl.2, ht]
        exact hlift r t' _ rfl hr
      · rw [(hlifted.path t).eq_of_none fun _ hl => ht hl.1]
        exact hI t
  · exact hpath hl (hi.next.path t) (hI t)

/-! ## Attempts of terminal tasks -/

/-- No resume goes on to write to a task that has an open attempt. -/
def Command.ResumesSettled (env : Env) (s : State) : Command → Prop
  | .resumeAttempt r => ∀ t, s.Resumes env r t → s.AttemptsSettled t
  | _ => True

theorem State.noneOpen_iff : (s.view t).NoneOpen ↔ s.AttemptsSettled t := by
  constructor
  · intro h a x hx ht
    exact h a x.grant (by simp [view, hx, ht])
  · intro h a g hg
    obtain ⟨x, hx, rfl⟩ := Option.map_eq_some_iff.mp hg
    obtain ⟨hx, ht⟩ := Option.filter_eq_some_iff.mp hx
    exact h a x hx (by simpa using ht)

theorem Inv.oneOpen (hi : Inv s) (hok : c.ResumesSettled env s) (ho : ∀ t, (s.view t).OneOpen)
    (t : TaskId) : ((c.next env s).view t).OneOpen := by
  refine hi.keeps (fun hl h => h.oneOpen hl) (fun r t b hr hres => ?_) ho t
  subst hr
  exact (noneOpen_iff.mpr (hok t hres)).oneOpen rfl

/-- In every run whose resumes meet the condition, every attempt of a terminal task is settled, and
the queries for its unsettled attempts find nothing. -/
theorem terminal_task_attempts_settled
    (hrun : Steps (fun s env c => c.ResumesSettled env s) .initial s)
    (hrow : s.tasks.lookup t = some row) (hdone : row.status.terminal = true) :
    (∀ a x, s.attempts.lookup a = some x → x.taskId = t → x.settled = true) ∧
      s.unsettledAttempts t = [] := by
  have hopen : ∀ t, (s.view t).OneOpen :=
    hrun.preserves .initial (I := fun s => ∀ t, (s.view t).OneOpen)
      (fun hi hok ho => hi.oneOpen hok ho) fun t a g hg => by cases hg
  have hnone := (hopen t).idle hrow (idle_of_done hdone)
  have hsettled : s.AttemptsSettled t := noneOpen_iff.mp hnone
  refine ⟨hsettled, ?_⟩
  simp only [unsettledAttempts, List.map_eq_nil_iff, List.filter_eq_nil_iff,
    Bool.and_eq_true, decide_eq_true_eq, Bool.not_eq_true', not_and]
  rintro ⟨a, x⟩ hmem ht
  simp [hsettled a x (Table.lookup_eq_some_iff.mpr hmem) ht]

/-- A local task is checkpointed, and a restart settles its attempt, releases its resource keys and
takes it back to the queue. -/
def localRestart (keys : List ResourceKey) : List (Env × Command) :=
  checkpointedFor {} none keys ++ [(.tick 6 "6", .beginRuntimeSession "boot-2" none)]

/-- The local task is resumed. -/
def localResume (keys : List ResourceKey) : State :=
  (Command.resumeAttempt (resumesFor {} 2)).next (.tick 7 "7")
    (initial.replay (localRestart keys))

/-- A condition on resumes says nothing about the steps before the local task is resumed. -/
theorem localRestart_ok {ok : State → Env → Command → Prop} (keys : List ResourceKey)
    (h : ∀ s env c, (∀ r, c ≠ .resumeAttempt r) → ok s env c) :
    Steps ok .initial (initial.replay (localRestart keys)) := by
  refine Steps.replay fun e he s => h s e.1 e.2 fun r hr => ?_
  simp only [localRestart, checkpointedFor, List.cons_append, List.nil_append, List.mem_cons,
    List.not_mem_nil, or_false] at he
  rcases he with rfl | rfl | rfl | rfl | rfl | rfl | rfl <;>
    simp [Command.registers, Command.claims] at hr

/-- The resumed local task is settled. -/
def localSettlement : State :=
  (Command.settles "attempt-7" "lease-7" 2 2 []).next (.tick 8 "8") (localResume [])

/-- The resume of the local task meets the condition, and both attempts of the task are settled. -/
theorem terminal_task_attempts_settled_local :
    (localSettlement.attempts.lookup "attempt-3").isSome = true ∧
      (localSettlement.attempts.lookup "attempt-7").isSome = true ∧
      localSettlement.unsettledAttempts "task-2" = [] := by
  have hbefore : Steps (fun s env c => c.ResumesSettled env s) .initial
      (initial.replay (localRestart [])) := by
    refine localRestart_ok [] fun s env c hc => ?_
    cases c <;> first | trivial | exact absurd rfl (hc _)
  have hsettled : ∀ e ∈ (initial.replay (localRestart [])).attempts.entries,
      e.2.settled = true := by decide +kernel
  have hresume : (Command.resumeAttempt (resumesFor {} 2)).ResumesSettled (.tick 7 "7")
      (initial.replay (localRestart [])) :=
    fun _ _ a x hx _ => hsettled (a, x) (Table.lookup_eq_some_iff.mp hx)
  have hrun : Steps (fun s env c => c.ResumesSettled env s) .initial localSettlement :=
    (hbefore.trans (.single hresume)).trans (.single trivial)
  obtain ⟨row, hrow, hdone⟩ : ∃ row, localSettlement.tasks.lookup "task-2" = some row ∧
      row.status.terminal = true := by decide +kernel
  exact ⟨by decide +kernel, by decide +kernel, (terminal_task_attempts_settled hrun hrow hdone).2⟩

/-- The restart keeps the attempt of the marked task open. The resume starts another attempt, and the
task is completed by it. -/
def resumedAndSettled : State :=
  initial.replay (checkpointedRun [] ++
    [(.tick 6 "6", .beginRuntimeSession "boot-2" none),
      (.tick 7 "7", .resumeAttempt (checkpointResume 2)),
      (.tick 8 "8", .settles "attempt-7" "lease-7" 2 2 [])])

theorem resumed_attempt_stays_open :
    Reachable resumedAndSettled ∧
      (resumedAndSettled.tasks.lookup "task-2").map (·.status) = some .completed ∧
      resumedAndSettled.unsettledAttempts "task-2" = ["attempt-3"] :=
  ⟨Reachable.replay _, by decide +kernel⟩

/-! ## Reservations -/

/-- The task runs. -/
def State.Runs (s : State) (t : TaskId) : Prop :=
  ∃ row, s.tasks.lookup t = some row ∧ row.status = .running

/-- Every reservation of the task is released. -/
def State.Unreserved (s : State) (t : TaskId) : Prop :=
  ∀ k r, s.reservations.lookup (t, k) = some r → r.releasedAt ≠ none

/-- No resume goes on to write to a task that does not run and holds an unreleased reservation. -/
def Command.ResumesUnreserved (env : Env) (s : State) : Command → Prop
  | .resumeAttempt r => ∀ t, s.Resumes env r t → s.Runs t ∨ s.Unreserved t
  | _ => True

theorem Inv.covered (hi : Inv s) (hok : c.ResumesUnreserved env s) (hc : ∀ t, (s.view t).Covered)
    (t : TaskId) : ((c.next env s).view t).Covered := by
  refine hi.keeps (fun hl h => h.covered hl) (fun r t b hr hres => ?_) hc t
  subst hr
  rcases hok t hres with ⟨row, hrow, hrunning⟩ | hfree
  · exact (hc t).keep hrow hrow (fun _ _ _ => id) rfl fun _ => .inl hrunning
  · rintro k lease x ⟨r, hr, hheld, -⟩
    exact absurd hheld (hfree k r hr)

/-- In every run whose resumes meet the condition, a resource key of an executor is held by one task
at most, and an unreleased reservation is one of a task that runs, is to be cancelled or is marked, and
that is not terminal. -/
theorem reservations_of_active_tasks
    (hrun : Steps (fun s env c => c.ResumesUnreserved env s) .initial s) :
    (∀ t t' k r r', s.reservations.lookup (t, k) = some r → s.reservations.lookup (t', k) = some r' →
      r.releasedAt = none → r'.releasedAt = none → r.executorId = r'.executorId → t = t') ∧
    ∀ t k r, s.reservations.lookup (t, k) = some r → r.releasedAt = none →
      ∃ row, s.tasks.lookup t = some row ∧ row.status.terminal = false ∧
        (row.status = .running ∨ row.status = .cancelRequested ∨ row.unknown = true) := by
  have hi := hrun.inv .initial
  have hcovered : ∀ t, (s.view t).Covered :=
    hrun.preserves .initial (I := fun s => ∀ t, (s.view t).Covered)
      (fun hi hok hc => hi.covered hok hc) fun t k lease x hh => by
        obtain ⟨r, hr, -⟩ := hh
        cases hr
  refine ⟨fun t t' k r r' hr hr' hheld hheld' hx => ?_, fun t k r hr hheld => ?_⟩
  · exact hi.unique t t' k r.leaseToken r'.leaseToken r.executorId ⟨r, hr, hheld, rfl, rfl⟩
      ⟨r', hr', hheld', rfl, hx.symm⟩
  · obtain ⟨row, hrow, -, hactive⟩ := hcovered t k r.leaseToken r.executorId ⟨r, hr, hheld, rfl, rfl⟩
    rcases hactive with hrunning | ⟨hlive, hu⟩
    · exact ⟨row, hrow, by simp [hrunning, Status.terminal], .inl hrunning⟩
    · refine ⟨row, hrow, hlive, ?_⟩
      have hmarked := ((hi.view t).row row hrow).queued_marked
      cases hstatus : row.status with
      | queued => exact .inr (.inr (hmarked hstatus hu))
      | running => exact .inl rfl
      | cancelRequested => exact .inr (.inl rfl)
      | completed | failed | cancelled => simp [hstatus, Status.terminal] at hlive

/-- The resume of the local task meets the condition; the key is reserved again, for the running
task. -/
theorem reservations_of_active_tasks_local :
    (∃ r, (localResume ["k"]).reservations.lookup ("task-2", "k") = some r ∧
      r.releasedAt = none) ∧
    ∃ row, (localResume ["k"]).tasks.lookup "task-2" = some row ∧ row.status.terminal = false ∧
      (row.status = .running ∨ row.status = .cancelRequested ∨ row.unknown = true) := by
  have hbefore : Steps (fun s env c => c.ResumesUnreserved env s) .initial
      (initial.replay (localRestart ["k"])) := by
    refine localRestart_ok ["k"] fun s env c hc => ?_
    cases c <;> first | trivial | exact absurd rfl (hc _)
  have hreleased : ∀ e ∈ (initial.replay (localRestart ["k"])).reservations.entries,
      e.2.releasedAt ≠ none := by decide +kernel
  have hresume : (Command.resumeAttempt (resumesFor {} 2)).ResumesUnreserved (.tick 7 "7")
      (initial.replay (localRestart ["k"])) :=
    fun t _ => .inr fun k r hr => hreleased ((t, k), r) (Table.lookup_eq_some_iff.mp hr)
  obtain ⟨r, hr, hheld⟩ : ∃ r, (localResume ["k"]).reservations.lookup ("task-2", "k") = some r ∧
      r.releasedAt = none := by decide +kernel
  exact ⟨⟨r, hr, hheld⟩, (reservations_of_active_tasks (hbefore.trans (.single hresume))).2 _ _ r hr
    hheld⟩

/-- A restart marks the task, which keeps its resource key; the capability no longer needs the key
when the task is resumed and settled. -/
def resumedWithoutKey : State :=
  initial.replay (checkpointedRun ["k"] ++
    [(.tick 6 "6", .beginRuntimeSession "boot-2" none),
      (.tick 7 "7", .registerCapability "c"
        { definitionDigest := "d", status := .ready, requiredResourceKeys := []
          estimatedScratchBytes := 0, estimatedOutputBytes := 0, unavailableReason := none }),
      (.tick 8 "8", .resumeAttempt (checkpointResume 2)),
      (.tick 9 "9", .settles "attempt-8" "lease-8" 2 2 [])])

theorem completed_task_keeps_key :
    Reachable resumedWithoutKey ∧
      (resumedWithoutKey.tasks.lookup "task-2").map (·.status) = some .completed ∧
      (resumedWithoutKey.reservations.lookup ("task-2", "k")).map (·.releasedAt) = some none :=
  ⟨Reachable.replay _, by decide +kernel⟩

end WorkspaceRuntime
