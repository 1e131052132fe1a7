import WorkspaceRuntime.Lifecycle.WellFormed
import WorkspaceRuntime.Store.Settlement

/-!
# How a realm evolves

`Evolves now A s s'` says what a piece of a command does to the whole realm: every task goes through
a path of its automaton whose labels `A` allows for it, the other tables only grow, and the realm's
invariant `Inv` is kept. It is reflexive and transitive, so that the commands are covered statement
by statement.
-/

namespace WorkspaceRuntime

open Fallible State Table

/-! ## The tables beside the tasks -/

/-- The attempt rows name the same lease; a settled attempt stays settled. -/
structure Attempt.SameLease (x x' : Attempt) : Prop where
  taskId : x'.taskId = x.taskId
  leaseId : x'.leaseId = x.leaseId
  fence : x'.fence = x.fence
  executorId : x'.executorId = x.executorId
  runtimeEpoch : x'.runtimeEpoch = x.runtimeEpoch
  settled : x.settled = true → x'.settled = true

theorem Attempt.SameLease.refl (x : Attempt) : x.SameLease x :=
  ⟨rfl, rfl, rfl, rfl, rfl, id⟩

variable {x : Attempt} {now : Time} {A A' L : TaskId → Label → Prop} {s s' s₁ s₂ s₃ : State}
  {t : TaskId}

theorem Attempt.SameLease.trans {y z : Attempt} (h : x.SameLease y) (h' : y.SameLease z) :
    x.SameLease z :=
  ⟨h'.taskId.trans h.taskId, h'.leaseId.trans h.leaseId, h'.fence.trans h.fence,
    h'.executorId.trans h.executorId, h'.runtimeEpoch.trans h.runtimeEpoch,
    fun hs => h'.settled (h.settled hs)⟩

theorem Attempt.SameLease.grant {x' : Attempt} (h : x.SameLease x')
    (hsettled : x'.settled = x.settled) : x'.grant = x.grant := by
  simp [Attempt.grant, h.leaseId, h.fence, h.executorId, h.runtimeEpoch, hsettled]

/-- A run keeps what it was created as. -/
structure Run.Same (x x' : Run) : Prop where
  projectId : x'.projectId = x.projectId
  idempotencyKey : x'.idempotencyKey = x.idempotencyKey

theorem Run.Same.refl (x : Run) : x.Same x := ⟨rfl, rfl⟩

theorem Run.Same.trans {x y z : Run} (h : x.Same y) (h' : y.Same z) : x.Same z :=
  ⟨h'.projectId.trans h.projectId, h'.idempotencyKey.trans h.idempotencyKey⟩

/-- What only grows beside the tasks. -/
structure Grow (s s' : State) : Prop where
  epoch : s.currentRuntimeEpoch ≤ s'.currentRuntimeEpoch
  attempts : ∀ a x, s.attempts.lookup a = some x →
    ∃ x', s'.attempts.lookup a = some x' ∧ x.SameLease x'
  runs : ∀ r x, s.runs.lookup r = some x → ∃ x', s'.runs.lookup r = some x' ∧ x.Same x'
  objects : ∀ d ∈ s.objects, d ∈ s'.objects
  projectObjects : ∀ e ∈ s.projectObjects, e ∈ s'.projectObjects

theorem Grow.refl (s : State) : Grow s s where
  epoch := le_rfl
  attempts _ x h := ⟨x, h, .refl x⟩
  runs _ x h := ⟨x, h, .refl x⟩
  objects _ h := h
  projectObjects _ h := h

theorem Grow.trans {s₁ s₂ s₃ : State} (h : Grow s₁ s₂) (h' : Grow s₂ s₃) : Grow s₁ s₃ where
  epoch := h.epoch.trans h'.epoch
  attempts a x hx := by
    obtain ⟨y, hy, hxy⟩ := h.attempts a x hx
    obtain ⟨z, hz, hyz⟩ := h'.attempts a y hy
    exact ⟨z, hz, hxy.trans hyz⟩
  runs r x hx := by
    obtain ⟨y, hy, hxy⟩ := h.runs r x hx
    obtain ⟨z, hz, hyz⟩ := h'.runs r y hy
    exact ⟨z, hz, hxy.trans hyz⟩
  objects d hd := h'.objects d (h.objects d hd)
  projectObjects e he := h'.projectObjects e (h.projectObjects e he)

/-! ## The invariant of a realm -/

/-- The project of a task. -/
def State.projectOf (s : State) (t : TaskId) : Option (Option ProjectId) :=
  (s.tasks.lookup t).bind fun row => (s.runs.lookup row.runId).map (·.projectId)

/-- The result lists outputs that are stored and associated with the project of the task. -/
def State.Published (s : State) (t : TaskId) (result : Option Json) : Prop :=
  ∃ staged : List StagedOutput,
    (result.bind (·.get? "outputs")) = some (.arr (staged.map StagedOutput.toJson)) ∧
    ∀ o ∈ staged, o.digest ∈ s.objects ∧
      ∀ p, s.projectOf t = some (some p) → (p, o.digest) ∈ s.projectObjects

/-- Every spec that a task names is stored. -/
def State.SpecsStored (s : State) : Prop :=
  ∀ t row sp, s.tasks.lookup t = some row → row.spec = some sp → sp ∈ s.specs

/-- Every attempt is of this epoch or an earlier one, and of a fence its task has reached. -/
def State.AttemptsFenced (s : State) : Prop :=
  ∀ a x, s.attempts.lookup a = some x → x.runtimeEpoch ≤ s.currentRuntimeEpoch ∧
    ∃ row, s.tasks.lookup x.taskId = some row ∧ x.fence ≤ row.leaseFence

/-- Every stored capability value of an executor identifies a registered capability. -/
def State.ExecutorsRegistered (s : State) : Prop :=
  ∀ e x, s.executors.lookup e = some x → ∀ value ∈ x.capabilities,
    s.checkExecutorCapability value = .ok ()

/-- The part of the invariant that is about tables which the tasks share. -/
structure Shared (s : State) : Prop where
  spec : s.SpecsStored
  attempt : s.AttemptsFenced
  executors : s.ExecutorsRegistered

/-- The parent of a delegated task exists and is not delegated itself, and the attempt that the
lineage names is one of its attempts, under the lease that the lineage names. -/
structure View.Roots (v : View) (lin : Lineage) : Prop where
  row : v.row ≠ none
  lineage : v.lineage = none
  grant : ∃ g, v.grant lin.parentAttemptId = some g ∧ g.leaseId = lin.parentLeaseId ∧
    g.fence = lin.parentFence ∧ g.runtimeEpoch = lin.runtimeEpoch

/-- The invariant of a realm. -/
structure Inv (s : State) : Prop extends Shared s where
  view : ∀ t, (s.view t).Wf
  run : ∀ t row, s.tasks.lookup t = some row → s.runs.lookup row.runId ≠ none
  /-- A run has one task. -/
  single : ∀ t t' row row', s.tasks.lookup t = some row → s.tasks.lookup t' = some row' →
    row.runId = row'.runId → t = t'
  lineage : ∀ t lin, (s.view t).lineage = some lin → (s.view lin.parentTaskId).Roots lin
  dep : ∀ c i p, s.dependencies.lookup (c, i) = some p →
    p ≠ c ∧ s.projectOf p ≠ none ∧ s.projectOf p = s.projectOf c
  result : ∀ t result, (s.view t).Done result → s.Published t result
  unique : ∀ t t' k lease lease' x,
    (s.view t).Holds k lease x → (s.view t').Holds k lease' x → t = t'

/-! ## Evolution -/

/-- The children of a continuation that was admitted on the way are completed with the outputs that
they were resolved to, unless one was opened again since. -/
def AdmitsDone (A : TaskId → Label → Prop) (s s' : State) : Prop :=
  ∀ t adm, s.admissions.lookup t = none → s'.admissions.lookup t = some adm →
    ∀ c ∈ adm.children, (s'.view c.taskId).Resolves c ∨ A c.taskId .reopen

/-- Every task goes through a path with the labels that `A` allows for it, the other tables grow,
continuations are admitted when their predecessors are done, and the invariant is kept. -/
structure Evolves (now : Time) (A : TaskId → Label → Prop) (s s' : State) : Prop where
  path : ∀ t, Life now (A t) (s.view t) (s'.view t)
  grow : Grow s s'
  admits : AdmitsDone A s s'
  inv : Inv s → Inv s'

/-- Without the label of an admission there is none. -/
theorem AdmitsDone.of_path (hpath : ∀ t, Life now (L t) (s.view t) (s'.view t))
    (hno : ∀ t, ¬L t .admission) :
    AdmitsDone A s s' := by
  intro t adm hnone hsome
  have hback := (hpath t).admission_of (hno t) hsome
  exact absurd (hnone.symm.trans hback) (by simp)

theorem AdmitsDone.refl (s : State) : AdmitsDone A s s := by
  intro t adm hnone hsome
  simp [hnone] at hsome

theorem Evolves.refl (s : State) : Evolves now A s s :=
  ⟨fun _ => .refl _, .refl s, .refl s, id⟩

theorem Evolves.trans (h : Evolves now A s₁ s₂) (h' : Evolves now A s₂ s₃) :
    Evolves now A s₁ s₃ := by
  refine ⟨fun t => (h.path t).trans (h'.path t), h.grow.trans h'.grow, ?_,
    fun hi => h'.inv (h.inv hi)⟩
  intro t adm hnone hsome c hc
  cases hadm : s₂.admissions.lookup t with
  | none => exact h'.admits t adm hadm hsome c hc
  | some adm₂ =>
    have hkept := (h'.path t).later.admission adm₂ hadm
    obtain rfl := Option.mem_unique hkept hsome
    rcases h.admits t adm₂ hnone hadm c hc with hdone | hreopen
    · by_cases hr : A c.taskId .reopen
      · exact .inr hr
      · exact .inl ((h'.path c.taskId).resolves hr hdone)
    · exact .inr hreopen

theorem Evolves.mono (h : Evolves now A s s') (hsub : ∀ t l, A t l → A' t l) :
    Evolves now A' s s' :=
  ⟨fun t => (h.path t).mono (hsub t), h.grow,
    fun t adm hnone hsome c hc => (h.admits t adm hnone hsome c hc).imp id (hsub _ _), h.inv⟩

/-- A loop evolves the realm if each of its rounds does, from wherever the rounds before it led. -/
theorem Evolves.loop {α : Type} {l : List α} {round : State → α → Except Err State} (hi : Inv s)
    (hround : ∀ a ∈ l, ∀ {s₁ s₂}, Inv s₁ → Evolves now A s s₁ → round s₁ a = .ok s₂ →
      Evolves now A s₁ s₂) (h : l.foldlM round s = .ok s') : Evolves now A s s' := by
  have hrel := foldlM_rel
    (R := fun s₁ s₂ => Inv s₁ → Evolves now A s s₁ → Evolves now A s₁ s₂)
    (fun _ _ _ => .refl _)
    (fun h₁ h₂ hi₁ he => (h₁ hi₁ he).trans (h₂ ((h₁ hi₁ he).inv hi₁) (he.trans (h₁ hi₁ he))))
    (fun a ha _ _ hstep hi₁ he => hround a ha hi₁ he hstep) h
  exact hrel hi (.refl s)

/-- A loop over items with distinct keys: a round needs what holds of its own item, and keeps what
holds of the items with other keys. -/
theorem Evolves.rounds {α : Type} {l : List α} (key : α → TaskId) {P : α → State → Prop}
    {round : State → α → Except Err State} (hi : Inv s) (hnodup : (l.map key).Nodup)
    (hpre : ∀ a ∈ l, P a s)
    (hround : ∀ {a s₁ s₂}, Inv s₁ → P a s₁ → round s₁ a = .ok s₂ → Evolves now A s₁ s₂ ∧
      ∀ b, key b ≠ key a → P b s₁ → P b s₂) (h : l.foldlM round s = .ok s') :
    Evolves now A s s' := by
  refine (foldlM_rest (fun rest s₁ => Evolves now A s s₁ ∧ (rest.map key).Nodup ∧
    ∀ a ∈ rest, P a s₁) ?_ ⟨.refl s, hnodup, hpre⟩ h).1
  rintro a rest s₁ s₂ ⟨hev, hnd, hall⟩ hstep
  rw [List.map_cons, List.nodup_cons] at hnd
  obtain ⟨hev', hkeep⟩ := hround (hev.inv hi) (hall a List.mem_cons_self) hstep
  refine ⟨hev.trans hev', hnd.2, fun b hb => hkeep b (fun he => hnd.1 ?_)
    (hall b (.tail _ hb))⟩
  exact he ▸ List.mem_map_of_mem hb

/-- The project of a task does not change. -/
theorem State.projectOf_mono {p : Option ProjectId} (hp : s.projectOf t = some p)
    (hl : (s.view t).Later (s'.view t)) (hg : Grow s s') : s'.projectOf t = some p := by
  obtain ⟨row, hrow, hrun⟩ := Option.bind_eq_some_iff.mp hp
  obtain ⟨run, hr, rfl⟩ := Option.map_eq_some_iff.mp hrun
  obtain ⟨row', hrow', hid, -⟩ := hl.row row hrow
  obtain ⟨run', hr', hproj⟩ := hg.runs _ run hr
  have hrow' : s'.tasks.lookup t = some row' := hrow'
  simp [projectOf, hrow', hid, hr', hproj.projectId]

theorem Inv.projectOf_row {row : Task} (h : Inv s) (hrow : s.tasks.lookup t = some row) :
    ∃ run, s.runs.lookup row.runId = some run ∧ s.projectOf t = some run.projectId := by
  obtain ⟨run, hrun⟩ := Option.ne_none_iff_exists'.mp (h.run t row hrow)
  exact ⟨run, hrun, by simp [projectOf, hrow, hrun]⟩

/-- The results of completed tasks are published. -/
def State.ResultPublished (s : State) (t : TaskId) : Prop :=
  ∀ result, (s.view t).Done result → s.Published t result

/-- No other task holds a resource key of the same executor that this task holds. -/
def State.HoldsAlone (s : State) (t : TaskId) : Prop :=
  ∀ t' k lease lease' x, (s.view t).Holds k lease x → (s.view t').Holds k lease' x → t = t'

/-- A parent stays one. -/
theorem Life.roots {allowed : Label → Prop} {v v' : View} {lin : Lineage}
    (h : Life now allowed v v') (hcreate : ∀ lin, ¬allowed (.create lin)) (hroots : v.Roots lin) :
    v'.Roots lin := by
  obtain ⟨row, hrow⟩ := Option.ne_none_iff_exists'.mp hroots.row
  obtain ⟨row', hrow', -⟩ := h.later.row row hrow
  obtain ⟨g, hg, hlease, hfence, hepoch⟩ := hroots.grant
  obtain ⟨g', hg', hsame⟩ := h.later.grant _ g hg
  refine ⟨by simp [hrow'], ?_, g', hg', hsame.leaseId.trans hlease, hsame.fence.trans hfence,
    hsame.runtimeEpoch.trans hepoch⟩
  cases hp : v'.lineage with
  | none => rfl
  | some lin' =>
    have := (h.lineage_of_some hp).resolve_right (hcreate _)
    simp [hroots.lineage] at this

/-- The invariant survives paths without a creation, if the parts of it that other tables share are
kept, a settlement publishes its result, and a claim takes free keys. -/
theorem Inv.of_path (h : Inv s) (hpath : ∀ t, Life now (A t) (s.view t) (s'.view t))
    (hgrow : Grow s s') (hcreate : ∀ t lin, ¬A t (.create lin)) (hshared : Shared s')
    (hfinish : ∀ t, A t .finish → s'.ResultPublished t)
    (hstart : ∀ t, A t .start → s'.HoldsAlone t) : Inv s' := by
  have hlater := fun t => (hpath t).later
  have hback : ∀ t row', s'.tasks.lookup t = some row' →
      ∃ row, s.tasks.lookup t = some row ∧ row'.runId = row.runId := by
    intro t row' hrow'
    cases hrow : s.tasks.lookup t with
    | some row =>
      obtain ⟨row₁, hrow₁, hid, -⟩ := (hlater t).row row hrow
      obtain rfl := Option.mem_unique hrow₁ hrow'
      exact ⟨row, rfl, hid⟩
    | none =>
      have hnone : (s'.view t).row = none := (hpath t).row_none (hcreate t) hrow
      exact absurd (hrow'.symm.trans hnone) (by simp)
  have hproj : ∀ t p, s'.projectOf t = some p → s.projectOf t = some p := by
    intro t p hp
    obtain ⟨row', hrow', -⟩ := Option.bind_eq_some_iff.mp hp
    obtain ⟨row, hrow, -⟩ := hback t row' hrow'
    obtain ⟨run, -, hs⟩ := h.projectOf_row hrow
    rw [hs, ← hp, projectOf_mono hs (hlater t) hgrow]
  refine ⟨hshared, fun t => (hpath t).wf (h.view t), ?_, ?_, ?_, ?_, ?_, ?_⟩
  · intro t row' hrow'
    obtain ⟨row, hrow, hid⟩ := hback t row' hrow'
    obtain ⟨run, hrun⟩ := Option.ne_none_iff_exists'.mp (h.run t row hrow)
    obtain ⟨run', hrun', -⟩ := hgrow.runs _ run hrun
    simp [hid, hrun']
  · intro t₁ t₂ row₁' row₂' hrow₁' hrow₂' hid
    obtain ⟨row₁, hrow₁, hid₁⟩ := hback t₁ row₁' hrow₁'
    obtain ⟨row₂, hrow₂, hid₂⟩ := hback t₂ row₂' hrow₂'
    exact h.single t₁ t₂ row₁ row₂ hrow₁ hrow₂ (hid₁.symm.trans (hid.trans hid₂))
  · intro t lin hlin
    exact (hpath lin.parentTaskId).roots (hcreate _)
      (h.lineage t lin (((hpath t).lineage_of_some hlin).resolve_right (hcreate t _)))
  · intro c i p hdep
    have hdep' : s.dependencies.lookup (c, i) = some p := by
      cases hrow : (s.view c).row with
      | none =>
        have hwf := (hpath c).wf (h.view c)
        have hblank := hwf.blank ((hpath c).row_none (hcreate c) hrow)
        have : (s'.view c).dep i = none := by rw [hblank]; rfl
        exact absurd (hdep.symm.trans this) (by simp)
      | some row =>
        have := congrFun ((hlater c).dep (by simp [hrow])) i
        exact this.symm.trans hdep
    obtain ⟨hne, hsome, heq⟩ := h.dep c i p hdep'
    obtain ⟨q, hq⟩ := Option.ne_none_iff_exists'.mp hsome
    have hp' := projectOf_mono hq (hlater p) hgrow
    have hc' := projectOf_mono (heq ▸ hq) (hlater c) hgrow
    exact ⟨hne, by simp [hp'], hp'.trans hc'.symm⟩
  · intro t result hdone
    by_cases hf : A t .finish
    · exact hfinish t hf result hdone
    · obtain ⟨staged, hout, hpub⟩ := h.result t result ((hpath t).done_of hf hdone)
      refine ⟨staged, hout, fun o ho => ⟨hgrow.objects _ (hpub o ho).1, fun p hp => ?_⟩⟩
      exact hgrow.projectObjects _ ((hpub o ho).2 p (hproj t _ hp))
  · intro t t' k lease lease' x hh hh'
    by_cases hs : A t .start
    · exact hstart t hs t' k lease lease' x hh hh'
    · by_cases hs' : A t' .start
      · exact (hstart t' hs' t k lease' lease x hh' hh).symm
      · exact h.unique t t' k lease lease' x ((hpath t).holds_of hs hh) ((hpath t').holds_of hs' hh')

/-! ## Tables that stay as they are -/

/-- The tables beside the tasks are as they were; specs may be added. -/
structure SameTables (s s' : State) : Prop where
  lifecycle : s'.lifecycle = s.lifecycle
  runs : s'.runs = s.runs
  attempts : s'.attempts = s.attempts
  specs : ∀ sp ∈ s.specs, sp ∈ s'.specs
  objects : s'.objects = s.objects
  projectObjects : s'.projectObjects = s.projectObjects
  executors : s'.executors = s.executors
  capabilities : s'.capabilities = s.capabilities

theorem SameTables.refl (s : State) : SameTables s s :=
  ⟨rfl, rfl, rfl, fun _ h => h, rfl, rfl, rfl, rfl⟩

theorem SameTables.trans (h : SameTables s₁ s₂) (h' : SameTables s₂ s₃) : SameTables s₁ s₃ :=
  ⟨h'.lifecycle.trans h.lifecycle, h'.runs.trans h.runs, h'.attempts.trans h.attempts,
    fun sp hsp => h'.specs sp (h.specs sp hsp), h'.objects.trans h.objects,
    h'.projectObjects.trans h.projectObjects, h'.executors.trans h.executors,
    h'.capabilities.trans h.capabilities⟩

theorem SameTables.grow (h : SameTables s s') : Grow s s' :=
  ⟨by simp [currentRuntimeEpoch, h.lifecycle], fun _ x hx => ⟨x, h.attempts ▸ hx, .refl x⟩,
    fun _ x hx => ⟨x, h.runs ▸ hx, .refl x⟩, fun _ hd => h.objects ▸ hd,
    fun _ he => h.projectObjects ▸ he⟩

theorem SameTables.executorsRegistered (h : SameTables s s') (he : s.ExecutorsRegistered) :
    s'.ExecutorsRegistered := by
  intro e x hx value hv
  have := he e x (h.executors ▸ hx) value hv
  simpa [checkExecutorCapability, h.capabilities] using this

/-- The attempts stay fenced when their table does not change and no fence goes back. -/
theorem SameTables.attemptsFenced (h : SameTables s s') (ha : s.AttemptsFenced)
    (hlater : ∀ t, (s.view t).Later (s'.view t)) : s'.AttemptsFenced := by
  intro a x hx
  obtain ⟨hepoch, row, hrow, hfence⟩ := ha a x (h.attempts ▸ hx)
  obtain ⟨row', hrow', -, -, hle, -⟩ := (hlater x.taskId).row row hrow
  exact ⟨by simpa [currentRuntimeEpoch, h.lifecycle] using hepoch, row', hrow',
    hfence.trans hle⟩

/-- The labels that keep the invariant without further conditions. -/
def Label.tame : Label → Bool
  | create _ | start | finish | admission => false
  | _ => true

theorem Status.tame_stopLabel (status : Status) : status.stopLabel.tame = true := by
  cases status <;> rfl

/-- Statements that move tasks by tame steps. -/
theorem Evolves.tame (hpath : ∀ t, Life now (L t) (s.view t) (s'.view t))
    (hsub : ∀ t l, L t l → A t l) (htame : ∀ t l, L t l → l.tame = true) (hgrow : Grow s s')
    (hshared : Shared s → Shared s') :
    Evolves now A s s' :=
  ⟨fun t => (hpath t).mono (hsub t), hgrow,
    .of_path hpath fun t hl => Bool.false_ne_true (htame t _ hl),
    fun h => h.of_path hpath hgrow (fun t _ hl => Bool.false_ne_true (htame t _ hl))
      (hshared h.toShared) (fun t hl => absurd (htame t _ hl) Bool.false_ne_true)
      fun t hl => absurd (htame t _ hl) Bool.false_ne_true⟩

/-! ## Statements that leave the tasks alone -/

/-- A statement that changes no view. -/
theorem Evolves.frame (hview : ∀ t, s'.view t = s.view t) (hgrow : Grow s s')
    (hshared : Shared s → Shared s') : Evolves now A s s' :=
  .tame (L := fun _ _ => False) (fun t => .of_eq (hview t).symm) (fun _ _ => False.elim)
    (fun _ _ => False.elim) hgrow hshared

/-- A statement that changes no view and no table beside the tasks. -/
theorem SameTables.shared (h : SameTables s s') (hview : ∀ t, s'.view t = s.view t)
    (hs : Shared s) : Shared s' where
  spec t row sp hrow hsp :=
    h.specs sp (hs.spec t row sp ((congrArg View.row (hview t)).symm.trans hrow) hsp)
  attempt := h.attemptsFenced hs.attempt fun t => (hview t).symm ▸ .refl _
  executors := h.executorsRegistered hs.executors

/-- The tables that the invariant reads. -/
def State.core (s : State) : State :=
  { s with projects := [], checkpoints := .empty, receipts := .empty, sessionReceipts := .empty }

/-- Only checkpoints, projects and receipts are written. -/
def Records (s s' : State) : Prop := s'.core = s.core

/-- Checkpoints are on no path, nor are receipts. -/
theorem Records.evolves (h : Records s s') : Evolves now A s s' := by
  have hview : ∀ t, s'.view t = s.view t := fun t =>
    show s'.core.view t = s.core.view t by rw [h]
  have hcore : SameTables s.core s'.core := h ▸ SameTables.refl _
  refine .frame hview { hcore.grow with } fun hs => ?_
  have hshared : Shared s'.core := hcore.shared hview { hs with }
  exact { hshared with }

/-- The placement decision that an event records. -/
def EventKind.decision : EventKind → Option PlacementDecision
  | placementRecovered decision => some decision
  | _ => none

theorem State.placementDecision_eq (t : TaskId) (e : Event) :
    placementDecision t e = if e.taskId = some t then e.kind.decision else none := by
  unfold placementDecision EventKind.decision
  split <;> simp_all

/-- An event that is no placement decision is on no path. -/
theorem State.view_appendEvent (r : RunId) (u : Option TaskId) {kind : EventKind} (at_ : Time)
    (hkind : kind.decision = none) (t : TaskId) : (s.appendEvent r u kind at_).view t = s.view t := by
  have hnone : placementDecision t { runId := r, taskId := u, kind, createdAt := at_ } = none := by
    rw [placementDecision_eq, hkind, ite_self]
  simp only [view, appendEvent, List.filterMap_append, List.filterMap_cons, hnone,
    List.filterMap_nil, List.append_nil]

theorem Evolves.appendEvent (r : RunId) (u : Option TaskId) (kind : EventKind) (at_ : Time)
    (hkind : kind.decision = none := by rfl) : Evolves now A s (s.appendEvent r u kind at_) := by
  have hview := s.view_appendEvent r u at_ hkind
  have htables : SameTables s (s.appendEvent r u kind at_) :=
    ⟨rfl, rfl, rfl, fun _ h => h, rfl, rfl, rfl, rfl⟩
  exact .frame hview htables.grow (htables.shared hview)

/-- A new status or spec of a run. -/
theorem Evolves.modifyRun (r : RunId) (f : Run → Run) (hf : ∀ x : Run, x.Same (f x)) :
    Evolves now A s { s with runs := s.runs.modify r f } := by
  refine .frame (fun _ => rfl) { Grow.refl s with runs := ?_ } fun hs => { hs with }
  intro r' x hx
  simp only [lookup_modify, hx]
  split
  · exact ⟨f x, rfl, hf x⟩
  · exact ⟨x, rfl, .refl x⟩

theorem Evolves.setRunStatus (r : RunId) (status : Status) (at_ : Time) :
    Evolves now A s (s.setRunStatus r status at_) :=
  .modifyRun r _ fun _ => ⟨rfl, rfl⟩

theorem Evolves.requeueRun (r : RunId) (at_ : Time) : Evolves now A s (s.requeueRun r at_) :=
  .modifyRun r _ fun x => by split <;> exact ⟨rfl, rfl⟩

theorem Evolves.putRunSpec (r : RunId) (spec : TaskSpec) : Evolves now A s (s.putRunSpec r spec) :=
  .modifyRun r _ fun _ => ⟨rfl, rfl⟩

/-! ## Attempts -/

theorem State.view_grant_modify (a : AttemptId) (f : Attempt → Attempt) (t : TaskId)
    (hx : s.attempts.lookup a = some x) (hf : x.SameLease (f x)) :
    { s with attempts := s.attempts.modify a f }.view t =
      if x.taskId = t ∧ (f x).settled ≠ x.settled then
        { s.view t with grant := settleGrants a (s.view t).grant }
      else s.view t := by
  have hgrant : ∀ b, ((({ s with attempts := s.attempts.modify a f } : State).attempts.lookup
      b).filter (·.taskId = t)).map Attempt.grant =
      if b = a then if x.taskId = t then some (f x).grant else none else (s.view t).grant b := by
    intro b
    simp only [lookup_modify]
    by_cases hb : b = a
    · subst hb
      by_cases ht : x.taskId = t <;> simp [hx, Option.filter, hf.taskId, ht]
    · simp [hb, view]
  split
  next hcond =>
    obtain ⟨ht, hne⟩ := hcond
    have hsettled : x.settled = false ∧ (f x).settled = true := by
      have := hf.settled
      cases h₁ : x.settled <;> cases h₂ : (f x).settled <;> simp_all
    refine View.ext rfl rfl rfl rfl rfl (funext fun b => (hgrant b).trans ?_) rfl
    by_cases hb : b = a
    · subst hb
      simp [settleGrants, view, hx, Option.filter, ht, Attempt.grant, hf.leaseId, hf.fence,
        hf.executorId, hf.runtimeEpoch, hsettled.2]
    · simp [settleGrants, hb]
  next hcond =>
    refine View.ext rfl rfl rfl rfl rfl (funext fun b => (hgrant b).trans ?_) rfl
    by_cases hb : b = a
    · subst hb
      by_cases ht : x.taskId = t
      · have hsame : (f x).settled = x.settled := by
          by_contra hne
          exact hcond ⟨ht, hne⟩
        simp [view, hx, Option.filter, ht, hf.grant hsame]
      · simp [view, hx, Option.filter, ht]
    · simp [hb]

/-- A new deadline, nonce or settlement of an attempt; a settlement is a note of its task. -/
theorem Evolves.modifyAttempt (a : AttemptId) (f : Attempt → Attempt)
    (hf : ∀ x : Attempt, x.SameLease (f x))
    (hl : ∀ x, s.attempts.lookup a = some x → (f x).settled ≠ x.settled → A x.taskId .note) :
    Evolves now A s { s with attempts := s.attempts.modify a f } := by
  have hpath : ∀ t, Life now (fun l => l = .note ∧ A t .note) (s.view t)
      (view { s with attempts := s.attempts.modify a f } t) := by
    intro t
    cases hx : s.attempts.lookup a with
    | none =>
      refine .of_eq (View.ext rfl rfl rfl rfl rfl (funext fun b => ?_) rfl)
      by_cases hb : b = a
      · subst hb
        simp [view, hx]
      · simp [view, lookup_modify_of_ne _ _ hb]
    | some x =>
      rw [view_grant_modify a f t hx (hf x)]
      split
      next hcond => exact .single ⟨rfl, hcond.1 ▸ hl x hx hcond.2⟩ (.settle a)
      next => exact .refl _
  refine .tame hpath (fun t l hl => hl.1 ▸ hl.2) (fun t l hl => hl.1 ▸ by decide)
    { Grow.refl s with attempts := ?_ } fun hs => { hs with attempt := ?_ }
  · intro a' x hx
    simp only [lookup_modify, hx]
    split
    · exact ⟨f x, rfl, hf x⟩
    · exact ⟨x, rfl, .refl x⟩
  · intro a' x' hx'
    simp only [lookup_modify] at hx'
    split at hx'
    · obtain ⟨x, hx, rfl⟩ := Option.map_eq_some_iff.mp hx'
      rw [(hf x).taskId, (hf x).fence, (hf x).runtimeEpoch]
      exact hs.attempt a' x hx
    · exact hs.attempt a' x' hx'

theorem Evolves.settleAttemptRow (a : AttemptId)
    (hl : ∀ x, s.attempts.lookup a = some x → A x.taskId .note) :
    Evolves now A s (s.settleAttemptRow a) :=
  .modifyAttempt a _ (fun _ => ⟨rfl, rfl, rfl, rfl, rfl, fun _ => rfl⟩) fun x hx _ => hl x hx

theorem Evolves.settleAttemptOf (a : AttemptId) (hl : A t .note) :
    Evolves now A s (s.settleAttemptOf t a) := by
  refine .modifyAttempt a _ (fun x => ?_) fun x _ hne => ?_
  · split
    · exact ⟨rfl, rfl, rfl, rfl, rfl, fun _ => rfl⟩
    · exact .refl x
  · split at hne
    next ht => exact ht ▸ hl
    next => exact absurd rfl hne

/-- New objects. -/
theorem Evolves.publish {objects : List String} {associated : List (ProjectId × String)}
    (hobjects : ∀ d ∈ s.objects, d ∈ objects)
    (hassociated : ∀ e ∈ s.projectObjects, e ∈ associated) :
    Evolves now A s { s with objects := objects, projectObjects := associated } :=
  .frame (fun _ => rfl)
    { Grow.refl s with objects := hobjects, projectObjects := hassociated }
    fun hs => { hs with }

/-- Readiness, liveness and epoch of an executor. -/
theorem Evolves.modifyExecutor (e : ExecutorId) (f : Executor → Executor)
    (hf : ∀ x, (f x).capabilities = x.capabilities) :
    Evolves now A s { s with executors := s.executors.modify e f } := by
  refine .frame (fun _ => rfl) { Grow.refl s with } fun hs => { hs with executors := ?_ }
  intro e' x' hx' value hv
  simp only [lookup_modify] at hx'
  split at hx'
  · obtain ⟨x, hx, rfl⟩ := Option.map_eq_some_iff.mp hx'
    exact hs.executors e' x hx value (hf x ▸ hv)
  · exact hs.executors e' x' hx' value hv

/-! ## Statements about one task -/

theorem State.storeSpec_mem {sp : TaskSpec} : sp ∈ (s.storeSpec sp).specs := by
  unfold storeSpec
  dsimp only
  split
  · assumption
  · simp

theorem State.mem_storeSpec {sp sp' : TaskSpec} (h : sp' ∈ s.specs) :
    sp' ∈ (s.storeSpec sp).specs := by
  unfold storeSpec
  dsimp only
  split
  · exact h
  · exact List.mem_append_left _ h

/-- Only the rows of this task change, and its spec is stored if it is a new one. -/
structure OnlyTask (t : TaskId) (s s' : State) : Prop where
  other : ∀ t', t' ≠ t → s'.view t' = s.view t'
  tables : SameTables s s'
  spec : ∀ row' sp, s'.tasks.lookup t = some row' → row'.spec = some sp →
    sp ∈ s'.specs ∨ ∃ row, s.tasks.lookup t = some row ∧ row.spec = some sp

namespace OnlyTask

variable {t : TaskId}

theorem specsStored (h : OnlyTask t s s') (hspec : s.SpecsStored) : s'.SpecsStored := by
  intro t' row' sp hrow' hsp
  by_cases ht : t' = t
  · subst ht
    rcases h.spec row' sp hrow' hsp with hmem | ⟨row, hrow, hsp'⟩
    · exact hmem
    · exact h.tables.specs sp (hspec t' row sp hrow hsp')
  · have hrow : s.tasks.lookup t' = some row' := by
      rw [← hrow']
      exact (congrArg View.row (h.other t' ht)).symm
    exact h.tables.specs sp (hspec t' row' sp hrow hsp)

/-- The shared tables, once the fences have not gone back. -/
theorem shared (h : OnlyTask t s s') (hlater : ∀ t, (s.view t).Later (s'.view t)) (hs : Shared s) :
    Shared s' where
  spec := h.specsStored hs.spec
  attempt := h.tables.attemptsFenced hs.attempt hlater
  executors := h.tables.executorsRegistered hs.executors

theorem trans (h : OnlyTask t s₁ s₂) (h' : OnlyTask t s₂ s₃) : OnlyTask t s₁ s₃ where
  other t' ht := (h'.other t' ht).trans (h.other t' ht)
  tables := h.tables.trans h'.tables
  spec row' sp hrow' hsp := by
    rcases h'.spec row' sp hrow' hsp with hmem | ⟨row, hrow, hsp⟩
    · exact .inl hmem
    · rcases h.spec row sp hrow hsp with hmem | hold
      · exact .inl (h'.tables.specs sp hmem)
      · exact .inr hold

/-- An `UPDATE` of the task's row that keeps its spec. -/
theorem modifyTask {f : Task → Task} (hf : ∀ row, (f row).spec = row.spec) :
    OnlyTask t s { s with tasks := s.tasks.modify t f } where
  other t' ht := by simp [view, lookup_modify_of_ne _ _ ht]
  tables := ⟨rfl, rfl, rfl, fun _ h => h, rfl, rfl, rfl, rfl⟩
  spec row' sp hrow' hsp := by
    rw [lookup_modify_self] at hrow'
    obtain ⟨row, hrow, rfl⟩ := Option.map_eq_some_iff.mp hrow'
    exact .inr ⟨row, hrow, hf row ▸ hsp⟩

/-- An `UPDATE` of the task's binding. -/
theorem modifyBinding {f : Binding → Binding} :
    OnlyTask t s { s with bindings := s.bindings.modify t f } where
  other t' ht := by simp [view, lookup_modify_of_ne _ _ ht]
  tables := ⟨rfl, rfl, rfl, fun _ h => h, rfl, rfl, rfl, rfl⟩
  spec row sp hrow hsp := .inr ⟨row, hrow, hsp⟩

/-- An `UPDATE` of the task's reservations. -/
theorem mapReservations {g : TaskId × ResourceKey → Reservation → Reservation}
    (hg : ∀ k r, k.1 ≠ t → g k r = r) :
    OnlyTask t s { s with reservations := s.reservations.mapRows g } where
  other t' ht := by
    have hid : ∀ k, g (t', k) = id := fun k => funext fun r => hg _ r ht
    simp [view, hid]
  tables := ⟨rfl, rfl, rfl, fun _ h => h, rfl, rfl, rfl, rfl⟩
  spec row sp hrow hsp := .inr ⟨row, hrow, hsp⟩

/-- A stored spec that the task is pointed at. -/
theorem putTaskSpec (sp : TaskSpec) : OnlyTask t s (s.putTaskSpec t sp) where
  other t' ht := by
    simp [State.view, State.putTaskSpec, State.storeSpec, lookup_modify_of_ne _ _ ht]
  tables := ⟨rfl, rfl, rfl, fun _ h => State.mem_storeSpec h, rfl, rfl, rfl, rfl⟩
  spec row' sp' hrow' hsp' := by
    simp only [State.putTaskSpec, lookup_modify_self] at hrow'
    obtain ⟨row, -, rfl⟩ := Option.map_eq_some_iff.mp hrow'
    obtain rfl := Option.some.inj hsp'
    exact .inl State.storeSpec_mem

end OnlyTask

/-- A statement that moves one task along a path. -/
theorem Evolves.at {L : Label → Prop} (honly : OnlyTask t s s') (hL : ∀ l, L l → A t l)
    (hlife : Life now L (s.view t) (s'.view t)) (hcreate : ∀ lin, ¬L (.create lin))
    (hadmission : L .admission → AdmitsDone A s s') (hfinish : L .finish → s'.ResultPublished t)
    (hstart : L .start → Inv s → s'.HoldsAlone t) :
    Evolves now A s s' := by
  have hpath : ∀ t', Life now (fun l => t' = t ∧ L l) (s.view t') (s'.view t') := by
    intro t'
    by_cases ht : t' = t
    · subst ht
      exact hlife.mono fun l hl => ⟨rfl, hl⟩
    · exact .of_eq (honly.other t' ht).symm
  refine ⟨fun t' => (hpath t').mono ?_, honly.tables.grow, ?_, fun h => ?_⟩
  · rintro l ⟨rfl, hl⟩
    exact hL l hl
  · by_cases ha : L .admission
    · exact hadmission ha
    · exact .of_path hpath fun _ hl => ha hl.2
  refine h.of_path hpath honly.tables.grow (fun _ _ hc => hcreate _ hc.2)
    (honly.shared (fun t' => (hpath t').later) h.toShared) ?_ ?_
  · rintro _ ⟨rfl, hf⟩
    exact hfinish hf
  · rintro _ ⟨rfl, hs⟩
    exact hstart hs h

/-- A statement that moves one task by one tame step. -/
theorem Evolves.step {l : Label} {v : View} (honly : OnlyTask t s s')
    (hstep : Step now l (s.view t) v) (hview : s'.view t = v) (hl : A t l) (htame : l.tame = true) :
    Evolves now A s s' := by
  refine .at honly (L := (· = l)) (by rintro _ rfl; exact hl) (hview ▸ .single rfl hstep)
    ?_ ?_ ?_ ?_
  · rintro lin rfl; cases htame
  all_goals rintro rfl; cases htame

/-- A statement whose condition the task does not meet. -/
theorem Evolves.still (honly : OnlyTask t s s') (hview : s'.view t = s.view t) :
    Evolves now A s s' :=
  .at honly (L := fun _ => False) (by simp) (.of_eq hview.symm) (fun _ => id)
    False.elim False.elim False.elim

end WorkspaceRuntime
