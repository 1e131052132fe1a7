import WorkspaceRuntime.Lifecycle.Step

/-!
# What the steps of a task's life can do

The facts about single steps that every later argument uses, each lifted to paths: what never
changes, what only grows, what a completed task keeps, and what the quiet labels leave alone.
-/

namespace WorkspaceRuntime

open View

variable {now : Time} {l : Label} {v v' : View} {allowed : Label → Prop}

/-- A fact about an optional row, stated on the row. -/
theorem View.row_eq {row row' : Task} (h : v.row = some row) (h' : v.row = some row') :
    row' = row :=
  Option.mem_unique h' h

/-! ## Attempts -/

/-- The leases agree, and a settled attempt stays settled. -/
structure Grant.Same (g g' : Grant) : Prop where
  leaseId : g'.leaseId = g.leaseId
  fence : g'.fence = g.fence
  executorId : g'.executorId = g.executorId
  runtimeEpoch : g'.runtimeEpoch = g.runtimeEpoch
  settled : g.settled = true → g'.settled = true

theorem Grant.Same.refl (g : Grant) : g.Same g := ⟨rfl, rfl, rfl, rfl, id⟩

theorem Grant.Same.trans {g₁ g₂ g₃ : Grant} (h : g₁.Same g₂) (h' : g₂.Same g₃) : g₁.Same g₃ :=
  ⟨h'.leaseId.trans h.leaseId, h'.fence.trans h.fence, h'.executorId.trans h.executorId,
    h'.runtimeEpoch.trans h.runtimeEpoch, fun hs => h'.settled (h.settled hs)⟩

variable {a : AttemptId} {g : Grant} {grant : AttemptId → Option Grant}

theorem settleGrants_of_some {b : AttemptId} (h : grant b = some g) :
    ∃ g', settleGrants a grant b = some g' ∧ g.Same g' := by
  unfold settleGrants
  split
  · exact ⟨{ g with settled := true }, by simp [h], rfl, rfl, rfl, rfl, fun _ => rfl⟩
  · exact ⟨g, h, .refl g⟩

/-- An attempt that is open after the settlement of another was open before. -/
theorem of_settleGrants {b : AttemptId} (h : settleGrants a grant b = some g) :
    ∃ g₀, grant b = some g₀ ∧ g₀.Same g ∧ (g.settled = false → b ≠ a ∧ g₀ = g) := by
  unfold settleGrants at h
  split at h
  next hb =>
    obtain ⟨g₀, hg₀, rfl⟩ := Option.map_eq_some_iff.mp h
    exact ⟨g₀, hg₀, ⟨rfl, rfl, rfl, rfl, fun _ => rfl⟩, nofun⟩
  next hb => exact ⟨g, h, .refl g, fun _ => ⟨hb, rfl⟩⟩

theorem settleGrants_self (h : settleGrants a grant a = some g) : g.settled = true := by
  obtain ⟨_, -, -, hopen⟩ := of_settleGrants h
  cases hg : g.settled with
  | true => rfl
  | false => exact absurd rfl (hopen hg).1

theorem settleGrants_comm (a b : AttemptId) (grant : AttemptId → Option Grant) :
    settleGrants a (settleGrants b grant) = settleGrants b (settleGrants a grant) := by
  funext c
  unfold settleGrants
  split_ifs <;> rfl

/-! ## Stops -/

/-- What kind of event it is to stop a task of this status. -/
def Status.stopLabel : Status → Label
  | .failed => .withdraw
  | .queued | .running | .cancelRequested | .completed | .cancelled => .cancel

variable {b : Option Binding} {lease : Option LeaseId}

/-- The stop of a task that is not completed. -/
theorem Step.stopped {row : Task} (hrow : v.row = some row) (hopen : row.status ≠ .completed)
    (hresolved : ¬v.unresolved) (hlease : row.leaseToken = lease ∨ row.leaseToken = none)
    (hclosed : v.Closed row.attemptId)
    (hb : b = v.binding ∨ b = v.binding.map (Binding.closed .released now)) :
    Step now row.status.stopLabel v { v with
      row := some
        { row with status := .cancelled, leaseToken := none, executorId := none, attemptId := none,
                   leaseExpiresAt := none, waitingReason := none, updatedAt := now }
      binding := b
      hold := releaseHolds lease now v.hold } := by
  by_cases hfailed : row.status = .failed
  · rw [hfailed]
    exact .withdraw hrow hfailed hresolved hlease hclosed hb
  · have hlabel : row.status.stopLabel = .cancel := by
      cases hstatus : row.status <;> simp_all [Status.stopLabel]
    rw [hlabel]
    exact .stop hrow hopen hresolved hlease hclosed hb hfailed

/-! ## What only grows -/

/-- What every step keeps or lets grow once the rows are there. -/
structure View.Later (v v' : View) : Prop where
  row : ∀ row, v.row = some row → ∃ row', v'.row = some row' ∧ row'.runId = row.runId ∧
    row'.capability = row.capability ∧ row.leaseFence ≤ row'.leaseFence ∧
    (row'.executionRequest = row.executionRequest ∨ row'.executionRequest = none)
  dep : v.row ≠ none → v'.dep = v.dep
  admission : ∀ a, v.admission = some a → v'.admission = some a
  grant : ∀ a g, v.grant a = some g → ∃ g', v'.grant a = some g' ∧ g.Same g'

theorem View.Later.refl (v : View) : v.Later v where
  row row h := ⟨row, h, rfl, rfl, le_rfl, .inl rfl⟩
  dep _ := rfl
  admission _ h := h
  grant _ g h := ⟨g, h, .refl g⟩

theorem View.Later.trans {v₁ v₂ v₃ : View} (h : v₁.Later v₂) (h' : v₂.Later v₃) : v₁.Later v₃ where
  row row hrow := by
    obtain ⟨row₂, h₂, hrun, hcap, hfence, hreq⟩ := h.row row hrow
    obtain ⟨row₃, h₃, hrun', hcap', hfence', hreq'⟩ := h'.row row₂ h₂
    refine ⟨row₃, h₃, hrun'.trans hrun, hcap'.trans hcap, hfence.trans hfence', ?_⟩
    rcases hreq' with hreq' | hreq'
    · rw [hreq']; exact hreq
    · exact .inr hreq'
  dep hne := by
    obtain ⟨row, hrow⟩ := Option.ne_none_iff_exists'.mp hne
    obtain ⟨row₂, h₂, -⟩ := h.row row hrow
    rw [h'.dep (by simp [h₂]), h.dep hne]
  admission a ha := h'.admission a (h.admission a ha)
  grant a g hg := by
    obtain ⟨g₂, hg₂, hsame⟩ := h.grant a g hg
    obtain ⟨g₃, hg₃, hsame'⟩ := h'.grant a g₂ hg₂
    exact ⟨g₃, hg₃, hsame.trans hsame'⟩

/-- Every attempt stays, under its lease. -/
theorem Step.grant_later (h : Step now l v v') (hg : v.grant a = some g) :
    ∃ g', v'.grant a = some g' ∧ g.Same g' := by
  cases h with
  | settle b => exact settleGrants_of_some hg
  | attempt b _ _ hnew =>
    refine ⟨g, ?_, .refl g⟩
    have hne : a ≠ b := by
      rintro rfl
      simp [hnew] at hg
    simp [hne, hg]
  | create => simp [blank] at hg
  | _ => exact ⟨g, hg, .refl g⟩

theorem Step.later (h : Step now l v v') : v.Later v' := by
  refine ⟨?_, ?_, ?_, fun _ _ => h.grant_later⟩ <;> cases h <;> simp_all [blank]
  case recover => split <;> simp

theorem Life.later (h : Life now allowed v v') : v.Later v' :=
  h.relates Later.refl Later.trans fun _ hs => hs.later

/-- Only a creation makes a row. -/
theorem Step.row_none (h : Step now l v v') (hl : ∀ lin, l ≠ .create lin) (hnone : v.row = none) :
    v'.row = none := by
  cases h <;> simp_all

theorem Life.row_none (h : Life now allowed v v') (hl : ∀ lin, ¬allowed (.create lin)) (hnone : v.row = none) :
    v'.row = none :=
  h.preserves (I := fun v => v.row = none)
    (fun ha hs => hs.row_none fun lin e => hl lin (e ▸ ha)) hnone

/-! ## Lineage -/

/-- The delegation that a task's spec records. -/
def View.lineage (v : View) : Option Lineage :=
  v.row.bind fun row => row.spec.bind (·.delegatedParent)

/-- What resolving the children of a continuation writes, and what it needs. -/
theorem setResolvedChildren_ok {sp sp' : TaskSpec} {children : List ResolvedChild}
    (h : setResolvedChildren sp children = .ok sp') :
    sp.Continues ∧ sp'.Continues ∧ sp'.inputObjectIds = sp.inputObjectIds ∧
      sp'.storageEstimate = sp.storageEstimate ∧ sp'.delegatedParent = sp.delegatedParent := by
  simp only [setResolvedChildren, Fallible.bind_eq_ok, Fallible.orThrow_eq_ok, Fallible.return_ok] at h
  obtain ⟨inner, hinner, fields, hfields, dependencies, hdeps, rfl⟩ := h
  obtain ⟨value, hvalue, hobj⟩ := Option.bind_eq_some_iff.mp hdeps
  obtain rfl := Json.asObj_eq_some.mp hfields
  obtain rfl := Json.asObj_eq_some.mp hobj
  exact ⟨⟨fields, dependencies, hinner, hvalue⟩, ⟨_, _, rfl, Json.Fields.get_set_self _ _ _⟩,
    rfl, rfl, rfl⟩

/-- A stamp does not name another parent. -/
theorem Stamped.lineage {spec spec' : Option TaskSpec} (h : Stamped spec spec') :
    spec'.bind (·.delegatedParent) = spec.bind (·.delegatedParent) := by
  rcases h with rfl | ⟨toolchain, rfl⟩
  · rfl
  · cases spec <;> rfl

/-- A task keeps its lineage until retention releases its spec. -/
theorem Step.lineage_eq (h : Step now l v v') (hc : ∀ lin, l ≠ .create lin) (hr : l ≠ .retire) :
    v'.lineage = v.lineage := by
  cases h with
  | respec hrow hspec hbody | register hrow hspec hbody =>
    simp [lineage, hrow, hspec, hbody.lineage]
  | admission hrow _ _ _ hspec _ hset =>
    simp [lineage, hrow, hspec, (setResolvedChildren_ok hset).2.2.2.2]
  | recover hrow _ _ _ =>
    simp only [lineage, hrow, Option.bind_some]
    split <;> rfl
  | start hrow _ _ _ hspec _ _ => simp [lineage, hrow, hspec.lineage]
  | _ => simp_all [lineage]

variable {lin : Lineage}

/-- Only a creation gives a task a lineage. -/
theorem Step.lineage_of_some (h : Step now l v v') (hlin : v'.lineage = some lin) :
    v.lineage = some lin ∨ l = .create (some lin) := by
  by_cases hr : l = .retire
  · subst hr
    cases h
    simp [lineage] at hlin
  by_cases hc : ∃ lin', l = .create lin'
  · obtain ⟨lin', rfl⟩ := hc
    cases h with
    | create hcreated =>
      refine .inr (congrArg _ ?_)
      simpa [lineage, hcreated.stored, hcreated.spec] using hlin
  · rw [not_exists] at hc
    exact .inl ((h.lineage_eq hc hr).symm.trans hlin)

theorem Life.lineage_eq (h : Life now allowed v v') (hc : ∀ lin, ¬allowed (.create lin))
    (hr : ¬allowed .retire) : v'.lineage = v.lineage :=
  h.relates (R := fun v v' => v'.lineage = v.lineage) (fun _ => rfl) (fun h h' => h'.trans h)
    fun ha hs => hs.lineage_eq (fun lin e => hc lin (e ▸ ha)) (fun e => hr (e ▸ ha))

theorem Life.lineage_of_some (h : Life now allowed v v') (hlin : v'.lineage = some lin) :
    v.lineage = some lin ∨ allowed (.create (some lin)) := by
  refine h.relates (R := fun v v' => v'.lineage = some lin →
      v.lineage = some lin ∨ allowed (.create (some lin)))
    (fun _ h => .inl h) (fun h h' hlin => (h' hlin).elim h .inr) (fun ha hs hlin => ?_) hlin
  rcases hs.lineage_of_some hlin with h | rfl
  · exact .inl h
  · exact .inr ha

/-- A delegated task that is not retired stays one. -/
theorem Step.lineage_kept (h : Step now l v v') (hr : l ≠ .retire) (hlin : v.lineage = some lin) :
    v'.lineage = some lin := by
  rw [h.lineage_eq ?_ hr, hlin]
  rintro lin' rfl
  cases h
  simp [lineage, blank] at hlin

theorem Life.lineage_kept (h : Life now allowed v v') (hr : ¬allowed .retire)
    (hlin : v.lineage = some lin) : v'.lineage = some lin :=
  h.preserves (I := fun v => v.lineage = some lin)
    (fun ha hs => hs.lineage_kept fun e => hr (e ▸ ha)) hlin

/-! ## Completed tasks -/

/-- The task is completed with this result. -/
def View.Done (v : View) (result : Option Json) : Prop :=
  v.row.map (fun row => (row.status, row.result)) = some (.completed, result)

variable {result : Option Json}

/-- A completed task stays completed with its result, unless it is opened again. -/
theorem Step.done (h : Step now l v v') (hl : l ≠ .reopen) (hd : v.Done result) :
    v'.Done result := by
  cases h with
  | request hrow hlive _ => grind [Done, Status.terminal]
  | _ => simp_all [Done, blank, Status.leased]

theorem Life.done (h : Life now allowed v v') (hl : ¬allowed .reopen) (hd : v.Done result) :
    v'.Done result :=
  h.preserves (I := fun v => v.Done result) (fun ha hs => hs.done fun e => hl (e ▸ ha)) hd

/-- Only a settlement completes a task. -/
theorem Step.done_of (h : Step now l v v') (hf : l ≠ .finish) (hd : v'.Done result) :
    v.Done result := by
  cases h with
  | create hcreated => simp [Done, hcreated.stored, hcreated.status] at hd
  | keepUnknown | recover => grind [Done]
  | _ => simp_all [Done]

theorem Life.done_of (h : Life now allowed v v') (hf : ¬allowed .finish) (hd : v'.Done result) :
    v.Done result :=
  h.reflects (P := fun v => v.Done result) (fun ha hs => hs.done_of fun e => hf (e ▸ ha)) hd

/-- The task is failed. -/
def View.Failed (v : View) : Prop := ∃ row, v.row = some row ∧ row.status = .failed

/-- Only a failure makes a task failed. -/
theorem Step.failed_of (h : Step now l v v') (hf : l ≠ .finish) (hd : v'.Failed) : v.Failed := by
  cases h with
  | create hcreated => simp [Failed, hcreated.stored, hcreated.status] at hd
  | keepUnknown | recover => grind [Failed]
  | _ => simp_all [Failed]

theorem Life.failed_of (h : Life now allowed v v') (hf : ¬allowed .finish) (hd : v'.Failed) :
    v.Failed :=
  h.reflects (fun ha hs => hs.failed_of fun e => hf (e ▸ ha)) hd

/-- A child that an admission resolved is completed with the outputs that it was resolved to. -/
def View.Resolves (v : View) (c : ResolvedChild) : Prop :=
  ∃ result, v.Done result ∧
    ((result.getD (.obj [])).get? "outputs").bind Json.asArr = some c.outputs

theorem Life.resolves (h : Life now allowed v v') (hl : ¬allowed .reopen) {c : ResolvedChild}
    (hc : v.Resolves c) : v'.Resolves c := by
  obtain ⟨result, hdone, hout⟩ := hc
  exact ⟨result, h.done hl hdone, hout⟩

variable {adm : ContinuationAdmission}

/-- Only an admission admits. -/
theorem Step.admission_of (h : Step now l v v') (hl : l ≠ .admission) (ha : v'.admission = some adm) :
    v.admission = some adm := by
  cases h with
  | create hcreated => simp [hcreated.admission] at ha
  | admission => exact absurd rfl hl
  | _ => exact ha

theorem Life.admission_of (h : Life now allowed v v') (hl : ¬allowed .admission)
    (ha : v'.admission = some adm) : v.admission = some adm :=
  h.reflects (P := fun v => v.admission = some adm)
    (fun hal hs => hs.admission_of fun e => hl (e ▸ hal)) ha

/-! ## External work -/

@[simp] theorem Binding.unresolvedExternal_closed_stale (b : Binding) :
    (b.closed .stale now).unresolvedExternal = b.unresolvedExternal := by
  unfold Binding.closed Binding.unresolvedExternal
  split <;> simp_all

theorem Binding.unresolvedExternal_closed_released {b : Binding}
    (h : (b.closed .released now).unresolvedExternal = true) :
    b.unresolvedExternal = true ∧ b.status = .stale := by
  unfold Binding.closed at h
  split at h
  · simp [Binding.unresolvedExternal] at h
  · exact ⟨h, by simp_all [Binding.unresolvedExternal]⟩

theorem View.not_unresolved_iff : ¬v.unresolved ↔ Resolved v.binding := by
  simp [unresolved, Resolved]

/-- A prepared binding has no external work. -/
theorem Prepared.resolved (h : Prepared b) : Resolved b := by
  intro x hx
  simp [Binding.unresolvedExternal, h x hx]

variable {row : Option Task}

/-- Closing a binding as released leaves external work only behind a stale one. -/
theorem View.stale_of_released {hold : ResourceKey → Option Reservation}
    (h : unresolved { v with
      row := row, binding := v.binding.map (Binding.closed .released now), hold := hold }) :
    ∃ b ∈ v.binding, b.unresolvedExternal = true ∧ b.status = .stale := by
  obtain ⟨b', hmem', hb'⟩ := h
  obtain ⟨b, hmem, rfl⟩ := Option.map_eq_some_iff.mp hmem'
  exact ⟨b, hmem, Binding.unresolvedExternal_closed_released hb'⟩

/-- Only the binding of an attempt and a fenced placement bring external work. -/
theorem Step.unresolved_of (h : Step now l v v') (hb : l ≠ .bind) (hf : l ≠ .fence)
    (hc : ∀ lin, l ≠ .create lin) (hu : v'.unresolved) : v.unresolved := by
  cases h with
  | rebind _ _ hb' _ | retry _ _ hb' _ | reopen _ _ hb' _ | lift hb' _ | replace _ _ _ hb' =>
    exact absurd hu (not_unresolved_iff.mpr hb'.resolved)
  | stop _ _ _ _ _ hb' | withdraw _ _ _ _ _ hb' =>
    rcases hb' with rfl | rfl
    · exact hu
    · obtain ⟨b, hmem, hb, -⟩ := stale_of_released hu
      exact ⟨b, hmem, hb⟩
  | request | keepUnknown => simp_all
  | finish =>
    obtain ⟨b, hmem, hb, -⟩ := stale_of_released hu
    exact ⟨b, hmem, hb⟩
  | finalize _ _ _ hb' => exact absurd hu (not_unresolved_iff.mpr hb')
  | create => exact absurd rfl (hc _)
  | _ => first | exact hu | contradiction

theorem Life.unresolved_of (h : Life now allowed v v') (hb : ¬allowed .bind) (hf : ¬allowed .fence)
    (hc : ∀ lin, ¬allowed (.create lin)) (hu : v'.unresolved) : v.unresolved :=
  h.reflects
    (fun ha hs => hs.unresolved_of (fun e => hb (e ▸ ha)) (fun e => hf (e ▸ ha))
      fun lin e => hc lin (e ▸ ha)) hu

/-! ## Leases and reservations -/

/-- The lease that the task's row names. -/
def View.token (v : View) : Option LeaseId := v.row.bind (·.leaseToken)

/-- The deadline of the lease that the task's row names. -/
def View.deadline (v : View) : Option Time := v.row.bind (·.leaseExpiresAt)

/-- Only a claim gives a task a new lease. -/
theorem Step.token_eq (h : Step now l v v') (hs : l ≠ .start) :
    v'.token = v.token ∨ v'.token = none := by
  cases h with
  | create hcreated => simp [token, hcreated.stored, hcreated.token]
  | recover hrow => simp only [token, hrow, Option.bind_some]; split <;> simp
  | _ => simp_all [token]

theorem Life.token_eq (h : Life now allowed v v') (hs : ¬allowed .start) :
    v'.token = v.token ∨ v'.token = none :=
  h.keeps_or_clears fun ha hst => hst.token_eq fun e => hs (e ▸ ha)

/-- Only a claim and a heartbeat give a task a new deadline. -/
theorem Step.deadline_eq (h : Step now l v v') (hs : l ≠ .start) (he : l ≠ .extend)
    (hc : ∀ lin, l ≠ .create lin) : v'.deadline = v.deadline ∨ v'.deadline = none := by
  cases h with
  | recover hrow => simp only [deadline, hrow, Option.bind_some]; split <;> simp
  | _ => simp_all [deadline]

theorem Life.deadline_eq (h : Life now allowed v v') (hs : ¬allowed .start)
    (he : ¬allowed .extend) (hc : ∀ lin, ¬allowed (.create lin)) :
    v'.deadline = v.deadline ∨ v'.deadline = none :=
  h.keeps_or_clears fun ha hst => hst.deadline_eq (fun e => hs (e ▸ ha)) (fun e => he (e ▸ ha))
    fun lin e => hc lin (e ▸ ha)

/-- The attempt that the task's row names. -/
def View.current (v : View) : Option AttemptId := v.row.bind (·.attemptId)

/-- Only a claim gives a task a new attempt. -/
theorem Step.current_eq (h : Step now l v v') (hb : l ≠ .bind) (hc : ∀ lin, l ≠ .create lin) :
    v'.current = v.current ∨ v'.current = none := by
  cases h with
  | recover hrow => simp only [current, hrow, Option.bind_some]; split <;> simp
  | _ => simp_all [current]

theorem Life.current_eq (h : Life now allowed v v') (hb : ¬allowed .bind) (hc : ∀ lin, ¬allowed (.create lin)) :
    v'.current = v.current ∨ v'.current = none :=
  h.keeps_or_clears fun ha hst =>
    hst.current_eq (fun e => hb (e ▸ ha)) fun lin e => hc lin (e ▸ ha)

/-- The task holds the resource key with an unreleased reservation. -/
def View.Holds (v : View) (k : ResourceKey) (lease : LeaseId) (executor : ExecutorId) : Prop :=
  ∃ r, v.hold k = some r ∧ r.releasedAt = none ∧ r.leaseToken = lease ∧ r.executorId = executor

variable {k : ResourceKey} {token : LeaseId} {x : ExecutorId}

theorem releaseHolds_holds
    (h : Holds { v with row := row, binding := b, hold := releaseHolds lease now v.hold } k
      token x) :
    v.Holds k token x ∧ lease ≠ none ∧ lease ≠ some token := by
  obtain ⟨r', hr', hheld, rfl, rfl⟩ := h
  obtain ⟨r, hr, rfl⟩ := Option.map_eq_some_iff.mp hr'
  split at hheld
  · simp at hheld
  next hcond =>
    rw [if_neg hcond]
    refine ⟨⟨r, hr, hheld, rfl, rfl⟩, ?_, ?_⟩ <;> simp_all

theorem extendHolds_holds {lease : LeaseId} {deadline : Time}
    (h : Holds { v with row := row, hold := extendHolds lease deadline v.hold } k token x) :
    v.Holds k token x := by
  obtain ⟨r', hr', hheld, htoken, hx⟩ := h
  obtain ⟨r, hr, rfl⟩ := Option.map_eq_some_iff.mp hr'
  refine ⟨r, hr, ?_, ?_, ?_⟩ <;> split at * <;> simp_all

/-- Only a claim takes a resource key. -/
theorem Step.holds_of (h : Step now l v v') (hs : l ≠ .start) (hh : v'.Holds k token x) :
    v.Holds k token x := by
  cases h with
  | start => contradiction
  | stop | withdraw | requeue | recover | finish | retry | reopen | finalize =>
    exact (releaseHolds_holds hh).1
  | extend => exact extendHolds_holds hh
  | create hcreated =>
    obtain ⟨r, hr, -⟩ := hh
    simp [hcreated.hold k] at hr
  | _ => exact hh

theorem Life.holds_of (h : Life now allowed v v') (hs : ¬allowed .start) (hh : v'.Holds k token x) :
    v.Holds k token x :=
  h.reflects (P := fun v => v.Holds k token x)
    (fun ha hst => hst.holds_of fun e => hs (e ▸ ha)) hh

/-! ## Quiet labels -/

/-- The labels that leave a task where it is in its life. -/
def Label.Quiet (l : Label) : Prop := l = .note ∨ l = .admission

/-- The rows agree in everything but the spec's body, the waiting reason of a queued task, and the
timestamps. -/
structure Task.SameStage (row row' : Task) : Prop where
  runId : row'.runId = row.runId
  status : row'.status = row.status
  leaseToken : row'.leaseToken = row.leaseToken
  leaseExpiresAt : row'.leaseExpiresAt = row.leaseExpiresAt
  leaseFence : row'.leaseFence = row.leaseFence
  attemptId : row'.attemptId = row.attemptId
  executorId : row'.executorId = row.executorId
  result : row'.result = row.result
  waitingReason : row.status ≠ .queued → row'.waitingReason = row.waitingReason
  spec : row'.spec.isSome = row.spec.isSome

theorem Task.SameStage.refl (row : Task) : row.SameStage row :=
  ⟨rfl, rfl, rfl, rfl, rfl, rfl, rfl, rfl, fun _ => rfl, rfl⟩

theorem Task.SameStage.trans {row₁ row₂ row₃ : Task} (h : row₁.SameStage row₂)
    (h' : row₂.SameStage row₃) : row₁.SameStage row₃ where
  runId := h'.runId.trans h.runId
  status := h'.status.trans h.status
  leaseToken := h'.leaseToken.trans h.leaseToken
  leaseExpiresAt := h'.leaseExpiresAt.trans h.leaseExpiresAt
  leaseFence := h'.leaseFence.trans h.leaseFence
  attemptId := h'.attemptId.trans h.attemptId
  executorId := h'.executorId.trans h.executorId
  result := h'.result.trans h.result
  waitingReason hne := (h'.waitingReason (h.status ▸ hne)).trans (h.waitingReason hne)
  spec := h'.spec.trans h.spec

/-- What quiet steps leave alone. -/
structure View.Calm (v v' : View) : Prop where
  row : ∀ row, v.row = some row → ∃ row', v'.row = some row' ∧ row.SameStage row'
  unresolved : v'.unresolved ↔ v.unresolved
  hold : v'.hold = v.hold

theorem View.Calm.refl (v : View) : v.Calm v :=
  ⟨fun row h => ⟨row, h, .refl row⟩, Iff.rfl, rfl⟩

theorem View.Calm.trans {v₁ v₂ v₃ : View} (h : v₁.Calm v₂) (h' : v₂.Calm v₃) : v₁.Calm v₃ where
  row row hrow := by
    obtain ⟨row₂, h₂, hs⟩ := h.row row hrow
    obtain ⟨row₃, h₃, hs'⟩ := h'.row row₂ h₂
    exact ⟨row₃, h₃, hs.trans hs'⟩
  unresolved := h'.unresolved.trans h.unresolved
  hold := h'.hold.trans h.hold

theorem Step.calm (h : Step now l v v') (hl : l.Quiet) : v.Calm v' := by
  cases h with
  | respec hrow hspec _ =>
    refine ⟨fun row h => ⟨_, rfl, ?_⟩, Iff.rfl, rfl⟩
    obtain rfl := row_eq hrow h
    exact { Task.SameStage.refl row with spec := by simp [hspec] }
  | wait hrow hqueued hresolved _ =>
    refine ⟨fun row h => ⟨_, rfl, ?_⟩, Iff.rfl, rfl⟩
    obtain rfl := row_eq hrow h
    exact { Task.SameStage.refl row with waitingReason := fun hne => absurd hqueued hne }
  | touch hrow =>
    refine ⟨fun row h => ⟨_, rfl, ?_⟩, Iff.rfl, rfl⟩
    obtain rfl := row_eq hrow h
    exact { Task.SameStage.refl row with }
  | rebind hresolved _ hb _ =>
    exact ⟨fun row h => ⟨row, h, .refl row⟩,
      iff_of_false (not_unresolved_iff.mpr hb.resolved) hresolved, rfl⟩
  | admission hrow hqueued _ _ hspec _ _ =>
    refine ⟨fun row h => ⟨_, rfl, ?_⟩, Iff.rfl, rfl⟩
    obtain rfl := row_eq hrow h
    exact { Task.SameStage.refl row with
      waitingReason := fun hne => absurd hqueued hne, spec := by simp [hspec] }
  | settle => exact ⟨fun row h => ⟨row, h, .refl row⟩, Iff.rfl, rfl⟩
  | _ => simp [Label.Quiet] at hl

theorem Life.calm (h : Life now allowed v v') (hq : ∀ l, allowed l → l.Quiet) : v.Calm v' :=
  h.relates Calm.refl Calm.trans fun ha hs => hs.calm (hq _ ha)

/-- Quiet steps look neither at the reservations nor at what else is settled. -/
theorem Life.beside (h : Life now Label.Quiet v v') (hold : ResourceKey → Option Reservation)
    {settle : (AttemptId → Option Grant) → AttemptId → Option Grant}
    (hsettle : ∀ a grant, settle (settleGrants a grant) = settleGrants a (settle grant)) :
    Life now Label.Quiet { v with hold := hold, grant := settle v.grant }
      { v' with hold := hold, grant := settle v'.grant } := by
  refine h.map (f := fun v => { v with hold := hold, grant := settle v.grant })
    fun {l a b} hl hs => ?_
  cases hs with
  | respec hrow hspec hbody hclosed => exact .respec hrow hspec hbody hclosed
  | wait hrow hqueued hresolved hreason => exact .wait hrow hqueued hresolved hreason
  | touch hrow => exact .touch hrow
  | rebind hresolved hopen hb hsome hsel => exact .rebind hresolved hopen hb hsome hsel
  | settle a =>
    rw [hsettle]
    exact .settle a
  | admission hrow hqueued hnone hresolved hspec hchildren hset =>
    exact .admission hrow hqueued hnone hresolved hspec hchildren hset
  | _ => simp [Label.Quiet] at hl

end WorkspaceRuntime
