import WorkspaceRuntime.Refine.Restart

/-!
# What a restart does to the tasks

`begin_runtime_session` ends every lease. A task whose verified external executor may still run keeps
its attempt, its placement and its reservations and is marked; every other task that held a lease is
taken back, or is cancelled as the delegated child of one that held a lease. The loop goes through a
list of rows that was read before it, so the proof follows one task through it: the rounds of other
tasks before its own, its own round, and the rounds after it.
-/

namespace WorkspaceRuntime

open Fallible State View

variable {now : Time} {s s' : State} {t : TaskId} {row row' task : Task} {previous epoch : Nat}
  {v v' : View} {l : Label} {lease : Option LeaseId} {items : List (TaskId × Task)} {boot : String}

/-- The task is a delegated child of a task that holds or held a lease. -/
def State.Contained (s : State) (t : TaskId) : Prop :=
  ∃ p row, s.tasks.lookup p = some row ∧ row.status.leased = true ∧ s.ChildOf p t

/-- The labels of the rounds of other tasks. -/
def aroundLabels (s : State) (t : TaskId) (l : Label) : Prop :=
  l.Quiet ∨ (l = .cancel ∧ s.Contained t)

/-- The lease of the row is gone. -/
structure Task.Cleared (row : Task) : Prop where
  token : row.leaseToken = none
  deadline : row.leaseExpiresAt = none
  executor : row.executorId = none

/-- The reservations of the lease are released. -/
def View.Released (v : View) (lease : Option LeaseId) : Prop :=
  ∀ k r, v.hold k = some r → some r.leaseToken = lease → r.releasedAt ≠ none

theorem Task.SameStage.cleared (h : row.SameStage row') (hc : row.Cleared) : row'.Cleared :=
  ⟨h.leaseToken.trans hc.token, h.leaseExpiresAt.trans hc.deadline, h.executorId.trans hc.executor⟩

/-- A release releases the reservations of its lease, and what is released stays released. -/
theorem View.released_of_release {lease' : Option LeaseId} {w : View}
    (hw : w.hold = releaseHolds lease' now v.hold) (h : lease' = lease ∨ v.Released lease) :
    w.Released lease := by
  intro k r hr hl
  rw [hw] at hr
  obtain ⟨r₀, hr₀, rfl⟩ := Option.map_eq_some_iff.mp hr
  split at hl
  · simp_all
  next hkept =>
    rw [if_neg hkept]
    rcases h with rfl | h
    · exact fun hnone => hkept ⟨hnone, .inr hl.symm⟩
    · exact h k r₀ hr₀ hl

/-! ## A task with external work -/

section OneTask

variable {c : Prop} {v₀ : View} {row₀ : Task}

/-- The task carries what its external executor works under; `c` is whether it is a child of a task
that held a lease. -/
structure Carries (now : Time) (c : Prop) (v₀ : View) (row₀ : Task) (v : View) (row : Task) :
    Prop where
  stored : v.row = some row
  unresolved : v.unresolved
  hold : v.hold = v₀.hold
  binding : v.binding = v₀.binding ∨ v.binding = v₀.binding.map (Binding.closed .stale now)
  attemptId : row.attemptId = row₀.attemptId
  leaseToken : row.leaseToken = row₀.leaseToken
  leaseFence : row.leaseFence = row₀.leaseFence
  executorId : row.executorId = row₀.executorId
  live : row.status.terminal = false
  requested : row₀.status = .cancelRequested → row.status = .cancelRequested
  only : row.status = .cancelRequested → row₀.status = .cancelRequested ∨ c

theorem Binding.closed_closed (b : Binding) :
    (b.closed .stale now).closed .stale now = b.closed .stale now := by
  unfold Binding.closed
  split <;> simp_all

theorem Carries.closed (h : Carries now c v₀ row₀ v row) :
    v.binding.map (Binding.closed .stale now) = v₀.binding.map (Binding.closed .stale now) := by
  rcases h.binding with hb | hb
  · rw [hb]
  · rw [hb, Option.map_map]
    congr 1
    funext b
    exact b.closed_closed

/-- A quiet step does not touch the binding of external work. -/
theorem Step.quiet_binding (h : Step now l v v') (hl : l.Quiet) (hu : v.unresolved) :
    v'.binding = v.binding := by
  cases h with
  | rebind hresolved => exact absurd hu hresolved
  | respec | wait | touch | settle | admission => rfl
  | _ => simp [Label.Quiet] at hl

theorem Carries.step (h : Carries now c v₀ row₀ v row) (hs : Step now l v v')
    (hl : l.Quiet ∨ (l = .cancel ∧ c)) : ∃ row', Carries now c v₀ row₀ v' row' := by
  rcases hl with hquiet | ⟨rfl, hc⟩
  · have hcalm := hs.calm hquiet
    obtain ⟨row', hrow', hstage⟩ := hcalm.row row h.stored
    exact ⟨row',
      { stored := hrow'
        unresolved := hcalm.unresolved.mpr h.unresolved
        hold := hcalm.hold.trans h.hold
        binding := hs.quiet_binding hquiet h.unresolved ▸ h.binding
        attemptId := hstage.attemptId.trans h.attemptId
        leaseToken := hstage.leaseToken.trans h.leaseToken
        leaseFence := hstage.leaseFence.trans h.leaseFence
        executorId := hstage.executorId.trans h.executorId
        live := hstage.status ▸ h.live
        requested := fun hr => hstage.status.trans (h.requested hr)
        only := fun hr => h.only (hstage.status.symm.trans hr) }⟩
  · cases hs with
    | stop _ _ hresolved => exact absurd h.unresolved hresolved
    | request hrow _ _ =>
      obtain rfl := row_eq h.stored hrow
      exact ⟨_,
        { h with
          stored := rfl
          unresolved := by simpa [View.unresolved] using h.unresolved
          binding := .inr h.closed
          live := rfl
          requested := fun _ => rfl
          only := fun _ => .inr hc }⟩

theorem Carries.life (h : Carries now c v₀ row₀ v row) {allowed : Label → Prop}
    (hlife : Life now allowed v v') (hl : ∀ l, allowed l → l.Quiet ∨ (l = .cancel ∧ c)) :
    ∃ row', Carries now c v₀ row₀ v' row' :=
  hlife.preserves (I := fun v => ∃ row, Carries now c v₀ row₀ v row)
    (fun ha hs ⟨_, hrow⟩ => hrow.step hs (hl _ ha)) ⟨row, h⟩

/-! ## A task without external work -/

/-- The rounds of other tasks, before the task's own: it still holds its lease, or it was cancelled
as a child. -/
inductive Waiting (c : Prop) (v₀ : View) (row₀ : Task) (v : View) (row : Task) : Prop
  | leased (hstage : row₀.SameStage row) (hhold : v.hold = v₀.hold)
  | cancelled (hstatus : row.status = .cancelled) (hcleared : row.Cleared)
      (hclosed : v.Closed row₀.attemptId) (hreleased : v.Released row₀.leaseToken) (hc : c)

/-- After the task's own round. -/
structure Over (c : Prop) (row₀ : Task) (v : View) (row : Task) : Prop where
  closed : v.Closed row₀.attemptId
  released : v.Released row₀.leaseToken
  outcome : (row₀.status = .running ∧ row.status = .queued ∧ row.Cleared) ∨
    (row₀.status = .cancelRequested ∧ row.status = .cancelRequested ∧
      row.attemptId = row₀.attemptId ∧ row.leaseToken = row₀.leaseToken) ∨
    (row.status = .cancelled ∧ row.Cleared ∧ c)

/-- A settled attempt stays settled, and no attempt is granted. -/
theorem Step.closed_kept (h : Step now l v v') (hl : l.Background) {a : Option AttemptId}
    (hclosed : v.Closed a) : v'.Closed a := by
  cases h with
  | settle b =>
    intro a' ha' g hg
    obtain ⟨g₀, hg₀, hsame, -⟩ := of_settleGrants hg
    exact hsame.settled (hclosed a' ha' g₀ hg₀)
  | respec | register | wait | touch | rebind | admission | stop | request | mark | requeue | keepUnknown
  | recover => exact hclosed
  | _ => simp [Label.Background, Label.Quiet] at hl

theorem Waiting.step (h : ∃ row, v.row = some row ∧ Waiting c v₀ row₀ v row)
    (hres : ¬v.unresolved) (hs : Step now l v v') (hl : l.Quiet ∨ (l = .cancel ∧ c)) :
    ∃ row', v'.row = some row' ∧ Waiting c v₀ row₀ v' row' := by
  obtain ⟨row, hrow, h⟩ := h
  rcases hl with hquiet | ⟨rfl, hc⟩
  · have hcalm := hs.calm hquiet
    obtain ⟨row', hrow', hstage⟩ := hcalm.row row hrow
    refine ⟨row', hrow', ?_⟩
    cases h with
    | leased hstage₀ hhold => exact .leased (hstage₀.trans hstage) (hcalm.hold.trans hhold)
    | cancelled hstatus hcleared hclosed hreleased hc =>
      exact .cancelled (hstage.status.trans hstatus) (hstage.cleared hcleared)
        (hs.closed_kept (.inl hquiet) hclosed) (by unfold Released; rwa [hcalm.hold]) hc
  · cases hs with
    | request _ _ hunresolved => exact absurd hunresolved hres
    | @stop _ row₁ lease b hrow₁ hopen hresolved hlease hclosed hb =>
      obtain rfl := row_eq hrow hrow₁
      refine ⟨_, rfl, .cancelled rfl ⟨rfl, rfl, rfl⟩ ?_ ?_ hc⟩
      · cases h with
        | leased hstage _ => exact hstage.attemptId ▸ hclosed
        | cancelled _ _ hclosed _ _ => exact hclosed
      · cases h with
        | leased hstage _ =>
          rcases hlease with hlease | hlease
          · rw [← hstage.leaseToken, hlease]
            exact released_of_release rfl (.inl rfl)
          · rw [← hstage.leaseToken, hlease]
            exact fun _ _ _ h => nomatch h
        | cancelled _ _ _ hreleased _ => exact released_of_release rfl (.inr hreleased)

theorem Over.step (h : ∃ row, v.row = some row ∧ Over c row₀ v row)
    (hres : ¬v.unresolved) (hs : Step now l v v') (hl : l.Quiet ∨ (l = .cancel ∧ c)) :
    ∃ row', v'.row = some row' ∧ Over c row₀ v' row' := by
  obtain ⟨row, hrow, h⟩ := h
  rcases hl with hquiet | ⟨rfl, hc⟩
  · have hcalm := hs.calm hquiet
    obtain ⟨row', hrow', hstage⟩ := hcalm.row row hrow
    refine ⟨row', hrow', hs.closed_kept (.inl hquiet) h.closed,
      by unfold Released; rw [hcalm.hold]; exact h.released, ?_⟩
    rcases h.outcome with ⟨hr, hq, hcl⟩ | ⟨hr, hq, ha, ht⟩ | ⟨hq, hcl, hc⟩
    · exact .inl ⟨hr, hstage.status.trans hq, hstage.cleared hcl⟩
    · exact .inr (.inl ⟨hr, hstage.status.trans hq, hstage.attemptId.trans ha,
        hstage.leaseToken.trans ht⟩)
    · exact .inr (.inr ⟨hstage.status.trans hq, hstage.cleared hcl, hc⟩)
  · cases hs with
    | request _ _ hunresolved => exact absurd hunresolved hres
    | stop hrow₁ _ _ _ _ _ =>
      exact ⟨_, rfl, h.closed, released_of_release rfl (.inr h.released),
        .inr (.inr ⟨rfl, ⟨rfl, rfl, rfl⟩, hc⟩)⟩

/-- A step of another round brings no external work. -/
theorem Step.resolved_kept (h : Step now l v v') (hl : l.Quiet ∨ (l = .cancel ∧ c))
    (hres : ¬v.unresolved) : ¬v'.unresolved := by
  refine mt (h.unresolved_of ?_ ?_ ?_) hres <;>
    rcases hl with (rfl | rfl) | ⟨rfl, -⟩ <;> simp

/-- What such steps keep of a task without external work is kept by a path of them. -/
theorem Life.preserves_resolved {allowed : Label → Prop} {P : View → Prop}
    (hlife : Life now allowed v v') (hl : ∀ l, allowed l → l.Quiet ∨ (l = .cancel ∧ c))
    (hstep : ∀ {l v v'}, P v → ¬v.unresolved → Step now l v v' → (l.Quiet ∨ (l = .cancel ∧ c)) → P v')
    (hres : ¬v.unresolved) (h : P v) : ¬v'.unresolved ∧ P v' :=
  hlife.preserves (I := fun v => ¬v.unresolved ∧ P v)
    (fun ha hs ⟨hres, h⟩ => ⟨hs.resolved_kept (hl _ ha) hres, hstep h hres hs (hl _ ha)⟩) ⟨hres, h⟩

/-! ## The task's own round -/

theorem Inv.contained_self (hi : Inv s) {l : Label} (h : containLabels s t t l) : l.Quiet :=
  h.resolve_right fun h => hi.childOf_irrefl h.2

/-- A task with external work is marked. -/
theorem Recovers.carries (h : Recovers previous now s t task s') (hi : Inv s)
    (hcarries : Carries now c v₀ row₀ (s.view t) row) :
    ∃ row', Carries now c v₀ row₀ (s'.view t) row' ∧ row'.status ≠ .running := by
  cases h with
  | @ended latest hrow hover h =>
    subst h
    obtain rfl := Option.mem_unique hrow hcarries.stored
    refine ⟨latest, hcarries, fun hrunning => ?_⟩
    simp [hrunning, Status.leased] at hover
  | @unknown latest contained hrow hleased hcontained _ _ hunresolved h =>
    obtain rfl := Option.mem_unique hrow hcarries.stored
    obtain ⟨row₁, hrow₁, hstage⟩ := (hcontained.contained_calm hi).row latest hrow
    obtain ⟨row₂, hcarries₁⟩ := hcarries.life (hcontained.path t) fun l hl =>
      .inl (hi.contained_self hl)
    obtain rfl := row_eq hrow₁ hcarries₁.stored
    have hstatus : latest.status = .cancelRequested → row₂.status = .cancelRequested :=
      fun hr => hstage.status.trans hr
    subst h
    have hrow₂ : contained.tasks.lookup t = some row₂ := hrow₁
    have hview : (contained.recoverUnknownTask previous t task latest.status now).view t =
        { contained.view t with
          row := some { row₂ with
            status := if latest.status = .cancelRequested then .cancelRequested else .queued
            leaseExpiresAt := none, waitingReason := some .providerStateUnknown, updatedAt := now }
          binding := (contained.view t).binding.map (Binding.closed .stale now) } := by
      rw [recoverUnknownTask, view_appendEvent _ _ _ rfl]
      simp [view, recoverUnknown, requeueRun, releaseBinding, hrow₂]
      rfl
    rw [hview]
    refine ⟨_, { hcarries₁ with
      stored := rfl
      unresolved := by simpa [unresolved] using hcarries₁.unresolved
      binding := .inr hcarries₁.closed
      live := by dsimp only; split <;> rfl
      requested := fun hr => if_pos (hcarries.requested hr)
      only := fun hr => hcarries.only ?_ }, ?_⟩
    · by_contra hne
      simp [hne] at hr
    · dsimp only
      split <;> simp
  | taken _ _ hcontained _ _ hresolved _ _ =>
    exact absurd ((hcontained.contained_calm hi).unresolved.mpr hcarries.unresolved) hresolved

/-- A task without external work is taken back, unless it was cancelled before. -/
theorem Recovers.over_own (h : Recovers previous now s t row₀ s') (hi : Inv s)
    (hleased : row₀.status.leased = true) (hres : ¬(s.view t).unresolved)
    (hwaiting : ∃ row, (s.view t).row = some row ∧ Waiting c v₀ row₀ (s.view t) row) :
    ¬(s'.view t).unresolved ∧ ∃ row', (s'.view t).row = some row' ∧ Over c row₀ (s'.view t) row' := by
  obtain ⟨row, hrow, hwaiting⟩ := hwaiting
  cases h with
  | @ended latest hrow' hover h =>
    subst h
    obtain rfl := Option.mem_unique hrow' hrow
    refine ⟨hres, latest, hrow, ?_⟩
    cases hwaiting with
    | leased hstage _ => simp [hstage.status, hleased] at hover
    | cancelled hstatus hcleared hclosed hreleased hc =>
      exact ⟨hclosed, hreleased, .inr (.inr ⟨hstatus, hcleared, hc⟩)⟩
  | unknown _ _ hcontained _ _ hunresolved _ =>
    exact absurd ((hcontained.contained_calm hi).unresolved.mp hunresolved) hres
  | @taken latest reconciled hrow' hlatest hcontained _ _ hresolved hclosed h =>
    obtain rfl := Option.mem_unique hrow' hrow
    have hcalm := hcontained.contained_calm hi
    obtain ⟨row₁, hrow₁, hstage₁⟩ := hcalm.row latest hrow
    have hrow₁ : reconciled.tasks.lookup t = some row₁ := hrow₁
    have hstage : row₀.SameStage row₁ := by
      cases hwaiting with
      | leased hstage _ => exact hstage.trans hstage₁
      | cancelled hstatus => simp [hstatus, Status.leased] at hlatest
    obtain ⟨selected, -, rfl⟩ := recoverTask_ok h
    set released := ((reconciled.recoverQueued t now).requeueRun row₀.runId now).releaseReservations
      t row₀.leaseToken now with hreleased
    have hhold : (released.view t).hold =
        releaseHolds row₀.leaseToken now (reconciled.view t).hold :=
      hold_release (s := (reconciled.recoverQueued t now).requeueRun row₀.runId now) _
    have hprepared := (released.binding_reset t selected reconciled.currentRuntimeEpoch now).1
    refine ⟨not_unresolved_iff.mpr hprepared.resolved, if row₁.status = .running then
      { row₁ with status := .queued, executorId := none, leaseToken := none, leaseExpiresAt := none,
                  attemptId := none, waitingReason := some .runtimeRecovery, updatedAt := now }
      else row₁, ?_, hclosed, released_of_release hhold (.inl rfl), ?_⟩
    · show Table.lookup (Table.modify _ _ _) _ = _
      simp [hrow₁]
    · split
      next hrunning => exact .inl ⟨hstage.status.symm.trans hrunning, rfl, rfl, rfl, rfl⟩
      next hne =>
        have hrequested : row₀.status = .cancelRequested := by
          rw [hstage.status] at hne
          cases hst : row₀.status <;> simp_all [Status.leased]
        exact .inr (.inl ⟨hrequested, hstage.status.trans hrequested, hstage.attemptId,
          hstage.leaseToken⟩)

end OneTask

/-! ## All rounds -/

theorem Label.Background.keepsSpec (h : l.Background) : l.KeepsSpec := by
  rcases h with h | rfl | rfl
  · exact h.keepsSpec
  · simp [Label.KeepsSpec]
  · simp [Label.KeepsSpec]

/-- What one round does, and the round lemma of the proofs before this one. -/
theorem Inv.recoverInterrupted_round {s₁ s₂ : State} {e : TaskId × Task} (hi : Inv s)
    (hrow : s.tasks.lookup e.1 = some e.2) (hev : Evolves now backgroundLabels s s₁)
    (h : s₁.recoverInterrupted previous now e = .ok s₂) :
    Evolves now backgroundLabels s₁ s₂ ∧ Recovers previous now s₁ e.1 e.2 s₂ :=
  ⟨(hev.inv hi).recoverInterrupted (fun _ hrow' => hev.background_lease hrow hrow') h,
    (hev.inv hi).recoverInterrupted_ok h⟩

/-- The rounds of other tasks. -/
theorem Inv.around (hi : Inv s)
    (hrows : ∀ e ∈ items, s.tasks.lookup e.1 = some e.2 ∧ e.2.status.leased = true)
    (hne : ∀ e ∈ items, e.1 ≠ t) {s₁ s₂ : State} (hev : Evolves now backgroundLabels s s₁)
    (h : items.foldlM (State.recoverInterrupted previous now) s₁ = .ok s₂) :
    Evolves now backgroundLabels s₁ s₂ ∧
      Life now (aroundLabels s t) (s₁.view t) (s₂.view t) := by
  have hrel := foldlM_rel
    (R := fun s₁ s₂ => Evolves now backgroundLabels s s₁ → Evolves now backgroundLabels s₁ s₂ ∧
      Life now (aroundLabels s t) (s₁.view t) (s₂.view t))
    (fun s₁ _ => ⟨.refl s₁, .refl _⟩)
    (fun h₁ h₂ hev => by
      obtain ⟨hev₁, hlife₁⟩ := h₁ hev
      obtain ⟨hev₂, hlife₂⟩ := h₂ (hev.trans hev₁)
      exact ⟨hev₁.trans hev₂, hlife₁.trans hlife₂⟩)
    (fun e he s₁ s₂ hround hev => by
      obtain ⟨hev₁, hrecovers⟩ := hi.recoverInterrupted_round (hrows e he).1 hev hround
      refine ⟨hev₁, (hrecovers.elsewhere (hne e he).symm).mono fun l hl => ?_⟩
      refine hl.imp id fun ⟨hc, hchild⟩ => ⟨hc, e.1, e.2, (hrows e he).1, (hrows e he).2, ?_⟩
      exact (hev.childOf_iff fun _ _ hl => hl.keepsSpec).mp hchild) h
  exact hrel hev

/-- The bindings and the attempts after all rounds. -/
theorem Inv.rounds (hi : Inv s) (hrows : ∀ e ∈ items, s.tasks.lookup e.1 = some e.2)
    (h : items.foldlM (State.recoverInterrupted previous now) s = .ok s') :
    (s.Fresh → s'.Fresh) ∧ ∀ a x, s.attempts.lookup a = some x → (s.view x.taskId).unresolved →
      s'.attempts.lookup a = some x := by
  have hrel := foldlM_rel
    (R := fun s₁ s₂ => Evolves now backgroundLabels s s₁ → Evolves now backgroundLabels s₁ s₂ ∧
      (s₁.Fresh → s₂.Fresh) ∧ ∀ a x, s₁.attempts.lookup a = some x →
        (s₁.view x.taskId).unresolved → s₂.attempts.lookup a = some x)
    (fun s₁ _ => ⟨.refl s₁, id, fun _ _ hx _ => hx⟩)
    (fun h₁ h₂ hev => by
      obtain ⟨hev₁, hfresh₁, hkept₁⟩ := h₁ hev
      obtain ⟨hev₂, hfresh₂, hkept₂⟩ := h₂ (hev.trans hev₁)
      exact ⟨hev₁.trans hev₂, hfresh₂ ∘ hfresh₁, fun a x hx hu => hkept₂ a x (hkept₁ a x hx hu)
        ((hev₁.path x.taskId).unresolved_kept (fun _ => .inl) hu)⟩)
    (fun e he s₁ s₂ hround hev => by
      obtain ⟨hev₁, hrecovers⟩ := hi.recoverInterrupted_round (hrows e he) hev hround
      exact ⟨hev₁, hrecovers.fresh, fun a x => hrecovers.attempts⟩) h
  exact (hrel (.refl s)).2

theorem State.leased_rows (s : State) : ∀ e ∈ s.tasks.entries.filter fun e => e.2.status.leased,
    s.tasks.lookup e.1 = some e.2 ∧ e.2.status.leased = true :=
  fun _ he => ⟨Table.lookup_of_mem_filter he, (List.mem_filter.mp he).2⟩

/-- A task that does not hold a lease sees only the rounds of others. -/
theorem Inv.rounds_other (hi : Inv s) (hrow : s.tasks.lookup t = some row)
    (hleased : row.status.leased = false)
    (h : (s.tasks.entries.filter fun e => e.2.status.leased).foldlM
      (State.recoverInterrupted previous now) s = .ok s') :
    Life now (aroundLabels s t) (s.view t) (s'.view t) := by
  refine (hi.around s.leased_rows (fun e he => ?_) (.refl s) h).2
  rintro rfl
  obtain ⟨hrow', hl⟩ := s.leased_rows e he
  rw [Option.mem_unique hrow' hrow, hleased] at hl
  cases hl

/-- A task that holds a lease has a round of its own, and only one. -/
theorem Inv.rounds_own (hi : Inv s) (hrow : s.tasks.lookup t = some row)
    (hleased : row.status.leased = true)
    (h : (s.tasks.entries.filter fun e => e.2.status.leased).foldlM
      (State.recoverInterrupted previous now) s = .ok s') :
    ∃ s₁ s₂, Inv s₁ ∧ Life now (aroundLabels s t) (s.view t) (s₁.view t) ∧
      Recovers previous now s₁ t row s₂ ∧
      Life now (aroundLabels s t) (s₂.view t) (s'.view t) := by
  have hrows := s.leased_rows
  have hmem : (t, row) ∈ s.tasks.entries.filter fun e => e.2.status.leased :=
    List.mem_filter.mpr ⟨Table.lookup_eq_some_iff.mp hrow, hleased⟩
  have hnodup : ((s.tasks.entries.filter fun e => e.2.status.leased).map Prod.fst).Nodup :=
    s.tasks.nodup.sublist (List.filter_sublist.map _)
  -- the rounds before, the round of the task, and the rounds after
  obtain ⟨before, after, hsplit⟩ := List.append_of_mem hmem
  rw [hsplit] at hrows hnodup h
  rw [List.map_append, List.map_cons, List.nodup_append, List.nodup_cons] at hnodup
  obtain ⟨-, ⟨hafter, -⟩, hdisjoint⟩ := hnodup
  rw [List.foldlM_append] at h
  obtain ⟨s₁, hbefore, h⟩ := bind_eq_ok.mp h
  rw [List.foldlM_cons] at h
  obtain ⟨s₂, hown, h⟩ := bind_eq_ok.mp h
  obtain ⟨hev₁, hlife₁⟩ := hi.around (t := t) (fun e he => hrows e (List.mem_append_left _ he))
    (fun e he hte => hdisjoint e.1 (List.mem_map_of_mem he) t (by simp) hte) (.refl s) hbefore
  obtain ⟨hev₂, hrecovers⟩ := hi.recoverInterrupted_round hrow hev₁ hown
  obtain ⟨-, hlife₂⟩ := hi.around (t := t)
    (fun e he => hrows e (List.mem_append_right _ (.tail _ he)))
    (fun e he hte => hafter (List.mem_map.mpr ⟨e, he, hte⟩)) (hev₁.trans hev₂) h
  exact ⟨s₁, s₂, hev₁.inv hi, hlife₁, hrecovers, hlife₂⟩

/-- The rounds of others start nothing. -/
theorem Step.not_running {c : Prop} (hs : Step now l v v') (hl : l.Quiet ∨ (l = .cancel ∧ c))
    (h : ∀ row, v.row = some row → row.status ≠ .running) :
    ∀ row, v'.row = some row → row.status ≠ .running := by
  rcases hl with hquiet | ⟨rfl, -⟩
  · intro row' hrow'
    cases hrow : v.row with
    | none =>
      have hnone := hs.row_none (by rintro lin rfl; simp [Label.Quiet] at hquiet) hrow
      simp [hnone] at hrow'
    | some row =>
      obtain ⟨row₁, hrow₁, hstage⟩ := (hs.calm hquiet).row row hrow
      obtain rfl := row_eq hrow₁ hrow'
      exact hstage.status ▸ h row hrow
  · cases hs with
    | stop | request => rintro _ ⟨⟩; simp

/-! ## The restart -/

/-- A task whose external executor may still run: it carries its attempt, its placement and its
reservations, and is marked. -/
structure KeptUnknown (s s' : State) (t : TaskId) (row row' : Task) : Prop where
  marked : row'.waitingReason = some .providerStateUnknown
  requested : row.status = .cancelRequested → row'.status = .cancelRequested
  status : row'.status = .queued ∨
    (row'.status = .cancelRequested ∧ (row.status = .cancelRequested ∨ s.Contained t))
  attemptId : row'.attemptId = row.attemptId
  leaseToken : row'.leaseToken = row.leaseToken
  leaseFence : row'.leaseFence = row.leaseFence
  executorId : row'.executorId = row.executorId
  attempts : ∀ a x, s.attempts.lookup a = some x → x.taskId = t → s'.attempts.lookup a = some x
  placement : ∀ b, s.bindings.lookup t = some b → ∃ b', s'.bindings.lookup t = some b' ∧
    b'.placement = b.placement ∧ b'.attemptId = b.attemptId ∧ b'.selected = b.selected
  reservations : ∀ k, s'.reservations.lookup (t, k) = s.reservations.lookup (t, k)

/-- A task without external work: its attempt is settled and the reservations of its lease are
released. One that was running is back in the queue without a lease, one whose cancel was requested
stays so, and a delegated child of a task that held a lease may be cancelled. -/
structure TakenBack (s s' : State) (t : TaskId) (row row' : Task) : Prop where
  settled : (s'.view t).Closed row.attemptId
  released : (s'.view t).Released row.leaseToken
  outcome : (row.status = .running ∧ row'.status = .queued ∧ row'.Cleared) ∨
    (row.status = .cancelRequested ∧ row'.status = .cancelRequested) ∨
    (row'.status = .cancelled ∧ row'.Cleared ∧ s.Contained t)
  binding : row'.status ≠ .cancelled → ∀ b, s'.bindings.lookup t = some b →
    b.status = .prepared ∧ b.runtimeEpoch = s'.currentRuntimeEpoch

/-- What a restart leaves of a task. -/
structure Restarted (s s' : State) (t : TaskId) (row row' : Task) : Prop where
  notRunning : row'.status ≠ .running
  unknown : row.status.leased = true → (s.view t).unresolved → KeptUnknown s s' t row row'
  taken : row.status.leased = true → ¬(s.view t).unresolved → TakenBack s s' t row row'
  other : row.status.leased = false → ¬s.Contained t → row'.status = row.status

section Rounds

variable (hi : Inv s) (hrow : s.tasks.lookup t = some row)
  (h : (s.tasks.entries.filter fun e => e.2.status.leased).foldlM
    (State.recoverInterrupted previous now) s = .ok s')

include hi hrow h

/-- The rounds of a task that held no lease. -/
theorem Inv.rounds_rest (hleased : row.status.leased = false) :
    ∃ row', s'.tasks.lookup t = some row' ∧ row'.status ≠ .running ∧
      (¬s.Contained t → row'.status = row.status) := by
  have hlife := hi.rounds_other hrow hleased h
  obtain ⟨row', hrow', -⟩ := hlife.later.row row hrow
  refine ⟨row', hrow', ?_, fun hnot => ?_⟩
  · refine hlife.preserves (I := fun v => ∀ row, v.row = some row → row.status ≠ .running)
      (fun ha hs h => hs.not_running ha h) (fun row₁ hrow₁ => ?_) row' hrow'
    rw [row_eq hrow hrow₁]
    rintro hrunning
    simp [hrunning, Status.leased] at hleased
  · have hcalm := hlife.calm fun l hl => hl.resolve_right fun hc => hnot hc.2
    obtain ⟨row₁, hrow₁, hstage⟩ := hcalm.row row hrow
    exact row_eq hrow₁ hrow' ▸ hstage.status

variable (hi' : Inv s')

include hi'

/-- The rounds of a task with external work. -/
theorem Inv.rounds_unknown (hleased : row.status.leased = true) (hu : (s.view t).unresolved) :
    ∃ row', s'.tasks.lookup t = some row' ∧ KeptUnknown s s' t row row' := by
  obtain ⟨s₁, s₂, hi₁, hlife₁, hrecovers, hlife₂⟩ := hi.rounds_own hrow hleased h
  have hstart : Carries now (s.Contained t) (s.view t) row (s.view t) row :=
    { stored := hrow, unresolved := hu, hold := rfl, binding := .inl rfl, attemptId := rfl
      leaseToken := rfl, leaseFence := rfl, executorId := rfl
      live := Status.leased_live hleased, requested := id, only := .inl }
  obtain ⟨row₁, hcarries₁⟩ := hstart.life hlife₁ fun _ => id
  obtain ⟨row₂, hcarries₂, hnot⟩ := hrecovers.carries hi₁ hcarries₁
  obtain ⟨row', hcarries⟩ := hcarries₂.life hlife₂ fun _ => id
  have hrunning : row'.status ≠ .running := by
    have hstay : ∀ row, (s'.view t).row = some row → row.status ≠ .running :=
      hlife₂.preserves (I := fun v => ∀ row, v.row = some row → row.status ≠ .running)
        (fun ha hs h => hs.not_running ha h)
        fun row₃ hrow₃ => row_eq hcarries₂.stored hrow₃ ▸ hnot
    exact hstay row' hcarries.stored
  have hwf := (hi'.view t).row row' hcarries.stored
  have hstatus : row'.status = .queued ∨ row'.status = .cancelRequested := by
    have hlive := hcarries.live
    cases hst : row'.status <;> simp_all [Status.terminal]
  have hmarked : row'.unknown = true := by
    rcases hstatus with hq | hr
    · exact hwf.queued_marked hq hcarries.unresolved
    · exact hwf.requested_marked hr
  exact ⟨row', hcarries.stored,
    { marked := by simpa [Task.unknown] using hmarked
      requested := hcarries.requested
      status := hstatus.imp id fun hr => ⟨hr, hcarries.only hr⟩
      attemptId := hcarries.attemptId
      leaseToken := hcarries.leaseToken
      leaseFence := hcarries.leaseFence
      executorId := hcarries.executorId
      attempts := fun a x hx ht =>
        (hi.rounds (fun _ => Table.lookup_of_mem_filter) h).2 a x hx (ht ▸ hu)
      placement := by
        intro b hb
        have hb : (s.view t).binding = some b := hb
        rcases hcarries.binding with hsame | hclosed
        · exact ⟨b, hsame.trans hb, rfl, rfl, rfl⟩
        · rw [hb] at hclosed
          refine ⟨b.closed .stale now, hclosed, ?_⟩
          unfold Binding.closed
          split <;> exact ⟨rfl, rfl, rfl⟩
      reservations := fun k => congrFun hcarries.hold k }⟩

/-- The rounds of a task without external work. -/
theorem Inv.rounds_taken (hfresh : s.Fresh) (hleased : row.status.leased = true)
    (hres : ¬(s.view t).unresolved) :
    ∃ row', s'.tasks.lookup t = some row' ∧ TakenBack s s' t row row' := by
  obtain ⟨s₁, s₂, hi₁, hlife₁, hrecovers, hlife₂⟩ := hi.rounds_own hrow hleased h
  obtain ⟨hres₁, hwaiting⟩ := hlife₁.preserves_resolved (fun _ => id) Waiting.step hres
    ⟨row, hrow, .leased (.refl row) rfl⟩
  obtain ⟨hres₂, hover₂⟩ := hrecovers.over_own hi₁ hleased hres₁ hwaiting
  obtain ⟨hres', row', hrow', hover⟩ :=
    hlife₂.preserves_resolved (fun _ => id) Over.step hres₂ hover₂
  refine ⟨row', hrow', hover.closed, hover.released, ?_, fun hne b hb => ?_⟩
  · exact hover.outcome.imp id (Or.imp (fun h => ⟨h.1, h.2.1⟩) id)
  · have hlive : row'.status.terminal = false := by
      rcases hover.outcome with ⟨-, hq, -⟩ | ⟨-, hr, -⟩ | ⟨hc, -⟩
      · rw [hq]; rfl
      · rw [hr]; rfl
      · exact absurd hc hne
    have hprepared : b.status = .prepared := by
      refine (((hi'.view t).row row' hrow').open_binding hlive b hb).resolve_right fun hu => ?_
      exact hres' ⟨b, hb, hu⟩
    exact ⟨hprepared,
      ((hi.rounds (fun _ => Table.lookup_of_mem_filter) h).1 hfresh t b hb hprepared).1⟩

theorem Inv.rounds_restarted (hfresh : s.Fresh) :
    ∃ row', s'.tasks.lookup t = some row' ∧ Restarted s s' t row row' := by
  by_cases hleased : row.status.leased = true
  · by_cases hu : (s.view t).unresolved
    · obtain ⟨row', hrow', hkept⟩ := hi.rounds_unknown hrow h hi' hleased hu
      refine ⟨row', hrow', ?_, fun _ _ => hkept, fun _ hres => absurd hu hres, fun hf => ?_⟩
      · rcases hkept.status with hq | ⟨hr, -⟩ <;> simp [*]
      · simp [hleased] at hf
    · obtain ⟨row', hrow', htaken⟩ := hi.rounds_taken hrow h hi' hfresh hleased hu
      refine ⟨row', hrow', ?_, fun _ hu' => absurd hu' hu, fun _ _ => htaken, fun hf => ?_⟩
      · rcases htaken.outcome with ⟨-, hq, -⟩ | ⟨-, hr⟩ | ⟨hc, -⟩ <;> simp [*]
      · simp [hleased] at hf
  · have hleased : row.status.leased = false := by simpa using hleased
    obtain ⟨row', hrow', hnot, hsame⟩ := hi.rounds_rest hrow h hleased
    exact ⟨row', hrow', hnot, fun ht => absurd ht (by simp [hleased]),
      fun ht => absurd ht (by simp [hleased]), fun _ => hsame⟩

end Rounds

/-- The rows that the opening of the session leaves alone. -/
theorem State.openSession_external {b : Binding} (hb : s.bindings.lookup t = some b)
    (hu : b.unresolvedExternal = true) :
    (s.openSession boot epoch now).bindings.lookup t = some b := by
  have hne : b.status ≠ .prepared := fun hp => by simp [Binding.unresolvedExternal, hp] at hu
  simp [openSession, refreshPrepared, hb, hne]

theorem State.openSession_unresolved :
    ((s.openSession boot epoch now).view t).unresolved ↔ (s.view t).unresolved := by
  constructor
  · rintro ⟨b, hb, hu⟩
    have hb : (s.openSession boot epoch now).bindings.lookup t = some b := hb
    simp only [openSession, refreshPrepared, Table.lookup_mapRows] at hb
    obtain ⟨b₀, hb₀, rfl⟩ := Option.map_eq_some_iff.mp hb
    refine ⟨b₀, hb₀, ?_⟩
    split at hu
    next hp => simp [Binding.unresolvedExternal, hp] at hu
    next => exact hu
  · rintro ⟨b, hb, hu⟩
    exact ⟨b, openSession_external hb hu, hu⟩

/-- What a restart leaves, seen from the state before the session was opened. -/
theorem Restarted.of_openSession (h : Restarted (s.openSession boot epoch now) s' t row row') :
    Restarted s s' t row row' where
  notRunning := h.notRunning
  unknown hleased hu :=
    let hkept := h.unknown hleased (openSession_unresolved.mpr hu)
    { hkept with
      placement := by
        intro b hb
        obtain ⟨b₀, hb₀, hu₀⟩ := hu
        obtain rfl := Option.mem_unique hb₀ hb
        exact hkept.placement b₀ (openSession_external hb hu₀) }
  taken hleased hres :=
    let htaken := h.taken hleased (mt openSession_unresolved.mp hres)
    { htaken with }
  other := h.other

/-- The checkpoints are not part of it. -/
theorem Restarted.recoverCheckpoints (h : Restarted s s' t row row') :
    Restarted s (s'.recoverCheckpoints previous) t row row' where
  notRunning := h.notRunning
  unknown hleased hu := { h.unknown hleased hu with }
  taken hleased hres := { h.taken hleased hres with }
  other := h.other

/-- **Restart.** A session that begins has an epoch above the stored one and the floor. After it no
task is running. A task that held a lease and whose verified external executor may still run carries
its attempt, its placement and its reservations and is marked; every other task that held a lease is
taken back, or cancelled as a delegated child of a task that held one. Every other task that is not
such a child keeps its status. -/
theorem restart_loses_nothing {boot : String} {floor : Option Int} (hr : Reachable s)
    (h : s.beginRuntimeSession boot floor now = .ok s') :
    (s.currentRuntimeEpoch < s'.currentRuntimeEpoch ∧ floor.getD 0 < s'.currentRuntimeEpoch) ∧
      (∀ t row', s'.tasks.lookup t = some row' → row'.status ≠ .running) ∧
      ∀ t row, s.tasks.lookup t = some row →
        ∃ row', s'.tasks.lookup t = some row' ∧ Restarted s s' t row row' := by
  have hi := hr.inv
  have hepoch := State.beginRuntimeSession_epoch h
  have hpath := (hi.beginRuntimeSession h).path
  have htasks : ∀ t row, s.tasks.lookup t = some row →
      ∃ row', s'.tasks.lookup t = some row' ∧ Restarted s s' t row row' := by
    simp only [State.beginRuntimeSession, bind_eq_ok, require_eq_ok, return_ok] at h
    obtain ⟨_, -, _, -, recovered, hloop, hs'⟩ := h
    intro t row hrow
    have hopen : Evolves now backgroundLabels s (s.openSession boot
        (max s.currentRuntimeEpoch (floor.getD 0).toNat + 1) now) :=
      .openSession (by omega)
    have hopened := hopen.inv hi
    have hrecovered : Inv recovered :=
      (Evolves.loop hopened (fun e he {s₁ s₂} _ hev hround => (hopened.recoverInterrupted_round
        (Table.lookup_of_mem_filter he) hev hround).1) hloop).inv hopened
    obtain ⟨row', hrow', hrestarted⟩ := hopened.rounds_restarted hrow hloop
      hrecovered State.fresh_openSession
    rw [← hs']
    split
    · exact ⟨row', hrow', hrestarted.of_openSession⟩
    · exact ⟨row', hrow', hrestarted.of_openSession.recoverCheckpoints⟩
  refine ⟨⟨by omega, by omega⟩, fun t row' hrow' => ?_, htasks⟩
  cases hrow : s.tasks.lookup t with
  | none =>
    have hnone : s'.tasks.lookup t = none :=
      (hpath t).row_none (fun _ hc => hc.ne.2.2.1 _ rfl) hrow
    simp [hnone] at hrow'
  | some row =>
    obtain ⟨row₁, hrow₁, hrestarted⟩ := htasks t row hrow
    exact Option.mem_unique hrow₁ hrow' ▸ hrestarted.notRunning

/-- A task that may delegate and its child are running. -/
def parentAndChildRunning : State := initial.replay (delegationRun ++ [claimsChild])

theorem restart_loses_nothing_delegation :
    ∃ s', parentAndChildRunning.beginRuntimeSession "boot-2" (some 5) 6 = .ok s' ∧
      5 < s'.currentRuntimeEpoch ∧
      ∃ row row', parentAndChildRunning.tasks.lookup "task-2" = some row ∧
        s'.tasks.lookup "task-2" = some row' ∧
        Restarted parentAndChildRunning s' "task-2" row row' := by
  have hok : (parentAndChildRunning.beginRuntimeSession "boot-2" (some 5) 6).isOk = true := by
    decide +kernel
  obtain ⟨row, hrow⟩ : ∃ row, parentAndChildRunning.tasks.lookup "task-2" = some row :=
    Option.isSome_iff_exists.mp (by decide +kernel)
  cases h : parentAndChildRunning.beginRuntimeSession "boot-2" (some 5) 6 with
  | error e => simp [h, Except.isOk, Except.toBool] at hok
  | ok s' =>
    obtain ⟨⟨-, hfloor⟩, -, htasks⟩ := restart_loses_nothing (Reachable.replay _) h
    obtain ⟨row', hrow', hrestarted⟩ := htasks "task-2" row hrow
    have hfloor : (5 : Int) < s'.currentRuntimeEpoch := hfloor
    exact ⟨s', rfl, by omega, row, row', hrow, hrow', hrestarted⟩

/-- A cancel was requested of a task on the machine, the daemon restarted, and a resume that was
refused has reset the binding. -/
def cancelledThenRefused : State :=
  initial.replay (checkpointedRun [] ++
    [(.tick 6 "6", .cancelTask "task-2" (.obj []) (some "cancel")),
      (.tick 7 "7", .beginRuntimeSession "boot-2" none),
      (.tick 100000 "8", .resumeAttempt (checkpointResume 2))])

/-- The child of a running task is running, without a binding; the restart cancels it. A task whose
cancel was requested and whose binding a refused resume has reset stays so. -/
theorem restart_does_not_requeue :
    (Reachable parentAndChildRunning ∧
      parentAndChildRunning.statusOf "task-4" = some .running ∧
      parentAndChildRunning.bindings.lookup "task-4" = none ∧
      (parentAndChildRunning.replay
        [(.tick 6 "6", .beginRuntimeSession "boot-2" none)]).statusOf "task-4" =
          some .cancelled) ∧
      Reachable cancelledThenRefused ∧
      cancelledThenRefused.statusOf "task-2" = some .cancelRequested ∧
      ¬(cancelledThenRefused.view "task-2").unresolved ∧
      (cancelledThenRefused.replay
        [(.tick 100001 "9", .beginRuntimeSession "boot-3" none)]).statusOf "task-2" =
          some .cancelRequested :=
  ⟨⟨Reachable.replay _, by decide +kernel⟩, Reachable.replay _, by decide +kernel⟩

end WorkspaceRuntime
