import WorkspaceRuntime.Lifecycle.Facts

/-!
# Well-formed views

The invariant of the automaton. `RowWf` says how the row of a task fits its binding, its admission
and its spec; the part about external work is the reason why the guards of the automaton are the ones
that the commands check.
-/

namespace WorkspaceRuntime

open View

variable {now : Time} {l : Label} {v v' : View} {allowed : Label → Prop} {row : Task}
  {children : List ResolvedChild} {sp : TaskSpec}

/-- How the row of a task fits the rest of its view. -/
structure View.RowWf (v : View) (row : Task) : Prop where
  running_fence : row.status = .running → row.leaseFence ≠ 0
  running_deadline : row.status = .running → row.leaseExpiresAt ≠ none
  running_claimed : row.status = .running →
    ∀ b ∈ v.binding, b.unresolvedExternal = true → b.status = .claimed
  requested_marked : row.status = .cancelRequested → row.unknown = true
  marked_live : row.unknown = true → row.status.terminal = false
  queued_marked : row.status = .queued → v.unresolved → row.unknown = true
  /-- The binding of an open task waits for an attempt, or belongs to one that is not known to have
  stopped. -/
  open_binding : row.status.terminal = false →
    ∀ b ∈ v.binding, b.status = .prepared ∨ b.unresolvedExternal = true
  done_resolved : row.status = .completed ∨ row.status = .failed → ¬v.unresolved
  queued_fence : row.status = .queued → v.unresolved → row.leaseFence ≠ 0
  /-- A task that was ever started is no continuation, or is an admitted one. -/
  started : row.leaseFence ≠ 0 → v.admission = none → ∀ i, v.dep i = none
  storage : ∀ sp e, row.spec = some sp → sp.storageEstimate = some e →
    validateStorageEstimate e = .ok ()
  admitted : ∀ adm, v.admission = some adm →
    adm.inputObjectIds = orderedInputs adm.children ∧ ResolvedFor v.dep adm.children ∧
      ∀ sp, row.spec = some sp → sp.spec ≠ none → sp.inputObjectIds = adm.inputObjectIds
  pending : v.admission = none → (v.dep 0).isSome = true →
    ∀ sp, row.spec = some sp → sp.spec ≠ none → sp.Continues ∧ sp.inputObjectIds = []
  request : ∀ q, row.executionRequest = some q → ∃ sp, row.spec = some sp ∧
    (v.admission = none → normalizeExecutionRequest q sp.inputObjectIds = .ok q) ∧
    ∀ adm, v.admission = some adm →
      sp.inputObjectIds = adm.inputObjectIds ∧ normalizeExecutionRequest q [] = .ok q
  grant_le : ∀ a g, v.grant a = some g → g.fence ≤ row.leaseFence
  /-- A running task names the attempt of its fence. -/
  grant_current : row.status = .running → ∀ a g, v.grant a = some g → g.fence = row.leaseFence →
    row.attemptId = some a

/-- The invariant of a view. -/
structure View.Wf (v : View) : Prop where
  blank : v.row = none → v = blank
  dep_lt : ∀ i p, v.dep i = some p → i < 2
  dep_pair : (v.dep 0).isSome = (v.dep 1).isSome
  row : ∀ row, v.row = some row → v.RowWf row

theorem View.wf_blank : blank.Wf where
  blank _ := rfl
  dep_lt _ _ h := by simp [blank] at h
  dep_pair := rfl
  row _ h := by simp [blank] at h

/-- A step that keeps the dependency rows is checked on its new row. -/
theorem View.Wf.of_row (h : v.Wf) (hrow : v'.row = some row) (hdep : v'.dep = v.dep)
    (hwf : v'.RowWf row) : v'.Wf where
  blank hnone := by simp [hrow] at hnone
  dep_lt := hdep ▸ h.dep_lt
  dep_pair := hdep ▸ h.dep_pair
  row row' hrow' := row_eq hrow hrow' ▸ hwf

/-- A step that changes the binding only, to one without external work. -/
theorem View.Wf.of_binding {b : Option Binding} (h : v.Wf) (hb : Resolved b)
    (hsome : b.isSome = true → v.row ≠ none)
    (hopen : ∀ row, v.row = some row → row.status.terminal = false → Prepared b) :
    Wf { v with binding := b } := by
  have hres : ¬unresolved { v with binding := b } := not_unresolved_iff.mpr hb
  refine ⟨fun hnone => ?_, h.dep_lt, h.dep_pair, fun row hrow => ?_⟩
  · have hb : b = none := by
      cases hb : b with
      | none => rfl
      | some x => exact absurd hnone (hsome (by simp [hb]))
    rw [hb, h.blank hnone]
    rfl
  · exact { h.row row hrow with
      running_claimed := fun _ x hx hu => absurd (hb x hx) (by simp [hu])
      queued_marked := fun _ hu => absurd hu hres
      open_binding := fun ho x hx => .inl (hopen row hrow ho x hx)
      done_resolved := fun _ => hres
      queued_fence := fun _ hu => absurd hu hres }

/-- A task with a binding has a row. -/
theorem View.Wf.row_of_binding (h : v.Wf) (hb : v.binding.isSome = true) : v.row ≠ none := by
  intro hnone
  simp [h.blank hnone, View.blank] at hb

theorem ResolvedFor.dep_isSome {dep : Nat → Option TaskId} (h : ResolvedFor dep children) :
    (dep 0).isSome = true := by
  unfold ResolvedFor at h
  match children, h with
  | c :: _, h =>
    have h0 : (c.ordinal, some c.taskId) = (0, dep 0) := by
      simpa using congrArg List.head? h
    simp [← (Prod.mk.inj h0).2]

/-- An edit that keeps the body of the spec keeps what is known about the spec. -/
theorem View.RowWf.respec {sp' : TaskSpec} (h : v.RowWf row) (hspec : row.spec = some sp)
    (hbody : sp.SameBody sp') :
    RowWf { v with row := some { row with spec := some sp' } } { row with spec := some sp' } :=
  { h with
    storage := by
      rintro _ e ⟨rfl⟩ he
      exact h.storage sp e hspec (hbody.storage ▸ he)
    admitted := by
      intro adm hadm
      obtain ⟨hin, hfor, hsp⟩ := h.admitted adm hadm
      refine ⟨hin, hfor, ?_⟩
      rintro _ ⟨rfl⟩ hne
      rw [hbody.inputs]
      exact hsp sp hspec (hbody.body ▸ hne)
    pending := by
      rintro hnone hdep _ ⟨rfl⟩ hne
      obtain ⟨⟨fields, deps, hf, hd⟩, hin⟩ := h.pending hnone hdep sp hspec (hbody.body ▸ hne)
      exact ⟨⟨fields, deps, hbody.body.trans hf, hd⟩, hbody.inputs.trans hin⟩
    request := by
      intro q hq
      obtain ⟨sp₀, hsp₀, hnone, hsome⟩ := h.request q hq
      obtain rfl := Option.mem_unique hsp₀ hspec
      exact ⟨sp', rfl, fun hn => hbody.inputs ▸ hnone hn,
        fun adm ha => ⟨hbody.inputs.trans (hsome adm ha).1, (hsome adm ha).2⟩⟩ }

/-- The stamp of a start keeps what is known about the spec. -/
theorem View.RowWf.stamp {spec : Option TaskSpec} (h : v.RowWf row) (hspec : Stamped row.spec spec) :
    RowWf { v with row := some { row with spec := spec } } { row with spec := spec } := by
  rcases hspec with rfl | ⟨toolchain, rfl⟩
  · exact { h with }
  cases hsp : row.spec with
  | some sp => exact h.respec hsp ⟨rfl, rfl, rfl, rfl⟩
  | none =>
    -- a retired spec reads as the empty body, about which nothing is known
    refine { h with storage := ?_, admitted := ?_, pending := ?_, request := ?_ }
    · rintro _ e ⟨rfl⟩ he
      simp at he
    · intro adm hadm
      obtain ⟨hin, hfor, -⟩ := h.admitted adm hadm
      exact ⟨hin, hfor, by rintro _ ⟨rfl⟩ hne; simp at hne⟩
    · rintro _ _ _ ⟨rfl⟩ hne
      simp at hne
    · intro q hq
      obtain ⟨sp, hs, -⟩ := h.request q hq
      simp [hsp] at hs

/-- The admission of a continuation. -/
theorem View.RowWf.admission {sp' : TaskSpec} (h : v.RowWf row) (hnone : v.admission = none)
    (hresolved : ¬v.unresolved) (hqueued : row.status = .queued) (hspec : row.spec = some sp)
    (hfor : ResolvedFor v.dep children)
    (hset : setResolvedChildren { sp with inputObjectIds := orderedInputs children } children =
      .ok sp') :
    RowWf { v with
        row := some { row with spec := some sp', waitingReason := none, updatedAt := now }
        admission := some
          { children, inputObjectIds := orderedInputs children, admittedAt := now } }
      { row with spec := some sp', waitingReason := none, updatedAt := now } := by
  obtain ⟨⟨_, _, hbody, _⟩, -, hin, hst, -⟩ := setResolvedChildren_ok hset
  have hempty : sp.inputObjectIds = [] :=
    (h.pending hnone hfor.dep_isSome sp hspec (fun h0 => by simp [h0] at hbody)).2
  exact { h with
    requested_marked := fun hreq => by simp [hqueued] at hreq
    marked_live := fun hm => by simp [Task.unknown] at hm
    queued_marked := fun _ hu => absurd hu hresolved
    started := fun _ hadm => by simp at hadm
    storage := by
      rintro _ e ⟨rfl⟩ he
      exact h.storage sp e hspec (hst ▸ he)
    admitted := by
      rintro _ ⟨rfl⟩
      exact ⟨rfl, hfor, by rintro _ ⟨rfl⟩ _; exact hin⟩
    pending := fun hadm => by simp at hadm
    request := by
      intro q hq
      obtain ⟨sp₀, hsp₀, hn, -⟩ := h.request q hq
      obtain rfl := Option.mem_unique hsp₀ hspec
      refine ⟨sp', rfl, fun hadm => by simp at hadm, ?_⟩
      rintro _ ⟨rfl⟩
      exact ⟨hin, by rw [← hempty]; exact hn hnone⟩ }

/-- The rows of a new task fit each other. -/
theorem View.Created.wf (h : v.Created row sp) : v.Wf := by
  have hres : ¬v.unresolved := not_unresolved_iff.mpr h.prepared.resolved
  refine ⟨fun hnone => by simp [h.stored] at hnone, h.dep_lt, h.dep_pair, fun row' hrow' => ?_⟩
  obtain rfl := row_eq h.stored hrow'
  constructor
  case open_binding => exact fun _ b hb => .inl (h.prepared b hb)
  case storage =>
    intro sp' e hsp' he
    obtain rfl := Option.mem_unique hsp' h.spec
    exact h.storage e he
  case pending =>
    intro _ hdep sp' hsp' _
    obtain rfl := Option.mem_unique hsp' h.spec
    exact h.continuation hdep
  case request =>
    intro q hq
    exact ⟨sp, h.spec, fun _ => h.request q hq, fun adm ha => by simp [h.admission] at ha⟩
  all_goals simp_all [h.status, h.fence, h.waiting, h.admission, h.grant]

/-- A row that neither runs nor waits for a stop, without external work. -/
theorem View.RowWf.idle {row' : Task} {b : Option Binding} {hold : ResourceKey → Option Reservation}
    (h : v.RowWf row) (hfence : row'.leaseFence = row.leaseFence) (hspec : row'.spec = row.spec)
    (hrequest : row'.executionRequest = row.executionRequest) (hb : Resolved b)
    (hopen : row'.status.terminal = false → Prepared b) (hrun : row'.status ≠ .running)
    (hreq : row'.status ≠ .cancelRequested) (hmark : row'.unknown = false) :
    RowWf { v with row := some row', binding := b, hold := hold } row' := by
  have hres : ¬unresolved { v with row := some row', binding := b, hold := hold } :=
    not_unresolved_iff.mpr hb
  exact {
    running_fence := fun hr => absurd hr hrun
    running_deadline := fun hr => absurd hr hrun
    running_claimed := fun hr => absurd hr hrun
    requested_marked := fun hr => absurd hr hreq
    marked_live := fun hm => by simp [hmark] at hm
    queued_marked := fun _ hu => absurd hu hres
    open_binding := fun ho x hx => .inl (hopen ho x hx)
    done_resolved := fun _ => hres
    queued_fence := fun _ hu => absurd hu hres
    started := fun hf => h.started (hfence ▸ hf)
    storage := fun sp e hs => h.storage sp e (hspec ▸ hs)
    admitted := fun adm ha => by rw [hspec]; exact h.admitted adm ha
    pending := fun hn hd => by rw [hspec]; exact h.pending hn hd
    request := fun q hq => by rw [hspec]; exact h.request q (hrequest ▸ hq)
    grant_le := fun a g hg => hfence ▸ h.grant_le a g hg
    grant_current := fun hr => absurd hr hrun }

/-- Closing the binding of a running task as released ends its external work. -/
theorem View.RowWf.closed_resolved (h : v.RowWf row) (hrunning : row.status = .running) :
    Resolved (v.binding.map (Binding.closed .released now)) := by
  intro b hb
  obtain ⟨x, hx, rfl⟩ := Option.map_eq_some_iff.mp hb
  rw [Bool.eq_false_iff]
  intro hu
  obtain ⟨hu, hstale⟩ := Binding.unresolvedExternal_closed_released hu
  simp [h.running_claimed hrunning x hx hu] at hstale

/-- The binding of an open task without external work waits for an attempt. -/
theorem View.RowWf.prepared (h : v.RowWf row) (hopen : row.status.terminal = false)
    (hres : ¬v.unresolved) : Prepared v.binding := fun b hb =>
  (h.open_binding hopen b hb).resolve_right fun hu => hres ⟨b, hb, hu⟩

/-- A claimed binding that is closed as stale keeps its external work. -/
theorem View.unresolved_stale (hu : v.unresolved) :
    ∀ b ∈ v.binding.map (Binding.closed .stale now), b.unresolvedExternal = true := by
  intro x hx
  obtain ⟨b, hb, hbu⟩ := hu
  obtain ⟨b', hb', rfl⟩ := Option.map_eq_some_iff.mp hx
  obtain rfl := Option.mem_unique hb hb'
  rw [Binding.unresolvedExternal_closed_stale]
  exact hbu

theorem Status.leased_live {status : Status} (h : status.leased = true) : status.terminal = false := by
  revert h
  cases status <;> simp [Status.leased, Status.terminal]

/-- Every step keeps a view well-formed. -/
theorem Step.wf (h : Step now l v v') (hv : v.Wf) : v'.Wf := by
  cases h with
  | respec hrow hspec hbody | register hrow hspec hbody =>
    exact hv.of_row rfl rfl ((hv.row _ hrow).respec hspec hbody)
  | wait hrow hqueued hresolved hreason =>
    refine hv.of_row rfl rfl { hv.row _ hrow with
      requested_marked := fun hreq => by simp [hqueued] at hreq
      marked_live := fun _ => by simp [hqueued, Status.terminal]
      queued_marked := fun _ hu => absurd hu hresolved }
  | touch hrow => exact hv.of_row rfl rfl { hv.row _ hrow with }
  | settle a =>
    refine ⟨fun hnone => ?_, hv.dep_lt, hv.dep_pair, fun row hrow => { hv.row row hrow with
      grant_le := fun b g hg => ?_, grant_current := fun hr b g hg hf => ?_ }⟩
    · rw [hv.blank hnone]
      exact congrArg (mk _ _ _ _ _ · _) (funext fun b => by simp [settleGrants, blank])
    · obtain ⟨g₀, hg₀, hsame, -⟩ := of_settleGrants hg
      exact hsame.fence ▸ (hv.row row hrow).grant_le b g₀ hg₀
    · obtain ⟨g₀, hg₀, hsame, -⟩ := of_settleGrants hg
      exact (hv.row row hrow).grant_current hr b g₀ hg₀ (hsame.fence ▸ hf)
  | @attempt _ row a g hrow hrunning _ hfence _ hfresh =>
    have hother : ∀ b g', (if b = a then some g else v.grant b) = some g' →
        b = a ∧ g = g' ∨ g'.fence < row.leaseFence := by
      intro b g' hg
      split at hg
      next hb => exact .inl ⟨hb, Option.some.inj hg⟩
      next => exact .inr (hfresh b g' hg)
    refine hv.of_row rfl rfl { hv.row _ hrow with
      grant_le := fun b g' hg => ?_, grant_current := fun _ b g' hg hf => ?_ }
    · rcases hother b g' hg with ⟨-, rfl⟩ | hlt
      · exact hfence.le
      · exact hlt.le
    · rcases hother b g' hg with ⟨rfl, -⟩ | hlt
      · rfl
      · exact absurd hf hlt.ne
  | rebind _ _ hb hsome | lift hb hsome =>
    exact hv.of_binding hb.resolved (fun hs => hv.row_of_binding (hsome ▸ hs)) fun _ _ _ => hb
  | admission hrow hqueued hnone hresolved hspec hfor hset =>
    exact hv.of_row rfl rfl ((hv.row _ hrow).admission hnone hresolved hqueued hspec hfor hset)
  | stop hrow _ hresolved _ _ hb | withdraw hrow _ hresolved _ _ hb =>
    refine hv.of_row rfl rfl ((hv.row _ hrow).idle rfl rfl rfl ?_ (by simp [Status.terminal]) (by simp)
      (by simp) rfl)
    rcases hb with rfl | rfl
    · exact not_unresolved_iff.mp hresolved
    · intro b hb
      obtain ⟨x, hx, rfl⟩ := Option.map_eq_some_iff.mp hb
      rw [Bool.eq_false_iff]
      intro hu
      exact hresolved ⟨x, hx, (Binding.unresolvedExternal_closed_released hu).1⟩
  | request hrow hlive hunresolved =>
    exact hv.of_row rfl rfl { hv.row _ hrow with
      running_fence := by simp, running_deadline := by simp, running_claimed := by simp
      grant_current := by simp
      requested_marked := fun _ => rfl
      marked_live := fun _ => rfl
      queued_marked := by simp, queued_fence := by simp
      open_binding := fun _ b hb => .inr (unresolved_stale hunresolved b hb)
      done_resolved := by simp }
  | mark hrow hleased hunresolved _ =>
    exact hv.of_row rfl rfl { hv.row _ hrow with
      requested_marked := fun _ => rfl
      marked_live := fun _ => Status.leased_live hleased
      queued_marked := fun _ _ => rfl }
  | requeue hrow hleased hresolved _ _ =>
    exact hv.of_row rfl rfl ((hv.row _ hrow).idle rfl rfl rfl
      (not_unresolved_iff.mp hresolved)
      (fun _ => (hv.row _ hrow).prepared (Status.leased_live hleased) hresolved) (by simp) (by simp) rfl)
  | @keepUnknown _ row hrow hleased hunresolved =>
    have hw := hv.row _ hrow
    have hrunning : row.status ≠ .cancelRequested → row.status = .running := by
      revert hleased
      cases row.status <;> simp [Status.leased]
    have hne : (if row.status = .cancelRequested then Status.cancelRequested else .queued) ≠
        .running := by split <;> simp
    exact hv.of_row rfl rfl { hw with
      running_fence := fun hr => absurd hr hne
      running_deadline := fun hr => absurd hr hne
      running_claimed := fun hr => absurd hr hne
      grant_current := fun hr => absurd hr hne
      requested_marked := fun _ => rfl
      marked_live := fun _ => by dsimp only; split <;> rfl
      queued_marked := fun _ _ => rfl
      open_binding := fun _ b hb => .inr (unresolved_stale hunresolved b hb)
      done_resolved := fun hd => by dsimp only at hd; split at hd <;> simp at hd
      queued_fence := fun hq _ => by
        refine hw.running_fence (hrunning fun hreq => ?_)
        simp [hreq] at hq }
  | recover hrow hleased hresolved _ _ =>
    refine hv.of_row rfl rfl ?_
    split
    · exact (hv.row _ hrow).idle rfl rfl rfl (not_unresolved_iff.mp hresolved)
        (fun _ => (hv.row _ hrow).prepared (Status.leased_live hleased) hresolved) (by simp) (by simp) rfl
    · exact { hv.row _ hrow with }
  | start hrow hstatus hresolved hadmitted hspec _ _ =>
    exact hv.of_row rfl rfl { (hv.row _ hrow).stamp hspec with
      running_fence := fun _ => Nat.succ_ne_zero _
      running_deadline := fun _ => by simp
      running_claimed := fun _ b hb hu => absurd ⟨b, hb, hu⟩ hresolved
      requested_marked := by simp
      marked_live := fun hm => by simp [Task.unknown] at hm
      queued_marked := by simp, queued_fence := by simp
      open_binding := fun _ => (hv.row _ hrow).open_binding (by
        rcases hstatus with h | h <;> simp [h, Status.terminal])
      done_resolved := by simp
      started := fun _ => hadmitted
      grant_le := fun a g hg => ((hv.row _ hrow).grant_le a g hg).trans (Nat.le_succ _)
      grant_current := fun _ a g hg hf =>
        absurd hf (Nat.lt_succ_of_le ((hv.row _ hrow).grant_le a g hg)).ne }
  | bind hrow hrunning hb hprepared hclaimed hexternal =>
    exact hv.of_row hrow rfl { hv.row _ hrow with
      running_claimed := by rintro _ _ ⟨rfl⟩ _; exact hclaimed
      queued_marked := fun hq => by simp [hrunning] at hq
      queued_fence := fun hq => by simp [hrunning] at hq
      open_binding := by rintro _ _ ⟨rfl⟩; exact .inr hexternal
      done_resolved := fun hd => by simp [hrunning] at hd }
  | extend hrow hrunning _ =>
    exact hv.of_row rfl rfl { hv.row _ hrow with running_deadline := fun _ => by simp }
  | finish hrow hrunning _ _ _ hstatus =>
    have hw := hv.row _ hrow
    refine hv.of_row rfl rfl (hw.idle rfl rfl rfl (hw.closed_resolved hrunning) ?_ ?_ ?_ rfl)
    · rcases hstatus with rfl | rfl <;> simp [Status.terminal]
    · rcases hstatus with rfl | rfl <;> simp
    · rcases hstatus with rfl | rfl <;> simp
  | retry hrow _ hb _ | reopen hrow _ hb _ =>
    exact hv.of_row rfl rfl ((hv.row _ hrow).idle rfl rfl rfl hb.resolved (fun _ => hb) (by simp) (by simp)
      rfl)
  | retire hrow hdone =>
    exact hv.of_row rfl rfl { hv.row _ hrow with
      storage := by simp
      admitted := fun adm ha =>
        ⟨((hv.row _ hrow).admitted adm ha).1, ((hv.row _ hrow).admitted adm ha).2.1, by simp⟩
      pending := by simp
      request := by simp }
  | create hcreated => exact hcreated.wf
  | finalize hrow hrequested _ hb =>
    exact hv.of_row rfl rfl ((hv.row _ hrow).idle rfl rfl rfl hb (by simp [Status.terminal]) (by simp)
      (by simp) rfl)
  | fence hrow hqueued hresolved =>
    exact hv.of_row rfl rfl { hv.row _ hrow with
      running_fence := by simp, running_deadline := by simp, running_claimed := by simp
      grant_current := by simp
      requested_marked := by simp
      marked_live := fun hm => by simp [Task.unknown] at hm
      queued_marked := by simp, queued_fence := by simp
      open_binding := by simp [Status.terminal]
      done_resolved := by simp }
  | replace hrow hstatus _ hb =>
    have hwf := hv.of_binding hb.resolved (fun _ => by simp [hrow]) fun _ _ _ => hb
    exact hwf.of_row hrow rfl { hwf.row _ hrow with }

theorem Life.wf (h : Life now allowed v v') (hv : v.Wf) : v'.Wf :=
  h.preserves (I := Wf) (fun _ hs => hs.wf) hv

end WorkspaceRuntime
