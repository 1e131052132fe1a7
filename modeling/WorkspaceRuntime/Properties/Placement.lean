import WorkspaceRuntime.Lib.Relay
import WorkspaceRuntime.System

/-!
# The placement of a targeted task

A targeted task is admitted for one target, and the owner may replace the target of its next attempt
when a placement is lost. The decisions are events; the binding row carries a copy of the target that
they lead to, and admissions, retries, restarts, resumes and recoveries all rewrite it. The invariant
`View.Placed` keeps the two in step: the decisions are a numbered log of replacements that starts at the
target of the admission, and the binding selects the target that is in place after it.
-/

namespace WorkspaceRuntime

open View

variable {now : Time} {l : Label} {v v' : View} {s s' : State} {t : TaskId} {row : Task}
  {q original : Json} {c : Command} {allowed : Label → Prop}

/-! ## The invariant -/

/-- The target that the next attempt of a task is to run on, after these decisions. -/
abbrev targetAfter (original : Json) (decisions : List PlacementDecision) : Json :=
  Relay.current (·.replacementTarget) original decisions

/-- The decisions of a task that was admitted for this target: numbered from one, each found the target
that was in place. -/
structure PlacementLog (original : Json) (decisions : List PlacementDecision) : Prop where
  relay : Relay (·.placementVersion) (·.previousEffectiveTarget) (·.replacementTarget) original
    decisions
  original : ∀ d ∈ decisions, d.originalTarget = original

/-- The placement of a task that was admitted for this target. -/
structure View.Placed (v : View) (original : Json) : Prop where
  log : PlacementLog original v.decisions
  request : ∀ row q, v.row = some row → row.executionRequest = some q →
    ∃ fields, NormalRequest q fields original
  selected : ∀ b ∈ v.binding, b.selected = targetAfter original v.decisions
  bound : ∀ b ∈ v.binding, b.status = .claimed →
    executionPlacementMatches b.selected b.placement = true

/-- The target of a stored request is that of the admission. -/
theorem View.Placed.targets (h : v.Placed original) (hrow : v.row = some row) {target : Json}
    (htarget : row.Targets target) : target = original := by
  obtain ⟨q, q', inputs, hq, hnormal, hget⟩ := htarget
  obtain ⟨fields, hq'⟩ := h.request row q hrow hq
  obtain ⟨-, rfl⟩ := hq'.normalize_eq_ok.mp hnormal
  rw [hq'.object] at hget
  exact Option.mem_unique hget hq'.targeted

/-- The target that the store reads for the next attempt is the one in place. -/
theorem View.Placed.selects (h : v.Placed original) {target : Json} (hsel : v.Selects target) :
    target = targetAfter original v.decisions := by
  unfold Selects at hsel
  unfold targetAfter Relay.current
  cases hlast : v.decisions.getLast? with
  | some d =>
    rw [hlast] at hsel
    exact hsel.symm
  | none =>
    rw [hlast] at hsel
    obtain ⟨row, hrow, htarget⟩ := hsel
    exact h.targets hrow htarget

/-- A task that was never targeted, or is not there yet. -/
theorem View.placed_blank (original : Json) : blank.Placed original where
  log := ⟨.nil, nofun⟩
  request _ _ h := nomatch h
  selected := nofun
  bound := nofun

/-! ## One step -/

/-- The binding keeps its selector or takes the one of the next attempt. When it is claimed, it was
before, or the placement of the attempt has just been compared with the selector. -/
def View.Reselects (v : View) (b' : Option Binding) : Prop :=
  ∀ x ∈ b', ∃ y ∈ v.binding, (x.selected = y.selected ∨ v.Selects x.selected) ∧
    (x.status = .claimed → x = y ∨
      x.selected = y.selected ∧ executionPlacementMatches y.selected x.placement = true)

theorem View.reselects_self (v : View) : v.Reselects v.binding := fun x hx =>
  ⟨x, hx, .inl rfl, fun _ => .inl rfl⟩

theorem View.Rebinds.reselects {b : Option Binding} (h : v.Rebinds b) : v.Reselects b := by
  intro x hx
  obtain ⟨y, hy, hsel, hsame⟩ := h x hx
  exact ⟨y, hy, hsel, fun hx => .inl (hsame hx)⟩

/-- A binding whose attempt is over, or whose task is fenced, keeps its selector. -/
theorem View.reselects_map {f : Binding → Binding} (hsel : ∀ b, (f b).selected = b.selected)
    (hstatus : ∀ b, (f b).status = .claimed → f b = b) : v.Reselects (v.binding.map f) := by
  intro x hx
  obtain ⟨y, hy, rfl⟩ := Option.map_eq_some_iff.mp hx
  exact ⟨y, hy, .inl (hsel y), fun hclaimed => .inl (hstatus y hclaimed)⟩

theorem View.reselects_closed {status : BindingStatus} (h : status ≠ .claimed) :
    v.Reselects (v.binding.map (Binding.closed status now)) := by
  refine reselects_map (fun b => ?_) fun b hclaimed => ?_
  · unfold Binding.closed
    split <;> rfl
  · unfold Binding.closed at hclaimed ⊢
    split at hclaimed
    · exact absurd hclaimed h
    · rw [if_neg ‹_›]

theorem View.reselects_fenced : v.Reselects (v.binding.map (Binding.fenced now)) := by
  refine reselects_map (fun b => ?_) fun b hclaimed => ?_
  · unfold Binding.fenced
    split <;> rfl
  · unfold Binding.fenced at hclaimed ⊢
    split at hclaimed
    · simp at hclaimed
    · rw [if_neg ‹_›]

/-- Only an admission and a replaced placement give a binding another target. -/
theorem Step.reselects (h : Step now l v v') (hc : ∀ lin, l ≠ .create lin) (hr : l ≠ .replace) :
    v.Reselects v'.binding := by
  cases h with
  | rebind _ _ _ _ hsel | retry _ _ _ _ hsel | reopen _ _ _ _ hsel | lift _ _ hsel
  | finalize _ _ _ _ hsel => exact hsel.reselects
  | stop _ _ _ _ _ hb | withdraw _ _ _ _ _ hb =>
    rcases hb with rfl | rfl
    · exact v.reselects_self
    · exact reselects_closed (by decide)
  | request | keepUnknown | finish => exact reselects_closed (by decide)
  | bind _ _ hb _ _ _ hsel hmatch =>
    rintro _ ⟨⟩
    exact ⟨_, hb, .inl hsel, fun _ => .inr ⟨hsel, hmatch⟩⟩
  | fence => exact reselects_fenced
  | create => exact absurd rfl (hc _)
  | replace => exact absurd rfl hr
  | _ => exact v.reselects_self

theorem Step.decisions_eq (h : Step now l v v') (hc : ∀ lin, l ≠ .create lin) (hr : l ≠ .replace) :
    v'.decisions = v.decisions := by
  cases h with
  | create => exact absurd rfl (hc _)
  | replace => exact absurd rfl hr
  | _ => rfl

/-- A step keeps the request of the admission until it is released. -/
theorem View.Placed.request_later (hv : v.Placed original) (h : Step now l v v')
    (hc : ∀ lin, l ≠ .create lin) {row' : Task} (hrow' : v'.row = some row')
    (hq : row'.executionRequest = some q) : ∃ fields, NormalRequest q fields original := by
  cases hrow : v.row with
  | none => simp [h.row_none hc hrow] at hrow'
  | some row =>
    obtain ⟨x, hx, -, -, -, hrequest⟩ := h.later.row row hrow
    obtain rfl := Option.mem_unique hx hrow'
    rcases hrequest with hrequest | hnone
    · exact hv.request row q hrow (hrequest ▸ hq)
    · simp [hq] at hnone

/-- A replaced placement continues the log and prepares the binding for its target. -/
theorem View.Placed.replace (hv : v.Placed original) (hrow : v.row = some row) {b : Binding}
    {d : PlacementDecision} (hb : b.status = .prepared) (hsel : b.selected = d.replacementTarget)
    (hd : v.Decides row d) :
    Placed { v with binding := some b, decisions := v.decisions ++ [d] } original where
  log := by
    refine ⟨hv.log.relay.snoc hd.version (hv.selects hd.previous), fun x hx => ?_⟩
    rcases List.mem_append.mp hx with hx | hx
    · exact hv.log.original x hx
    · obtain rfl := List.mem_singleton.mp hx
      exact hv.targets hrow hd.original
  request := hv.request
  selected := by
    rintro _ ⟨⟩
    simpa using hsel
  bound := by
    rintro _ ⟨⟩ hclaimed
    simp [hb] at hclaimed

theorem Step.placed (h : Step now l v v') (hc : ∀ lin, l ≠ .create lin) (hv : v.Placed original) :
    v'.Placed original := by
  by_cases hr : l = .replace
  · subst hr
    cases h with
    | replace hrow _ _ hb hsel hd => exact hv.replace hrow (hb _ rfl) hsel hd
  have hdecisions := h.decisions_eq hc hr
  refine ⟨hdecisions ▸ hv.log, fun row' q hrow' hq => hv.request_later h hc hrow' hq,
    fun x hx => ?_, fun x hx hclaimed => ?_⟩
  · obtain ⟨y, hy, hsel, -⟩ := h.reselects hc hr x hx
    rw [hdecisions]
    rcases hsel with hsel | hsel
    · rw [hsel, hv.selected y hy]
    · exact hv.selects hsel
  · obtain ⟨y, hy, -, hbound⟩ := h.reselects hc hr x hx
    rcases hbound hclaimed with rfl | ⟨hsel, hmatch⟩
    · exact hv.bound x hy hclaimed
    · rwa [hsel]

/-- The target of a new task is that of its request. -/
theorem View.Created.placed {sp : TaskSpec} (h : v.Created row sp) :
    ∃ original, v.Placed original := by
  cases hq : row.executionRequest with
  | none =>
    have hnone : ∀ b, b ∉ v.binding := fun b hb => by
      obtain ⟨q, hq', -⟩ := h.selected b hb
      simp [hq] at hq'
    refine ⟨.null, ⟨h.decisions ▸ ⟨.nil, nofun⟩, fun row' q hrow' hq' => ?_,
      fun b hb => absurd hb (hnone b), fun b hb => absurd hb (hnone b)⟩⟩
    obtain rfl := Option.mem_unique h.stored hrow'
    simp [hq] at hq'
  | some q =>
    obtain ⟨fields, original, hnormal, -⟩ := normalizeExecutionRequest_ok (h.request q hq)
    have htarget : q.get? "target" = some original := by
      rw [hnormal.object]
      exact hnormal.targeted
    refine ⟨original, ⟨h.decisions ▸ ⟨.nil, nofun⟩, fun row' q' hrow' hq' => ?_, fun b hb => ?_,
      fun b hb hclaimed => ?_⟩⟩
    · obtain rfl := Option.mem_unique h.stored hrow'
      obtain rfl := Option.mem_unique hq hq'
      exact ⟨fields, hnormal⟩
    · obtain ⟨q', hq', hsel⟩ := h.selected b hb
      obtain rfl := Option.mem_unique hq hq'
      rw [hsel, htarget, h.decisions]
      rfl
    · simp [h.prepared b hb] at hclaimed

/-! ## Runs -/

/-- Every task has a target that its placement goes back to. -/
theorem Life.exists_placed (h : Life now allowed v v') (hv : ∃ original, v.Placed original) :
    ∃ original, v'.Placed original := by
  refine h.preserves (I := fun v => ∃ original, v.Placed original) ?_ hv
  rintro l v v' - hs ⟨original, hv⟩
  by_cases hc : ∀ lin, l ≠ .create lin
  · exact ⟨original, hs.placed hc hv⟩
  · cases hs with
    | create hcreated => exact hcreated.placed
    | _ => exact absurd (fun _ => nofun) hc

/-- The target of a task that is there does not change. -/
theorem Life.placed (h : Life now allowed v v') (hv : v.row ≠ none ∧ v.Placed original) :
    v'.row ≠ none ∧ v'.Placed original := by
  refine h.preserves (I := fun v => v.row ≠ none ∧ v.Placed original) ?_ hv
  rintro l v v' - hs ⟨hrow, hv⟩
  obtain ⟨row, hsome⟩ := Option.ne_none_iff_exists'.mp hrow
  obtain ⟨row', hrow', -⟩ := hs.later.row row hsome
  refine ⟨by simp [hrow'], hs.placed ?_ hv⟩
  rintro lin rfl
  cases hs
  exact hrow rfl

theorem Reachable.exists_placed (h : Reachable s) (t : TaskId) :
    ∃ original, (s.view t).Placed original := by
  have hrun : Leads .initial s := h
  exact hrun.preserves .initial (I := fun s => ∃ original, (s.view t).Placed original)
    (fun hi _ hv => (hi.next.path t).exists_placed hv) ⟨.null, placed_blank .null⟩

theorem Leads.placed (h : Leads s s') (hi : Inv s)
    (hv : (s.view t).row ≠ none ∧ (s.view t).Placed original) :
    (s'.view t).row ≠ none ∧ (s'.view t).Placed original :=
  h.preserves hi (I := fun s => (s.view t).row ≠ none ∧ (s.view t).Placed original)
    (fun hi _ hv => (hi.next.path t).placed hv) hv

/-- The placement of a targeted task goes back to the target of its request. -/
theorem Reachable.placed {s₀ : State} (hreach : Reachable s₀) (hrow : s₀.tasks.lookup t = some row)
    (hq : row.executionRequest = some q) (hrun : Leads s₀ s) :
    ∃ original, q.get? "target" = some original ∧ (s.view t).Placed original := by
  obtain ⟨original, hplaced₀⟩ := hreach.exists_placed t
  obtain ⟨fields, hnormal⟩ := hplaced₀.request row q hrow hq
  have hthere : (s₀.view t).row ≠ none := by
    rw [show (s₀.view t).row = some row from hrow]
    simp
  refine ⟨original, ?_, (Leads.placed hrun hreach.inv ⟨hthere, hplaced₀⟩).2⟩
  rw [hnormal.object]
  exact hnormal.targeted

/-- In every run of a targeted task, its decisions are numbered 1, 2, 3, … in the order of their events
and all name the target of the admission; each found the target that was in place, its request is never
rewritten, its binding selects the target in place, which is the one that the store reads for the next
attempt, and an attempt is bound to placements that match it only. -/
theorem placement_recovery_in_step {s₀ : State} (hreach : Reachable s₀)
    (hrow : s₀.tasks.lookup t = some row) (hq : row.executionRequest = some q) (hrun : Leads s₀ s) :
    ∃ original decisions, q.get? "target" = some original ∧
      decisions = s.events.filterMap (State.placementDecision t) ∧
      decisions.map (·.placementVersion) = List.range' 1 decisions.length ∧
      (∀ d ∈ decisions, d.originalTarget = original) ∧
      (∀ i d, decisions[i]? = some d →
        d.previousEffectiveTarget = targetAfter original (decisions.take i)) ∧
      (∀ row' q', s.tasks.lookup t = some row' → row'.executionRequest = some q' → q' = q) ∧
      (∀ target, s.effectiveExecutionTarget t = .ok (some target) →
        target = targetAfter original decisions) ∧
      ∀ b, s.bindings.lookup t = some b → b.selected = targetAfter original decisions ∧
        (b.status = .claimed →
          executionPlacementMatches (targetAfter original decisions) b.placement = true) := by
  obtain ⟨original, htarget, hplaced⟩ := hreach.placed hrow hq hrun
  refine ⟨original, _, htarget, rfl, hplaced.log.relay.numbered, hplaced.log.original,
    hplaced.log.relay.found, fun row' q' hrow' hq' => ?_, fun target htarget => ?_, fun b hb => ?_⟩
  · obtain ⟨x, hx, -, -, -, hsame⟩ := (hrun.later hreach.inv t).row row hrow
    obtain rfl := row_eq hx hrow'
    rcases hsame with hsame | hnone
    · exact Option.mem_unique hq' (hsame.trans hq)
    · simp [hq'] at hnone
  · exact hplaced.selects (State.effectiveExecutionTarget_selects htarget target rfl)
  · exact ⟨hplaced.selected b hb, fun hclaimed => hplaced.selected b hb ▸ hplaced.bound b hb hclaimed⟩

/-! ## A task that is moved to another pod -/

/-- A pod as the target of a task. -/
def podTarget (pod : String) : Json :=
  .obj [("kind", .str "runpod"), ("pod_id", .str pod), ("provider_account_ref", .str "account")]

/-- The digest of the evidence of a worker. -/
def podEvidence : String := "sha256:" ++ String.ofList (List.replicate 64 '0')

/-- A worker whose credential attests that it runs on the pod. -/
def podAccess (pod : String) : Access where
  executionBinding := some (.obj [("actual", podTarget pod), ("executor_incarnation", .str pod),
    ("verification", .obj [("evidence_digest", .str podEvidence), ("method", .str "credential_claim"),
      ("verified", .bool true)])])

/-- The owner moves a task that was admitted for pod `p`. -/
def movesPod (taskVersion placementVersion : Nat) (current replacement : String) :
    PlacementRecoveryRequest where
  body := .obj [("expected_current_target", podTarget current),
    ("expected_original_target", podTarget "p"),
    ("expected_placement_version", .int placementVersion),
    ("expected_task_version", .int taskVersion), ("loss_evidence", .obj []),
    ("qualification", .obj []), ("reason", .str "lost"),
    ("replacement_target", podTarget replacement), ("schema_version", .int 1)]
  key := some (current ++ replacement)
  qualification _ := .ok (podEvidence, replacement)

/-- A task is admitted for pod `p`, and its first attempt fails there. -/
def podRun : List (Env × Command) :=
  [(.tick 0 "0", .beginRuntimeSession "boot" none),
    (.tick 1 "1", .registers "e" [("capability_id", .str "c"), ("definition_digest", .str "d")] []),
    (.tick 2 "2", .submitTask
      { capability := "c", spec := {}, executionRequest := some (.obj [("target", podTarget "p")]) }),
    (.tick 3 "3", .claims (podAccess "p") "e" 1 (some (podTarget "p"))),
    (.tick 4 "4", .failAttempt { attemptId := "attempt-3", access := podAccess "p"
                                 body := .obj (Command.leaseFields "lease-3" 1 1)
                                 key := some "fail" })]

/-- It is moved to pod `q` and runs there. -/
def movedRun : List (Env × Command) :=
  [(.tick 5 "5", .recoverTaskPlacement "task-2" (movesPod 2 0 "p" "q")),
    (.tick 6 "6", .retryTask {} "task-2" (.obj []) (some "retry")),
    (.tick 7 "7", .claims (podAccess "q") "e" 1 (some (podTarget "q")))]

theorem placement_recovery_in_step_moved :
    ∃ b, ((State.initial.replay podRun).replay movedRun).bindings.lookup "task-2" = some b ∧
      b.status = .claimed ∧ b.selected = podTarget "q" ∧
      executionPlacementMatches (podTarget "q") b.placement = true := by
  obtain ⟨row, hrow, hq⟩ : ∃ row, (State.initial.replay podRun).tasks.lookup "task-2" = some row ∧
      row.executionRequest = some (.obj [("target", podTarget "p")]) := by decide +kernel
  obtain ⟨b, hb, hclaimed⟩ : ∃ b,
      ((State.initial.replay podRun).replay movedRun).bindings.lookup "task-2" = some b ∧
        b.status = .claimed := by decide +kernel
  have hlast : (((State.initial.replay podRun).replay movedRun).events.filterMap
      (State.placementDecision "task-2")).getLast?.map (·.replacementTarget) =
        some (podTarget "q") := by decide +kernel
  obtain ⟨original, decisions, -, hdecisions, -, -, -, -, -, hbinding⟩ :=
    placement_recovery_in_step (Reachable.replay podRun) hrow hq (Leads.replay _ movedRun)
  have htarget : targetAfter original decisions = podTarget "q" := by
    rw [targetAfter, Relay.current, hdecisions, hlast, Option.getD_some]
  rw [htarget] at hbinding
  obtain ⟨hselected, hbound⟩ := hbinding b hb
  exact ⟨b, hb, hclaimed, hselected, hbound hclaimed⟩

end WorkspaceRuntime
