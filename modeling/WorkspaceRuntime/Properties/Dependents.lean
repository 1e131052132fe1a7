import WorkspaceRuntime.Properties.Continuations

/-!
# Settlement and the continuations that wait for it

A settlement admits the continuations that waited for it, in its own transaction. An admission that
raises takes the settlement with it. That happens to a continuation whose spec retention has released,
and to one outside of every project whose predecessors have outputs.
-/

namespace WorkspaceRuntime

open Fallible State

variable {env : Env} {now : Time} {s s' : State} {t p c : TaskId} {row : Task} {i : Nat}
  {staged : List StagedOutput} {sp : TaskSpec}

/-! ## The digests of outputs -/

theorem StagedOutput.objectDigest (o : StagedOutput) :
    objectDigest ("sha256:" ++ o.digest) = some o.digest := by
  simp [WorkspaceRuntime.objectDigest, o.isDigest.1, o.isDigest.2]

@[simp] theorem StagedOutput.outputDigest (o : StagedOutput) :
    outputDigest o.toJson = some ("sha256:" ++ o.digest) := by
  simp [WorkspaceRuntime.outputDigest, StagedOutput.toJson, Json.asStr, o.objectDigest]

theorem nodup_foldl_appendNew : ∀ (digests inputs : List String), inputs.Nodup →
    (digests.foldl appendNew inputs).Nodup
  | [], _, h => h
  | d :: digests, inputs, h => by
    refine nodup_foldl_appendNew digests _ ?_
    unfold appendNew
    split
    next => exact h
    next hd => simpa [List.nodup_append, h] using fun x hx => ne_of_mem_of_not_mem hx hd

/-- Distinct labelled object ids have distinct digests. -/
theorem inputDigests_labelled : ∀ (ids seen : List String),
    (∀ id ∈ ids, ∃ o : StagedOutput, id = "sha256:" ++ o.digest) → ids.Nodup →
    (∀ d ∈ seen, "sha256:" ++ d ∉ ids) →
    ∃ digests, inputDigests ids seen = .ok (seen ++ digests) ∧
      digests.map ("sha256:" ++ ·) = ids
  | [], seen, _, _, _ => ⟨[], by simp [inputDigests]⟩
  | id :: ids, seen, hids, hnd, hseen => by
    obtain ⟨o, rfl⟩ := hids id List.mem_cons_self
    rw [List.nodup_cons] at hnd
    obtain ⟨digests, hdigests, hmap⟩ := inputDigests_labelled ids (seen ++ [o.digest])
      (fun id' hid' => hids id' (.tail _ hid')) hnd.2 fun d hd hmem => by
        rcases List.mem_append.mp hd with hd | hd
        · exact hseen d hd (.tail _ hmem)
        · exact hnd.1 (List.mem_singleton.mp hd ▸ hmem)
    have hnew : o.digest ∉ seen := fun hmem => hseen o.digest hmem List.mem_cons_self
    refine ⟨o.digest :: digests, ?_, by simp [hmap]⟩
    rw [inputDigests, o.objectDigest, orThrow_some, ok_bind, require_of _ hnew, ok_bind, hdigests]
    simp

theorem length_inputDigests : ∀ {ids seen digests : List String},
    inputDigests ids seen = .ok digests → digests.length = seen.length + ids.length
  | [], seen, digests, h => by
    cases h
    simp
  | id :: ids, seen, digests, h => by
    simp only [inputDigests, bind_eq_ok] at h
    obtain ⟨_, -, _, -, h⟩ := h
    simp [length_inputDigests h]
    omega

/-! ## What an admission needs -/

/-- The outputs in the stored result of a task. -/
def State.outputsOf (s : State) (t : TaskId) : List Json :=
  ((s.tasks.lookup t).bind Task.outputs).getD []

/-- What the admission of a ready continuation needs. -/
structure State.Admissible (s : State) (t : TaskId) : Prop where
  /-- Retention has not released the spec. -/
  spec : ∃ row sp, s.tasks.lookup t = some row ∧ row.spec = some sp ∧ sp.Continues
  /-- Inputs need a project. -/
  project : s.projectOf t = some none → ∀ i p, s.dependencies.lookup (t, i) = some p →
    s.outputsOf p = []

/-- The outputs of a completed task were staged, and are stored for its project. -/
theorem Inv.completed_outputs (hi : Inv s) (hrow : s.tasks.lookup t = some row)
    (hdone : row.status = .completed) :
    ∃ staged : List StagedOutput, row.outputs = some (staged.map StagedOutput.toJson) ∧
      ∀ o ∈ staged, o.digest ∈ s.objects ∧
        ∀ project, s.projectOf t = some (some project) → (project, o.digest) ∈ s.projectObjects := by
  obtain ⟨staged, hout, hstored⟩ := hi.result t row.result (by simp [View.Done, State.view, hrow, hdone])
  obtain ⟨result, hresult, hfield⟩ := Option.bind_eq_some_iff.mp hout
  exact ⟨staged, by simp [Task.outputs, hresult, hfield, Json.asArr], hstored⟩

theorem resolveChild_staged (hout : row.outputs = some (staged.map StagedOutput.toJson)) :
    resolveChild ⟨i, p, row⟩ =
      .ok { taskId := p, ordinal := i, outputs := staged.map StagedOutput.toJson } := by
  have hvalid : ∀ o ∈ staged.map StagedOutput.toJson, (outputDigest o).isSome = true := by
    intro o ho
    obtain ⟨o, -, rfl⟩ := List.mem_map.mp ho
    simp
  simp only [resolveChild, hout, orThrow_some, ok_bind, require_of _ hvalid, pure_eq_ok]

theorem setResolvedChildren_of_continues (inputs : List String) (children : List ResolvedChild)
    (h : sp.Continues) :
    ∃ sp', setResolvedChildren { sp with inputObjectIds := inputs } children = .ok sp' := by
  obtain ⟨fields, dependencies, hbody, hdeps⟩ := h
  simp [setResolvedChildren, hbody, hdeps, Json.asObj]

/-- Inputs from staged outputs are valid in the project that the outputs are stored for. -/
theorem State.validateTaskInputs_staged {project : Option ProjectId}
    (hstorage : ∀ e, sp.storageEstimate = some e → validateStorageEstimate e = .ok ())
    (hnd : sp.inputObjectIds.Nodup)
    (hfrom : ∀ id ∈ sp.inputObjectIds, ∃ o ∈ staged, id = "sha256:" ++ o.digest)
    (hproject : sp.inputObjectIds ≠ [] → project ≠ none)
    (hstored : ∀ o ∈ staged, ∀ p, project = some p →
      o.digest ∈ s.objects ∧ (p, o.digest) ∈ s.projectObjects) :
    s.validateTaskInputs project sp = .ok () := by
  obtain ⟨digests, hdigests, hmap⟩ := inputDigests_labelled sp.inputObjectIds []
    (fun id hid => (hfrom id hid).imp fun _ h => h.2) hnd (by simp)
  have hscope : digests ≠ [] → project ≠ none := fun hne => hproject (by simpa [← hmap] using hne)
  have hassociated : ∀ d ∈ digests, s.associated project d := by
    intro d hd
    obtain ⟨o, ho, heq⟩ := hfrom ("sha256:" ++ d) (hmap ▸ List.mem_map_of_mem hd)
    obtain rfl : d = o.digest := by simpa using heq
    obtain ⟨project, hp⟩ := Option.ne_none_iff_exists'.mp (hscope (List.ne_nil_of_mem hd))
    exact ⟨project, hp, hstored o ho project hp⟩
  cases hestimate : sp.storageEstimate with
  | none =>
    simp [validateTaskInputs, hestimate, hdigests, require_of _ hscope,
      require_of _ hassociated]
  | some e =>
    simp [validateTaskInputs, hestimate, hstorage e hestimate, hdigests, require_of _ hscope,
      require_of _ hassociated]

theorem State.validateTaskInputs_unscoped {u : Unit} (h : s.validateTaskInputs none sp = .ok u) :
    sp.inputObjectIds = [] := by
  have hreads : ∃ digests, inputDigests sp.inputObjectIds [] = .ok digests ∧ digests = [] := by
    simp only [validateTaskInputs] at h
    split at h <;> simp only [bind_eq_ok, require_eq_ok] at h
    · obtain ⟨_, -, digests, hdigests, _, hscope, -⟩ := h
      exact ⟨digests, hdigests, by simpa using hscope⟩
    · obtain ⟨digests, hdigests, _, hscope, -⟩ := h
      exact ⟨digests, hdigests, by simpa using hscope⟩
  obtain ⟨digests, hdigests, rfl⟩ := hreads
  simpa using (length_inputDigests hdigests).symm

theorem Predecessors.eq_of_dep {q r : TaskId} {rp rq : Task} (h : Predecessors s t p q rp rq)
    (hi : Inv s) (hdep : s.dependencies.lookup (t, i) = some r) :
    r = p ∨ r = q := by
  have hlt := (hi.view t).dep_lt i r hdep
  rcases (by omega : i = 0 ∨ i = 1) with rfl | rfl
  · exact .inl (Option.mem_unique hdep h.first)
  · exact .inr (Option.mem_unique hdep h.second)

/-- The outputs that the admission of a ready continuation resolves. -/
structure Resolvable (s : State) (t : TaskId) (children : List ResolvedChild)
    (staged : List StagedOutput) : Prop where
  resolves : (s.continuationRows t).mapM resolveChild = .ok children
  digests : childDigests children = staged.map fun o => "sha256:" ++ o.digest
  empty : staged = [] ↔ ∀ i p, s.dependencies.lookup (t, i) = some p → s.outputsOf p = []
  stored : ∀ o ∈ staged, ∀ p, s.projectOf t = some (some p) →
    o.digest ∈ s.objects ∧ (p, o.digest) ∈ s.projectObjects

theorem Inv.resolvable (hi : Inv s) (hdep : s.dependencies.lookup (t, i) = some p)
    (hready : s.Ready t) : ∃ children staged, Resolvable s t children staged := by
  rcases hi.predecessors t with ⟨-, hno⟩ | ⟨p, q, rp, rq, hpred⟩
  · exact absurd (hdep.symm.trans (hno i)) (by simp)
  have hdone : ∀ {j q r}, s.dependencies.lookup (t, j) = some q → s.tasks.lookup q = some r →
      r.status = .completed := by
    intro j q r hj hr
    simpa [statusOf, hr] using hready.done j q hj
  have hprojects : ∀ {j q}, s.dependencies.lookup (t, j) = some q →
      s.projectOf q = s.projectOf t := fun hj => (hi.dep t _ _ hj).2.2
  obtain ⟨first, hfirst, hstored⟩ := hi.completed_outputs hpred.row_first
    (hdone hpred.first hpred.row_first)
  obtain ⟨second, hsecond, hstored'⟩ := hi.completed_outputs hpred.row_second
    (hdone hpred.second hpred.row_second)
  have hp : s.outputsOf p = first.map StagedOutput.toJson := by
    simp [outputsOf, hpred.row_first, hfirst]
  have hq : s.outputsOf q = second.map StagedOutput.toJson := by
    simp [outputsOf, hpred.row_second, hsecond]
  refine ⟨[⟨p, 0, first.map StagedOutput.toJson⟩, ⟨q, 1, second.map StagedOutput.toJson⟩],
    first ++ second, ?_, ?_, ⟨fun hnil j r hj => ?_, fun hnil => ?_⟩, ?_⟩
  · rw [hpred.rows]
    simp [resolveChild_staged hfirst, resolveChild_staged hsecond]
  · simp [childDigests]
  · obtain ⟨rfl, rfl⟩ := List.append_eq_nil_iff.mp hnil
    rcases hpred.eq_of_dep hi hj with rfl | rfl
    · exact hp
    · exact hq
  · have hfirst := hp.symm.trans (hnil 0 p hpred.first)
    have hsecond := hq.symm.trans (hnil 1 q hpred.second)
    rw [List.map_eq_nil_iff.mp hfirst, List.map_eq_nil_iff.mp hsecond, List.append_nil]
  · intro o ho project hproject
    rcases List.mem_append.mp ho with ho | ho
    · exact ⟨(hstored o ho).1, (hstored o ho).2 project ((hprojects hpred.first).trans hproject)⟩
    · exact ⟨(hstored' o ho).1, (hstored' o ho).2 project ((hprojects hpred.second).trans hproject)⟩

/-- The admission of a continuation goes through exactly when it has what it needs. -/
theorem Inv.resolveContinuation_iff {children : List ResolvedChild} (hi : Inv s)
    (hrow : s.tasks.lookup t = some row) (h : Resolvable s t children staged) :
    (∃ s', s.resolveContinuation t row (s.continuationRows t) now = .ok s') ↔ s.Admissible t := by
  obtain ⟨run, hrun, hproject⟩ := hi.projectOf_row hrow
  have hinputs : ∀ id, id ∈ orderedInputs children ↔ ∃ o ∈ staged, id = "sha256:" ++ o.digest := by
    intro id
    simp [orderedInputs_eq, h.digests, eq_comm]
  have hempty : orderedInputs children = [] ↔ staged = [] := by
    simp only [List.eq_nil_iff_forall_not_mem, hinputs, not_exists, not_and]
    exact ⟨fun hno o ho => hno _ o ho rfl, fun hno _ o ho => absurd ho (hno o)⟩
  constructor
  · rintro ⟨s', hs'⟩
    obtain ⟨children', sp, sp', hadmits⟩ := resolveContinuation_ok hs'
    obtain rfl := Except.ok.inj (hadmits.resolves.symm.trans h.resolves)
    obtain ⟨⟨fields, dependencies, hbody⟩, -, hids, -⟩ := setResolvedChildren_ok hadmits.resolved
    refine ⟨⟨row, sp, hrow, hadmits.spec, fields, dependencies, hbody⟩, fun hnone => ?_⟩
    have hvalid := hadmits.valid run hrun
    rw [Option.mem_unique hproject hnone] at hvalid
    rw [← h.empty, ← hempty]
    exact hids.symm.trans (validateTaskInputs_unscoped hvalid)
  · rintro ⟨⟨row', sp, hrow', hsp, hcontinues⟩, hscope⟩
    obtain rfl := Option.mem_unique hrow' hrow
    obtain ⟨sp', hset⟩ := setResolvedChildren_of_continues (orderedInputs children) children hcontinues
    obtain ⟨-, -, hids, hstorage, -⟩ := setResolvedChildren_ok hset
    have hload : s.loadSpec row'.spec = .ok sp := by
      simp [loadSpec, hsp, require_of _ (hi.spec t row' sp hrow hsp)]
    have hvalid : s.validateTaskInputs run.projectId sp' = .ok () := by
      refine validateTaskInputs_staged (fun e he => ?_) ?_ (hids ▸ fun id => (hinputs id).mp)
        (fun hne hnone => ?_) fun o ho p hp => h.stored o ho p (hproject.trans (congrArg some hp))
      · exact ((hi.view t).row row' hrow).storage sp e hsp (hstorage ▸ he)
      · rw [hids]
        exact nodup_foldl_appendNew _ _ List.nodup_nil
      · refine hne (hids.trans (hempty.mpr (h.empty.mpr (hscope ?_))))
        rw [hproject, hnone]
    exact ⟨_, by simp [resolveContinuation, h.resolves, hload, hset, hrun, hvalid]; rfl⟩

/-- An attempt at an admission raises exactly when the continuation is ready, not admitted, and not
admissible. -/
theorem Inv.admitContinuation_iff (hi : Inv s) (hdep : s.dependencies.lookup (t, i) = some p) :
    (∃ s', s.admitContinuation t now = .ok s') ↔
      (s.Ready t → s.admissions.lookup t = none → s.Admissible t) := by
  rcases hi.predecessors t with ⟨-, hno⟩ | ⟨p, q, rp, rq, hpred⟩
  · exact absurd (hdep.symm.trans (hno i)) (by simp)
  have hrows : s.continuationRows t ≠ [] := by simp [hpred.rows]
  obtain ⟨row, hrow⟩ := Option.ne_none_iff_exists'.mp (hi.row_of_dep hdep)
  by_cases hgo : row.status = .queued ∧ s.admissions.lookup t = none ∧
      continuationWaitingReason (s.continuationRows t) = none
  · obtain ⟨hqueued, hnone, hwait⟩ := hgo
    have hready : s.Ready t := by
      refine ⟨by simp [statusOf, hrow, hqueued], fun j r hj => ?_⟩
      rw [hpred.rows] at hwait
      have hp := continuationWaitingReason_none hwait (r := ⟨0, p, rp⟩) (by simp)
      have hq := continuationWaitingReason_none hwait (r := ⟨1, q, rq⟩) (by simp)
      rcases hpred.eq_of_dep hi hj with rfl | rfl
      · simpa [statusOf, hpred.row_first] using hp
      · simpa [statusOf, hpred.row_second] using hq
    obtain ⟨children, staged, hresolvable⟩ := hi.resolvable hdep hready
    have hresolved : s.admitContinuation t now =
        s.resolveContinuation t row (s.continuationRows t) now := by
      simp [State.admitContinuation, hrows, hrow, hqueued, hnone, hwait]
    rw [hresolved, hi.resolveContinuation_iff hrow hresolvable]
    exact ⟨fun h _ _ => h, fun h => h hready hnone⟩
  · refine iff_of_true ?_ fun hready hnone => absurd ⟨?_, hnone, ?_⟩ hgo
    · unfold State.admitContinuation
      dsimp only
      rw [if_neg hrows, hrow]
      dsimp only
      split_ifs with hqueued hadmitted
      · exact ⟨s, rfl⟩
      · exact ⟨s, rfl⟩
      · cases hwait : continuationWaitingReason (s.continuationRows t) with
        | some reason => exact ⟨_, rfl⟩
        | none => exact absurd ⟨by simpa using hqueued, by simpa using hadmitted, hwait⟩ hgo
    · simpa [statusOf, hrow] using hready.queued
    · exact hready.continuationWaitingReason hpred

/-! ## The refresh -/

/-- The spec of the task names its dependencies. -/
def View.Continuing (v : View) : Prop :=
  ∃ row sp, v.row = some row ∧ row.spec = some sp ∧ sp.Continues

theorem TaskSpec.SameBody.continues {sp' : TaskSpec} (h : sp.SameBody sp') :
    sp'.Continues ↔ sp.Continues := by
  simp [TaskSpec.Continues, h.body]

/-- Quiet steps write the body of a spec in an admission only. -/
theorem Step.continuing {l : Label} {v v' : View} (h : Step now l v v') (hl : l.Quiet)
    (hnone : v'.admission = none) :
    v.admission = none ∧ (v'.Continuing ↔ v.Continuing) := by
  cases h with
  | respec hrow hspec hbody | register hrow hspec hbody =>
    refine ⟨hnone, ?_⟩
    simp [View.Continuing, hrow, hspec, hbody.continues]
  | wait hrow | touch hrow => exact ⟨hnone, by simp [View.Continuing, hrow]⟩
  | rebind | settle => exact ⟨hnone, Iff.rfl⟩
  | admission => simp at hnone
  | _ => simp [Label.Quiet] at hl

theorem Life.continuing {allowed : Label → Prop} {v v' : View} (h : Life now allowed v v')
    (hq : ∀ l, allowed l → l.Quiet) (hnone : v'.admission = none) :
    v.admission = none ∧ (v'.Continuing ↔ v.Continuing) :=
  h.relates (R := fun v v' => v'.admission = none →
      v.admission = none ∧ (v'.Continuing ↔ v.Continuing))
    (fun _ hnone => ⟨hnone, Iff.rfl⟩)
    (fun h h' hnone => ⟨(h (h' hnone).1).1, (h' hnone).2.trans (h (h' hnone).1).2⟩)
    (fun ha hs => hs.continuing (hq _ ha)) hnone

theorem Evolves.quiet_outputsOf (h : Evolves now quietLabels s s') (q : TaskId) :
    s'.outputsOf q = s.outputsOf q := by
  unfold outputsOf
  rw [h.quiet_bind fun hstage => by rw [Task.outputs, hstage.result, Task.outputs]]

/-- What an admission needs does not change until it is made. -/
theorem Evolves.quiet_admissible (h : Evolves now quietLabels s s') (hi : Inv s)
    (hexists : s.tasks.lookup t ≠ none) (hnone : s'.admissions.lookup t = none) :
    s'.Admissible t ↔ s.Admissible t := by
  have hbody : (s'.view t).Continuing ↔ (s.view t).Continuing :=
    ((h.path t).continuing (fun _ hl => hl) hnone).2
  have hproject : s'.projectOf t = s.projectOf t := by
    obtain ⟨row, hrow⟩ := Option.ne_none_iff_exists'.mp hexists
    obtain ⟨run, -, hp⟩ := hi.projectOf_row hrow
    exact (projectOf_mono hp (h.path t).later h.grow).trans hp.symm
  have hiff : ∀ u : State, u.Admissible t ↔ (u.view t).Continuing ∧
      (u.projectOf t = some none → ∀ i p, u.dependencies.lookup (t, i) = some p →
        u.outputsOf p = []) := fun u =>
    ⟨fun h => ⟨h.1, h.2⟩, fun h => ⟨h.1, h.2⟩⟩
  simp only [hiff, hbody, hproject, h.quiet_dependency hi, h.quiet_outputsOf]

theorem State.refreshContinuation_isOk :
    (∃ s', s.refreshContinuation now t = .ok s') ↔ ∃ s', s.admitContinuation t now = .ok s' := by
  constructor
  · rintro ⟨s', h⟩
    obtain ⟨tried, htried, -⟩ := bind_eq_ok.mp h
    exact ⟨tried, htried⟩
  · rintro ⟨tried, h⟩
    rw [refreshContinuation, h]
    exact ⟨_, rfl⟩

/-- What a round about one continuation leaves alone. -/
structure Beside (c : TaskId) (s s' : State) : Prop where
  row : ∀ t, t ≠ c → s'.tasks.lookup t = s.tasks.lookup t
  admission : ∀ t, t ≠ c → s'.admissions.lookup t = s.admissions.lookup t
  runs : s'.runs = s.runs
  specs : ∀ sp ∈ s.specs, sp ∈ s'.specs

theorem Beside.setWaitingReason {reason : Option WaitingReason} (h : Beside c s s') :
    Beside c s (s'.setWaitingReason c reason now) :=
  { h with row := fun t ht => (Table.lookup_modify_of_ne _ _ ht).trans (h.row t ht) }

theorem State.admitContinuation_beside (h : s.admitContinuation c now = .ok s') :
    Beside c s s' := by
  have hrefl : Beside c s s := ⟨fun _ _ => rfl, fun _ _ => rfl, rfl, fun _ => id⟩
  rcases admitContinuation_ok h with ⟨-, rfl⟩ | ⟨-, -, -, -, -, rfl⟩ |
    ⟨-, -, -, -, -, hadmits⟩
  · exact hrefl
  · exact hrefl.setWaitingReason
  · rw [hadmits.after]
    exact ⟨fun t ht => Table.lookup_modify_of_ne _ _ ht,
      fun t ht => by simp [admitRow, appendEvent, Table.lookup_insertIgnore, ht],
      rfl, fun sp => mem_storeSpec⟩

theorem State.refreshContinuation_beside (h : s.refreshContinuation now c = .ok s') :
    Beside c s s' := by
  simp only [refreshContinuation, bind_eq_ok, return_ok] at h
  obtain ⟨tried, htried, rfl⟩ := h
  have htry := admitContinuation_beside htried
  split
  · exact htry
  · exact htry.setWaitingReason

/-- A refresh succeeds exactly when every ready continuation that is not admitted is admissible. -/
theorem Inv.refreshContinuations_iff (hi : Inv s) (p : TaskId) (now : Time) :
    (∃ s', s.refreshContinuationsForPredecessor p now = .ok s') ↔
      ∀ t i, s.dependencies.lookup (t, i) = some p → s.Ready t → s.admissions.lookup t = none →
        s.Admissible t := by
  constructor
  · rintro ⟨s', h⟩
    -- what the rounds so far have admitted was admissible before the first of them
    have hrounds := foldlM_rest (fun rest s₁ => (∀ t ∈ rest, t ∈ s.continuationsOf p) ∧
      Evolves now quietLabels s s₁ ∧ ∀ t, s.Ready t → s.admissions.lookup t = none →
        s₁.admissions.lookup t ≠ none → s.Admissible t) ?_
      ⟨fun _ => id, .refl s, fun t _ hnone hsome => absurd hnone hsome⟩ h
    · obtain ⟨-, hev, hdone⟩ := hrounds
      intro t i hdep hready hnone
      exact hdone t hready hnone (hi.refreshContinuations_awake h t i
        ((hev.quiet_dependency hi t i).trans hdep) ((hev.quiet_ready hi).mpr hready))
    rintro a rest s₁ s₂ ⟨hsub, hev, hdone⟩ hround
    obtain ⟨i, hdep⟩ := mem_continuationsOf.mp (hsub a List.mem_cons_self)
    have hi₁ := hev.inv hi
    have hdep₁ := hev.dependency hi hdep
    refine ⟨fun t ht => hsub t (.tail _ ht),
      hev.trans (hi₁.refreshContinuation hdep₁ hround), fun t hready hnone hsome => ?_⟩
    by_cases hnone₁ : s₁.admissions.lookup t = none
    · have hta : t = a := by
        by_contra hne
        exact hsome (((refreshContinuation_beside hround).admission t hne).trans hnone₁)
      subst hta
      have hgo := (hi₁.admitContinuation_iff hdep₁).mp (refreshContinuation_isOk.mp ⟨_, hround⟩)
      exact (hev.quiet_admissible hi (hi.row_of_dep hdep) hnone₁).mp
        (hgo ((hev.quiet_ready hi).mpr hready) hnone₁)
    · exact hdone t hready hnone hnone₁
  · intro hall
    refine foldlM_succeeds (fun rest s₁ => Evolves now quietLabels s s₁ ∧
      ∀ t ∈ rest, t ∈ s.continuationsOf p) ?_ ⟨.refl s, fun _ => id⟩
    rintro a rest s₁ ⟨hev, hsub⟩
    obtain ⟨i, hdep⟩ := mem_continuationsOf.mp (hsub a List.mem_cons_self)
    have hi₁ := hev.inv hi
    have hdep₁ := hev.dependency hi hdep
    have hgo : ∃ s₂, s₁.refreshContinuation now a = .ok s₂ := by
      rw [refreshContinuation_isOk, hi₁.admitContinuation_iff hdep₁]
      intro hready hnone
      rw [hev.quiet_admissible hi (hi.row_of_dep hdep) hnone]
      refine hall a i hdep ((hev.quiet_ready hi).mp hready) ?_
      exact ((hev.path a).continuing (fun _ hl => hl) hnone).1
    obtain ⟨s₂, hround⟩ := hgo
    exact ⟨s₂, hround, hev.trans (hi₁.refreshContinuation hdep₁ hround),
      fun t ht => hsub t (.tail _ ht)⟩

/-! ## A settlement with and without its dependents -/

/-- The realm without the dependency rows that name the task. -/
def State.withoutDependents (s : State) (p : TaskId) : State :=
  { s with dependencies := s.dependencies.filter fun _ q => q ≠ p }

theorem State.refresh_withoutDependents :
    (s.withoutDependents p).refreshContinuationsForPredecessor p now = .ok (s.withoutDependents p) := by
  have hnone : (s.withoutDependents p).continuationsOf p = [] := by
    rw [List.eq_nil_iff_forall_not_mem]
    intro t ht
    obtain ⟨i, hdep⟩ := mem_continuationsOf.mp ht
    simp [withoutDependents, Table.lookup_filter] at hdep
  simp [refreshContinuationsForPredecessor, hnone]

/-- The request is answered from its receipt. -/
def SettleRequest.Replays (r : SettleRequest) (env : Env) (s : State) : Prop :=
  ∃ key, r.key = some key ∧
    s.commandReplay .attemptSettle r.attemptId key r.hash env.now = .ok true

/-- The settlement is past its checks: it writes the rows `u`, and the rest of it can be refused by the
refresh of the continuations only. -/
structure SettlesRows (env : Env) (s : State) (r : SettleRequest) (x : Attempt) (task : Task)
    (w : Settlement) (key : String) : Prop where
  staged : r.staged = .ok w.staged
  holds : AttemptHolds s r.attemptId x task env.now
  reads : ∃ row, (s.settledRows x.taskId task x.leaseId r.attemptId w env.now).getTask x.taskId =
    .ok row
  records : ∃ receipts, s.receipts.insertNew (.attemptSettle, r.attemptId, key)
    { request := r.hash, createdAt := env.now } = some receipts
  settles : s.settleAttempt env r = (do
    let refreshed ← (s.settledRows x.taskId task x.leaseId r.attemptId w
      env.now).refreshContinuationsForPredecessor x.taskId env.now
    let _ ← refreshed.getTask x.taskId
    let recorded ← refreshed.commandRecord .attemptSettle r.attemptId key r.hash env.now
    return (recorded, false))

/-- The checks of a settlement do not look at dependency rows. -/
theorem State.settleAttempt_withoutDependents {r : SettleRequest} {x : Attempt} {out : State × Bool}
    (hx : s.attempts.lookup r.attemptId = some x)
    (h : (s.withoutDependents x.taskId).settleAttempt env r = .ok out) :
    (r.Replays env s ∧ s.settleAttempt env r = .ok (s, true)) ∨
      ¬r.Replays env s ∧ ∃ task w key, SettlesRows env s r x task w key := by
  simp only [settleAttempt, bind_eq_ok] at h
  obtain ⟨key, hkey, body, hbody, _, hid, x', hx', _, hepoch, replay, hreplay, h⟩ := h
  obtain rfl := Option.mem_unique (orThrow_eq_ok.mp hx') hx
  have hrkey : r.key = some key := by
    simp only [requireIdempotencyKey, bind_eq_ok, orThrow_eq_ok, return_ok] at hkey
    obtain ⟨_, hrkey, _, -, rfl⟩ := hkey
    exact hrkey
  -- the same equations about the realm with its dependency rows
  have hx : s.presentedAttempt r.attemptId = .ok x' := hx'
  have hepoch : s.validateRuntimeEpoch (some body.lease.runtimeEpoch) (some x'.executorId) true =
    .ok _ := hepoch
  have hreplay : s.commandReplay .attemptSettle r.attemptId key r.hash env.now = .ok replay := hreplay
  cases replay with
  | true =>
    refine .inl ⟨⟨key, hrkey, hreplay⟩, ?_⟩
    simp only [settleAttempt, hkey, ok_bind, hbody, hid, hx, hepoch, hreplay]
    rfl
  | false =>
    have hfresh : ¬r.Replays env s := by
      rintro ⟨key', hkey', hreplay'⟩
      obtain rfl := Option.mem_unique hkey' hrkey
      simp [hreplay] at hreplay'
    simp only [Bool.false_eq_true, if_false, bind_eq_ok] at h
    obtain ⟨_, hcheck, staged, hstaged, settled, hsettled, recorded, hrecorded, -⟩ := h
    simp only [settleTask, bind_eq_ok, return_ok] at hsettled
    obtain ⟨task, hlease, _, hload, _, heffect, _, hrequired, _, hscope, _, hchildren, _, houtputs, _,
      houtcome, refreshed, hrefreshed, row, hget, rfl⟩ := hsettled
    let w : Settlement := { effect := body.effect, result := body.result, staged
                            effectOutcome := r.effectOutcome, childOutputs := r.childOutputs }
    have hrefreshed : ((s.settledRows x'.taskId task x'.leaseId r.attemptId w
      env.now).withoutDependents x'.taskId).refreshContinuationsForPredecessor x'.taskId env.now =
        .ok refreshed := hrefreshed
    obtain rfl := Except.ok.inj (refresh_withoutDependents.symm.trans hrefreshed)
    have hcheck : s.checkSettlement r body x' env.now = .ok _ := hcheck
    have hlease : s.checkTaskLease x'.taskId x'.leaseId body.lease.fence env.now = .ok task := hlease
    have hload : s.loadSpec task.spec = .ok _ := hload
    have hscope : (body.effect.bind (·.get? "effect_type")) = some (.str "generation.publish_v1") →
      (s.runs.lookup task.runId).bind (·.projectId) ≠ none := require_eq_ok.mp hscope
    have hchildren : s.delegatedChildrenCompleted x'.taskId r.attemptId = .ok _ := hchildren
    refine .inr ⟨hfresh, task, w, key, hstaged, ?_, ⟨row, hget⟩, ?_, ?_⟩
    · obtain ⟨hleased, hfence⟩ := checkTaskLease_ok hlease
      simp only [checkSettlement, bind_eq_ok] at hcheck
      obtain ⟨_, hvalid, -⟩ := hcheck
      have hlive := validateAttemptLease_ok hvalid
      refine ⟨orThrow_eq_ok.mp hx, hlive.unsettled, hlive.epoch, hlive.live, hleased, ?_⟩
      have := hlive.fence.trans hfence
      exact_mod_cast this.symm
    · simp only [commandRecord, bind_eq_ok, orThrow_eq_ok] at hrecorded
      obtain ⟨receipts, hinsert, -⟩ := hrecorded
      exact ⟨receipts, hinsert⟩
    · simp only [settleAttempt, hkey, ok_bind, hbody, hid, hx, hepoch, hreplay, hcheck, hstaged,
        settleTask, hlease, hload, heffect, hrequired, require_of _ hscope, hchildren, houtputs, houtcome,
        Bool.false_eq_true, if_false, bind_assoc, pure_eq_ok]
      rfl

theorem State.loadSpec_mono {digest : Option TaskSpec} (hspecs : ∀ sp ∈ s.specs, sp ∈ s'.specs)
    (h : s.loadSpec digest = .ok sp) :
    s'.loadSpec digest = .ok sp := by
  cases digest with
  | none => exact h
  | some sp' =>
    simp only [loadSpec, bind_eq_ok, require_eq_ok, return_ok] at h ⊢
    exact h.imp fun _ h => ⟨hspecs sp' h.1, h.2⟩

/-- A task is read again where its row, its run and its spec are found again. -/
theorem State.getTask_mono (hrow : s'.tasks.lookup p = s.tasks.lookup p) (hruns : s'.runs = s.runs)
    (hspecs : ∀ sp ∈ s.specs, sp ∈ s'.specs) (h : s.getTask p = .ok row) :
    s'.getTask p = .ok row := by
  simp only [getTask, bind_eq_ok, orThrow_eq_ok, return_ok] at h
  obtain ⟨stored, hstored, run, hrun, request, hrequest, _, -, rfl⟩ := h
  have hrequest' : s'.executionRequestFromRow stored = .ok request := by
    simp only [executionRequestFromRow, bind_eq_ok] at hrequest ⊢
    exact hrequest.imp fun sp h => ⟨loadSpec_mono hspecs h.1, h.2⟩
  have hbinding : ∃ b, s'.executionBinding p = .ok b := by
    unfold executionBinding
    split
    · exact ⟨_, rfl⟩
    · simp [storedRequest, hrow, hstored, hrequest']
  obtain ⟨b, hb⟩ := hbinding
  simp [getTask, hrow, hruns, hstored, hrun, hrequest', hb]

/-- No task is a continuation of itself, so a refresh leaves the settled task alone. -/
theorem Inv.getTask_refreshed (hi : Inv s) (h : s.refreshContinuationsForPredecessor p now = .ok s')
    (hget : s.getTask p = .ok row) : s'.getTask p = .ok row := by
  refine foldlM_rest (fun rest s₁ => (∀ t ∈ rest, t ∈ s.continuationsOf p) ∧
    s₁.getTask p = .ok row) ?_ ⟨fun _ => id, hget⟩ h |>.2
  rintro t rest s₁ s₂ ⟨hsub, hget₁⟩ hround
  obtain ⟨i, hdep⟩ := mem_continuationsOf.mp (hsub t List.mem_cons_self)
  have hbeside := refreshContinuation_beside hround
  exact ⟨fun t ht => hsub t (.tail _ ht),
    getTask_mono (hbeside.row p (hi.dep t i p hdep).1) hbeside.runs hbeside.specs hget₁⟩

/-- The continuations that the settlement of a task with these outputs would admit have what their
admission needs: a spec that retention has not released, and a project unless there are no outputs. -/
def State.AdmitsDependents (s : State) (p : TaskId) (staged : List StagedOutput) : Prop :=
  ∀ t i, s.dependencies.lookup (t, i) = some p → s.statusOf t = some .queued →
    s.admissions.lookup t = none →
    (∀ j q, s.dependencies.lookup (t, j) = some q → q ≠ p → s.statusOf q = some .completed) →
    (s.view t).Continuing ∧ (s.projectOf t = some none → staged = [] ∧
      ∀ j q, s.dependencies.lookup (t, j) = some q → q ≠ p → s.outputsOf q = [])

/-- What the refresh of a settlement looks at, in the realm before the settlement. -/
theorem Inv.settledRows_admits {task : Task} (hi : Inv s) (lease : LeaseId) (a : AttemptId)
    (w : Settlement) (now : Time) (hrow : s.tasks.lookup p = some task) :
    (∀ t i, s.dependencies.lookup (t, i) = some p →
      (s.settledRows p task lease a w now).Ready t →
      s.admissions.lookup t = none → (s.settledRows p task lease a w now).Admissible t) ↔
    s.AdmitsDependents p w.staged := by
  let u := s.settledRows p task lease a w now
  have htasks : u.tasks = (s.completeRow p w.resultJson now).tasks := rfl
  have hother : ∀ {t}, t ≠ p → u.tasks.lookup t = s.tasks.lookup t := fun ht => by
    rw [htasks]
    exact Table.lookup_modify_of_ne _ _ ht
  have hstatus : u.statusOf p = some .completed := by
    simp [State.statusOf, htasks, State.completeRow, hrow]
  have houtputs : u.outputsOf p = w.staged.map StagedOutput.toJson := by
    simp [State.outputsOf, Task.outputs, htasks, State.completeRow, hrow, Settlement.resultJson,
      Json.asArr]
  have hproject : ∀ {t}, t ≠ p → u.projectOf t = s.projectOf t := fun ht => by
    have hruns : u.runs = (s.setRunStatus task.runId .completed now).runs := rfl
    have hrun : ∀ r, (u.runs.lookup r).map (·.projectId) = (s.runs.lookup r).map (·.projectId) := by
      intro r
      rw [hruns, State.setRunStatus, Table.lookup_modify]
      split <;> cases s.runs.lookup r <;> simp_all
    simp only [State.projectOf, hother ht, hrun]
  have hne : ∀ {t i}, s.dependencies.lookup (t, i) = some p → t ≠ p :=
    fun hdep => (hi.dep _ _ p hdep).1.symm
  refine forall_congr' fun t => forall_congr' fun i => imp_congr_right fun hdep => ?_
  have hready : u.Ready t ↔ s.statusOf t = some .queued ∧ ∀ j q,
      s.dependencies.lookup (t, j) = some q → q ≠ p → s.statusOf q = some .completed := by
    constructor
    · rintro ⟨hqueued, hdone⟩
      refine ⟨by simpa [State.statusOf, hother (hne hdep)] using hqueued, fun j q hj hq => ?_⟩
      simpa [State.statusOf, hother hq] using hdone j q hj
    · rintro ⟨hqueued, hdone⟩
      refine ⟨by simpa [State.statusOf, hother (hne hdep)] using hqueued, fun j q hj => ?_⟩
      by_cases hq : q = p
      · exact hq ▸ hstatus
      · simpa [State.statusOf, hother hq] using hdone j q hj hq
  have hadmissible : u.Admissible t ↔ (s.view t).Continuing ∧ (s.projectOf t = some none →
      w.staged = [] ∧ ∀ j q, s.dependencies.lookup (t, j) = some q → q ≠ p → s.outputsOf q = []) := by
    have hbody : (u.view t).Continuing ↔ (s.view t).Continuing := by
      simp only [View.Continuing, State.view, hother (hne hdep)]
    have hempty : (∀ j q, s.dependencies.lookup (t, j) = some q → u.outputsOf q = []) ↔
        w.staged = [] ∧ ∀ j q, s.dependencies.lookup (t, j) = some q → q ≠ p → s.outputsOf q = [] := by
      constructor
      · intro hnil
        refine ⟨by simpa [houtputs] using hnil i p hdep, fun j q hj hq => ?_⟩
        simpa [State.outputsOf, hother hq] using hnil j q hj
      · rintro ⟨hstaged, hnil⟩ j q hj
        by_cases hq : q = p
        · simp [hq, houtputs, hstaged]
        · simpa [State.outputsOf, hother hq] using hnil j q hj hq
    rw [← hbody, ← hempty, ← hproject (hne hdep)]
    exact ⟨fun h => ⟨h.spec, h.project⟩, fun h => ⟨h.1, h.2⟩⟩
  rw [hready, hadmissible]
  exact ⟨fun h hqueued hnone hdone => h ⟨hqueued, hdone⟩ hnone,
    fun h hready hnone => h hready.1 hnone hready.2⟩

/-- Where a settlement would succeed without the continuations that wait for the task, it succeeds with
them exactly when it is a replay or those that it would admit have what their admission needs. -/
theorem dependents_block_settlement_iff {r : SettleRequest} {x : Attempt} (hs : Reachable s)
    (hx : s.attempts.lookup r.attemptId = some x)
    (hdrop : ∃ out, (s.withoutDependents x.taskId).settleAttempt env r = .ok out) :
    (∃ out, s.settleAttempt env r = .ok out) ↔
      r.Replays env s ∨ ∀ staged, r.staged = .ok staged → s.AdmitsDependents x.taskId staged := by
  have hi := hs.inv
  obtain ⟨out, hout⟩ := hdrop
  rcases settleAttempt_withoutDependents hx hout with ⟨hreplay, hok⟩ |
    ⟨hfresh, task, w, key, hrows⟩
  · exact iff_of_true ⟨_, hok⟩ (.inl hreplay)
  have hi' := (hrows.holds.leased.settledRows (w := w) (hi.attempt_current hrows.holds)).inv hi
  have hrefresh := (hi'.refreshContinuations_iff x.taskId env.now).trans
    (hi.settledRows_admits x.leaseId r.attemptId w env.now hrows.holds.leased.stored)
  rw [hrows.settles]
  simp only [hfresh, false_or, hrows.staged, Except.ok.injEq, forall_eq']
  rw [← hrefresh]
  constructor
  · rintro ⟨out, h⟩
    obtain ⟨refreshed, hrefreshed, -⟩ := bind_eq_ok.mp h
    exact ⟨refreshed, hrefreshed⟩
  · rintro ⟨refreshed, hrefreshed⟩
    obtain ⟨row, hget⟩ := hrows.reads
    obtain ⟨receipts, hinsert⟩ := hrows.records
    have hreceipts : refreshed.receipts = s.receipts :=
      (receipts_of_outside (background_refreshContinuations hrefreshed).outside).trans rfl
    simp [hrefreshed, hi'.getTask_refreshed hrefreshed hget, commandRecord, hreceipts, hinsert]

theorem exists_ok_of_isOk {α : Type} {x : Except Err α} (h : x.isOk = true) : ∃ a, x = .ok a := by
  cases x with
  | ok a => exact ⟨a, rfl⟩
  | error e => simp [Except.isOk, Except.toBool] at h

/-- The settlement of the second of two tasks that a continuation waits for. -/
def secondSettlement : SettleRequest where
  attemptId := "attempt-7"
  body := .obj (Command.leaseFields "lease-7" 1 1)
  key := some "settle"
  staged := .ok [secondOutput]

/-- In a project the second settlement goes through, and the continuation could be admitted. -/
theorem dependents_block_settlement_scoped :
    secondSettlement.Replays (.tick 8 "8") (initial.replay (continuationRun (some "p") none)) ∨
      ∀ staged, secondSettlement.staged = .ok staged →
        (initial.replay (continuationRun (some "p") none)).AdmitsDependents "task-3" staged := by
  obtain ⟨x, hx, htask⟩ : ∃ x, (initial.replay (continuationRun (some "p") none)).attempts.lookup
      secondSettlement.attemptId = some x ∧ x.taskId = "task-3" := by decide +kernel
  have hdrop := exists_ok_of_isOk (x := ((initial.replay (continuationRun (some "p")
    none)).withoutDependents "task-3").settleAttempt (.tick 8 "8") secondSettlement) (by decide +kernel)
  have hok := exists_ok_of_isOk (x := (initial.replay (continuationRun (some "p")
    none)).settleAttempt (.tick 8 "8") secondSettlement) (by decide +kernel)
  rw [← htask] at hdrop ⊢
  exact (dependents_block_settlement_iff (Reachable.replay _) hx hdrop).mp hok

/-- Outside of every project the second settlement is refused because of the continuation. -/
theorem unscoped_continuation_blocks_settlement :
    Reachable (initial.replay (continuationRun none none)) ∧
      (∃ x, (initial.replay (continuationRun none none)).attempts.lookup
        secondSettlement.attemptId = some x ∧ x.taskId = "task-3") ∧
      (((initial.replay (continuationRun none none)).withoutDependents "task-3").settleAttempt
        (.tick 8 "8") secondSettlement).isOk = true ∧
      ((initial.replay (continuationRun none none)).settleAttempt
        (.tick 8 "8") secondSettlement).isOk = false :=
  ⟨Reachable.replay _, by decide +kernel⟩

end WorkspaceRuntime
