import WorkspaceRuntime.System

/-!
# Retention

A sweep releases the specs of old terminal tasks. A retry of such a task puts it back in the queue
without its spec, its effect and its request; where no task is retried so, every live task keeps them.

A replayed admission reads the spec of the task it names. The sweep spares a task whose run has a
recent creation receipt under its own key. A receipt that an admission under another key left when it
was attached to a completed render does not spare the task, so that admission cannot be replayed after
the sweep.
-/

namespace WorkspaceRuntime

open Fallible State

variable {env env' : Env} {s s' : State} {t : TaskId} {row : Task} {run : RunId × Run}
  {identity : AdmissionIdentity} {key : String} {receipt : Receipt} {now : Time} {answer : Admitted}

/-! ## A completed render -/

/-- A render of a pinned source, under this key. -/
def pinnedRender (key : String) : TaskCreation where
  capability := "rendering.render"
  spec := { spec := some (.obj [("authority_context", .obj [("render_toolchain_digest",
    .str ("sha256:" ++ String.ofList (List.replicate 64 '0')))])]) }
  capabilityDigest := some "d"
  idempotencyKey := some key
  reusableOutput := fun _ => true

/-- The render is admitted under the key `k-1` and completed. -/
def renderRun : List (Env × Command) :=
  [(.tick 0 "0", .beginRuntimeSession "boot" none),
    (.tick 1 "1", .registerExecutor
      { registration :=
          { executorId := "e"
            capabilities := [.obj [("capability_id", .str "rendering.render"),
              ("definition_digest", .str "d")]]
            sourceEpoch := some (.str "source"), sourceDigest := some "source-digest" }
        runtimeEpoch := none, body := .null }),
    (.tick 2 "2", .submitTask (pinnedRender "k-1")),
    (.tick 3 "3", .claims {} "e" 1 none),
    (.tick 4 "4", .settles "attempt-3" "lease-3" 1 1 [])]

/-- The realm after that run. -/
def renderedOnce : State := initial.replay renderRun

/-! ## Live tasks and their specs -/

section Live

variable {now : Time} {l : Label} {v v' : View} {allowed : Label → Prop} {c : Command}
  {effect request : Option Json} {row' : Task} {I : View → Prop}

/-- The task has its spec. -/
def View.HasSpec (v : View) : Prop := ∀ row, v.row = some row → row.spec ≠ none

theorem State.hasSpec_view (hrow : s.tasks.lookup t = some row) (hspec : row.spec ≠ none) :
    (s.view t).HasSpec := by
  intro row' hrow'
  obtain rfl := View.row_eq hrow hrow'
  exact hspec

/-- The task has its spec while it is not terminal. -/
def View.Specified (v : View) : Prop :=
  ∀ row, v.row = some row → row.status.terminal = false → row.spec ≠ none

/-- The effect and the request of the task, as long as retention has not released them. -/
def View.Terms (v : View) (effect request : Option Json) : Prop :=
  ∀ row, v.row = some row → row.spec ≠ none →
    row.expectedEffect = effect ∧ row.executionRequest = request

/-- What a step that is neither the creation nor the retirement of a task keeps of its row. -/
structure Task.SameTerms (l : Label) (row row' : Task) : Prop where
  effect : row'.expectedEffect = row.expectedEffect
  request : row'.executionRequest = row.executionRequest
  spec : row.spec ≠ none → row'.spec ≠ none
  /-- A claim may give a spec to a task that lost it. -/
  back : row'.spec ≠ none → row.spec ≠ none ∨ row.status.terminal = false
  live : row'.status.terminal = false → row.status.terminal = false ∨ l = .retry ∨ l = .reopen

theorem Task.SameTerms.refl (row : Task) : Task.SameTerms l row row :=
  ⟨rfl, rfl, id, .inl, .inl⟩

theorem Step.terms (h : Step now l v v') (hretire : l ≠ .retire) (hcreate : ∀ lin, l ≠ .create lin)
    (hrow' : v'.row = some row') :
    ∃ row, v.row = some row ∧ row.SameTerms l row' := by
  cases h with
  | retire => exact absurd rfl hretire
  | create => exact absurd rfl (hcreate _)
  | rebind | settle | lift | bind | replace => exact ⟨row', hrow', .refl row'⟩
  | start hrow hstatus _ _ hstamp _ _ =>
    cases hrow'
    have hlive : ∀ {row : Task}, row.status = .queued ∨ row.status = .cancelRequested →
        row.status.terminal = false := by
      rintro row (h | h) <;> simp [h, Status.terminal]
    refine ⟨_, hrow, rfl, rfl, fun hs => ?_, fun _ => .inr (hlive hstatus),
      fun _ => .inl (hlive hstatus)⟩
    rcases hstamp with rfl | ⟨toolchain, rfl⟩
    · exact hs
    · simp
  | recover hrow hleased _ _ =>
    cases hrow'
    refine ⟨_, hrow, ?_⟩
    split
    next hrunning =>
      exact ⟨rfl, rfl, id, .inl, fun _ => .inl (by simp [hrunning, Status.terminal])⟩
    next => exact .refl _
  | respec hrow hspec _ | register hrow hspec _ | admission hrow _ _ _ hspec _ _ =>
    cases hrow'
    exact ⟨_, hrow, rfl, rfl, fun _ => by simp, fun _ => .inl (by simp [hspec]), .inl⟩
  | wait hrow | touch hrow | mark hrow | attempt _ hrow | extend hrow =>
    cases hrow'
    exact ⟨_, hrow, rfl, rfl, id, .inl, .inl⟩
  | request hrow hlive _ =>
    cases hrow'
    exact ⟨_, hrow, rfl, rfl, id, .inl, fun _ => .inl hlive⟩
  | requeue hrow hleased _ _ | keepUnknown hrow hleased _ =>
    cases hrow'
    refine ⟨_, hrow, rfl, rfl, id, .inl, fun _ => .inl ?_⟩
    exact Status.leased_live hleased
  | retry hrow =>
    cases hrow'
    exact ⟨_, hrow, rfl, rfl, id, .inl, fun _ => .inr (.inl rfl)⟩
  | reopen hrow =>
    cases hrow'
    exact ⟨_, hrow, rfl, rfl, id, .inl, fun _ => .inr (.inr rfl)⟩
  | stop hrow | withdraw hrow | finalize hrow | fence hrow =>
    cases hrow'
    exact ⟨_, hrow, rfl, rfl, id, .inl, by simp [Status.terminal]⟩
  | finish hrow _ _ _ _ hstatus =>
    cases hrow'
    refine ⟨_, hrow, rfl, rfl, id, .inl, ?_⟩
    rcases hstatus with rfl | rfl <;> simp [Status.terminal]

theorem Step.created_spec {lin : Option Lineage} (h : Step now (.create lin) v v')
    (hrow' : v'.row = some row') :
    row'.spec ≠ none := by
  cases h with
  | create hcreated =>
    obtain rfl := View.row_eq hcreated.stored hrow'
    simp [hcreated.spec]

theorem Step.retired (h : Step now .retire v v') (hrow' : v'.row = some row') :
    row'.spec = none ∧ row'.status.terminal = true := by
  cases h with
  | retire hrow hdone =>
    cases hrow'
    exact ⟨rfl, hdone⟩

/-- Only retention takes a spec away. -/
theorem Step.hasSpec (h : Step now l v v') (hl : l ≠ .retire) (hv : v.HasSpec) : v'.HasSpec := by
  intro row' hrow'
  by_cases hcreate : ∃ lin, l = .create lin
  · obtain ⟨lin, rfl⟩ := hcreate
    exact h.created_spec hrow'
  · rw [not_exists] at hcreate
    obtain ⟨row, hrow, hterms⟩ := h.terms hl hcreate hrow'
    exact hterms.spec (hv row hrow)

/-- A task that leaves a terminal status must have its spec. -/
theorem Step.specified (h : Step now l v v') (hl : l = .retry ∨ l = .reopen → v.HasSpec)
    (hv : v.Specified) : v'.Specified := by
  intro row' hrow' hlive
  by_cases hretire : l = .retire
  · exact absurd hlive (by simp [((hretire ▸ h).retired hrow').2])
  by_cases hcreate : ∃ lin, l = .create lin
  · obtain ⟨lin, rfl⟩ := hcreate
    exact h.created_spec hrow'
  · rw [not_exists] at hcreate
    obtain ⟨row, hrow, hterms⟩ := h.terms hretire hcreate hrow'
    refine hterms.spec ?_
    rcases hterms.live hlive with hlive | hl'
    · exact hv row hrow hlive
    · exact hl hl' row hrow

/-- While live tasks have their specs, the effect and the request of a task are replaced by nothing
else. -/
theorem Step.keepsTerms (h : Step now l v v') (hexists : v.row ≠ none) (hv : v.Specified)
    (ht : v.Terms effect request) : v'.Terms effect request := by
  intro row' hrow' hspec'
  by_cases hretire : l = .retire
  · exact absurd ((hretire ▸ h).retired hrow').1 hspec'
  by_cases hcreate : ∃ lin, l = .create lin
  · obtain ⟨lin, rfl⟩ := hcreate
    cases h
    exact absurd rfl hexists
  · rw [not_exists] at hcreate
    obtain ⟨row, hrow, hterms⟩ := h.terms hretire hcreate hrow'
    rw [hterms.effect, hterms.request]
    exact ht row hrow ((hterms.back hspec').elim id (hv row hrow))

/-- The same along a path: a task that may leave a terminal status has its spec, and is not retired on
the way. What is kept by the steps of specified views is kept by the path. -/
theorem Life.specified (h : Life now allowed v v')
    (hopen : allowed .retry ∨ allowed .reopen → ¬allowed .retire ∧ v.HasSpec) (hv : v.Specified)
    (hstep : ∀ {l v₁ v₂}, Step now l v₁ v₂ → v₁.Specified → I v₁ → I v₂) (hI : I v) :
    v'.Specified ∧ I v' := by
  have hpath := h.preserves (I := fun v' => (v'.Specified ∧ I v') ∧
    (allowed .retry ∨ allowed .reopen → v'.HasSpec)) ?_ ⟨⟨hv, hI⟩, fun ha => (hopen ha).2⟩
  · exact hpath.1
  rintro l v₁ v₂ ha hs ⟨⟨hv₁, hI₁⟩, hspec₁⟩
  refine ⟨⟨hs.specified ?_ hv₁, hstep hs hv₁ hI₁⟩, fun hor => ?_⟩
  · rintro (rfl | rfl)
    · exact hspec₁ (.inl ha)
    · exact hspec₁ (.inr ha)
  · exact hs.hasSpec (fun hl => (hopen hor).1 (hl ▸ ha)) (hspec₁ hor)

/-- The command does not retry a task whose spec retention has released. -/
def Command.RetriesSpec (s : State) : Command → Prop
  | .retryTask _ t _ _ => (s.view t).HasSpec
  | _ => True

/-- A command that may put a task back in the queue does not retire it. -/
theorem Command.labels_reopen (h : c.labels env s t .retry ∨ c.labels env s t .reopen) :
    ¬c.labels env s t .retire := by
  cases c <;> simp [labels, createLabels, delegateLabels, registerLabels, claimNextLabels,
    backgroundLabels, cancelLabels, retryLabels, retryRunLabels, resumeLabels, finalizeLabels,
    placementLabels, containLabels, importLabels, retireLabels, Label.Background, Label.Quiet] at h ⊢

/-- The task exists with these terms. -/
def View.HasTerms (v : View) (effect request : Option Json) : Prop :=
  v.row ≠ none ∧ v.Terms effect request

theorem Step.hasTerms (h : Step now l v v') (hv : v.Specified) (ht : v.HasTerms effect request) :
    v'.HasTerms effect request := by
  refine ⟨?_, h.keepsTerms ht.1 hv ht.2⟩
  obtain ⟨row, hrow⟩ := Option.ne_none_iff_exists'.mp ht.1
  obtain ⟨row', hrow', -⟩ := h.later.row row hrow
  simp [hrow']

/-- In such a step live tasks keep their specs, and every task what the steps of its view keep. -/
theorem Inv.specified (hi : Inv s) (hok : c.RetriesSpec s) (hv : (s.view t).Specified)
    (hstep : ∀ {l v v'}, Step env.now l v v' → v.Specified → I v → I v') (hI : I (s.view t)) :
    ((c.next env s).view t).Specified ∧ I ((c.next env s).view t) := by
  refine (hi.next.path t).specified (fun hopen => ⟨Command.labels_reopen hopen, ?_⟩) hv hstep hI
  have hretried : (∃ access body key, c = .retryTask access t body key) ∨
      ∃ row sp, s.tasks.lookup t = some row ∧ row.spec = some sp := by
    rcases hopen with hl | hl
    · exact (Command.labels_rare hl).retry rfl
    · exact .inl ((Command.labels_rare hl).reopen rfl)
  rcases hretried with ⟨access, body, key, rfl⟩ | ⟨row, sp, hrow, hsp⟩
  · exact hok
  · exact hasSpec_view hrow (by simp [hsp])

/-- The same along a run. -/
theorem Steps.specified (hi : Inv s) (hrun : Steps (fun s _ c => c.RetriesSpec s) s s')
    (hv : (s.view t).Specified) (hstep : ∀ {now l v v'}, Step now l v v' → v.Specified → I v → I v')
    (hI : I (s.view t)) :
    (s'.view t).Specified ∧ I (s'.view t) :=
  hrun.preserves hi (I := fun s => (s.view t).Specified ∧ I (s.view t))
    (fun hi hok hv => hi.specified hok hv.1 hstep hv.2) ⟨hv, hI⟩

theorem View.specified_blank : View.blank.Specified := by
  intro row hrow
  simp [View.blank] at hrow

end Live

/-! ## What a sweep keeps -/

/-- The state that a sweep leaves. -/
def State.swept (env : Env) (s : State) : State :=
  ((s.retireTasks (env.now - days env.retentionDays) (env.now - resultWindow)).retireRuns
    (env.now - days env.retentionDays)).removeSpecs

theorem State.retireTerminalSpecs_eq_ok :
    s.retireTerminalSpecs env = .ok s' ↔ 2 ≤ env.retentionDays ∧ s.swept env = s' := by
  simp only [retireTerminalSpecs, bind_eq_ok, require_eq_ok, return_ok,
    exists_const]
  rfl

/-- The row of a task after the sweep. -/
def State.sweptRow (env : Env) (s : State) (t : TaskId) (row : Task) : Task :=
  if s.retires env t row then
    { row with spec := none, expectedEffect := none, executionRequest := none }
  else row

theorem State.swept_tasks : (s.swept env).tasks = s.tasks.mapRows (s.sweptRow env) := rfl

/-- A run after the sweep. -/
def State.sweptRun (env : Env) (s : State) (r : RunId) (run : Run) : Run :=
  if run.status.terminal && run.updatedAt < env.now - days env.retentionDays
      && !((s.swept env).tasks.entries.any fun e => e.2.runId = r && e.2.spec.isSome) then
    { run with spec := none }
  else run

theorem State.swept_runs : (s.swept env).runs = s.runs.mapRows (s.sweptRun env) := rfl

@[simp] theorem State.sweptRow_runId : (s.sweptRow env t row).runId = row.runId := by
  unfold sweptRow
  split <;> rfl

@[simp] theorem State.sweptRow_status : (s.sweptRow env t row).status = row.status := by
  unfold sweptRow
  split <;> rfl

/-- The task of a run is the same, with its row swept. -/
theorem State.swept_taskOfRun (r : RunId) :
    (s.swept env).taskOfRun r = (s.taskOfRun r).map fun e => (e.1, s.sweptRow env e.1 e.2) := by
  simp [taskOfRun, swept_tasks, Table.mapRows, List.find?_map, Function.comp_def]

theorem State.taskOfRun_ok {r : RunId} {e : TaskId × Task} (h : s.taskOfRun r = some e) :
    s.tasks.lookup e.1 = some e.2 ∧ e.2.runId = r :=
  ⟨Table.lookup_eq_some_iff.mpr (List.mem_of_find?_eq_some h), by
    simpa using List.find?_some h⟩

/-- The sweep leaves the row of the task. -/
structure State.Spared (env : Env) (s : State) (t : TaskId) (row : Task) : Prop where
  stored : s.tasks.lookup t = some row
  kept : s.retires env t row = false

theorem State.Spared.sweptRow_eq (h : s.Spared env t row) : s.sweptRow env t row = row := by
  simp [sweptRow, h.kept]

theorem State.Spared.lookup (h : s.Spared env t row) : (s.swept env).tasks.lookup t = some row := by
  rw [swept_tasks, Table.lookup_mapRows, h.stored, Option.map_some, h.sweptRow_eq]

/-- A spec that a task or a run still names after the sweep is read as before. -/
theorem State.swept_loadSpec {spec : Option TaskSpec}
    (h : (∃ t row, (s.swept env).tasks.lookup t = some row ∧ row.spec = spec) ∨
      ∃ r run, (s.swept env).runs.lookup r = some run ∧ run.spec = spec) :
    (s.swept env).loadSpec spec = s.loadSpec spec := by
  cases spec with
  | none => rfl
  | some sp =>
    have hmem : sp ∈ (s.swept env).specs ↔ sp ∈ s.specs := by
      refine ⟨fun hsp => (List.mem_filter.mp hsp).1, fun hsp => List.mem_filter.mpr ⟨hsp, ?_⟩⟩
      simp only [referenced, Bool.or_eq_true, List.any_eq_true, decide_eq_true_eq]
      rcases h with ⟨t, row, hrow, heq⟩ | ⟨r, run, hrun, heq⟩
      · exact .inl ⟨(t, row), Table.lookup_eq_some_iff.mp hrow, heq⟩
      · exact .inr ⟨(r, run), Table.lookup_eq_some_iff.mp hrun, heq⟩
    simp only [loadSpec, hmem]

theorem State.Spared.request (h : s.Spared env t row) :
    (s.swept env).executionRequestFromRow row = s.executionRequestFromRow row := by
  simp only [executionRequestFromRow, swept_loadSpec (.inl ⟨t, row, h.lookup, rfl⟩)]

/-- A spared task is read as before. -/
theorem State.Spared.getTask (h : s.Spared env t row) {task : Task} (hget : s.getTask t = .ok task) :
    (s.swept env).getTask t = .ok task := by
  have hbinding : (s.swept env).executionBinding t = s.executionBinding t := by
    simp only [executionBinding, storedRequest, h.lookup, h.stored, h.request]
    rfl
  simp only [State.getTask, bind_eq_ok, orThrow_eq_ok, return_ok] at hget ⊢
  obtain ⟨row', hrow', run, hrun, request, hrequest, binding, hb, rfl⟩ := hget
  obtain rfl := Option.mem_unique h.stored hrow'
  refine ⟨row, h.lookup, s.sweptRun env row.runId run, ?_, request, h.request.trans hrequest, binding,
    hbinding.trans hb, rfl⟩
  rw [swept_runs, Table.lookup_mapRows, hrun, Option.map_some]

/-- A run keeps its spec with its task. -/
theorem State.Spared.sweptRun_eq (h : s.Spared env t row) (hspec : row.spec ≠ none) (run : Run) :
    s.sweptRun env row.runId run = run := by
  have hnamed : ((s.swept env).tasks.entries.any fun e =>
      e.2.runId = row.runId && e.2.spec.isSome) = true := by
    refine List.any_eq_true.mpr ⟨(t, row), Table.lookup_eq_some_iff.mp h.lookup, ?_⟩
    simpa [Option.isSome_iff_ne_none] using hspec
  simp [sweptRun, hnamed]

/-! ## Replays after a sweep -/

/-- The run that has the key is the same, and swept. -/
theorem State.swept_admittedRun (project : Option ProjectId) (key : String) :
    (s.swept env).admittedRun project key =
      (s.admittedRun project key).map fun e => (e.1, s.sweptRun env e.1 e.2) := by
  have hkey : ∀ r run, (s.sweptRun env r run).projectId = run.projectId ∧
      (s.sweptRun env r run).idempotencyKey = run.idempotencyKey := by
    intro r run
    unfold sweptRun
    split <;> exact ⟨rfl, rfl⟩
  simp [admittedRun, swept_runs, Table.mapRows, List.find?_map, Function.comp_def, hkey]

theorem State.admittedRun_ok {project : Option ProjectId} (h : s.admittedRun project key = some run) :
    s.runs.lookup run.1 = some run.2 ∧ run.2.projectId = project ∧
      run.2.idempotencyKey = some key :=
  ⟨Table.lookup_eq_some_iff.mpr (List.mem_of_find?_eq_some h), by simpa using List.find?_some h⟩

/-- A recent receipt under the key of the run spares its task. -/
theorem State.spared_of_receipt (hrun : s.admittedRun identity.project key = some run)
    (hreceipt : s.receipts.lookup (.taskCreate, projectAggregate identity.project, key) = some receipt)
    (hrecent : env.now - resultWindow ≤ receipt.createdAt) {e : TaskId × Task}
    (he : s.taskOfRun run.1 = some e) : s.Spared env e.1 e.2 := by
  obtain ⟨hstored, hrunId⟩ := taskOfRun_ok he
  obtain ⟨hlookup, hproject, hkey⟩ := admittedRun_ok hrun
  have hreplayable : s.replayable run.2 (env.now - resultWindow) = true := by
    simp only [replayable, hkey, hproject, hreceipt, Option.any_some, decide_eq_true hrecent]
  refine ⟨hstored, ?_⟩
  simp [retires, retirable, hrunId, hlookup, hreplayable]

/-- The admission of the run itself is replayed as before. -/
theorem State.replayRun_swept (env : Env) (hrun : s.admittedRun identity.project key = some run)
    (hreceipt : s.receipts.lookup (.taskCreate, projectAggregate identity.project, key) = some receipt)
    (hrecent : env.now - resultWindow ≤ receipt.createdAt)
    (h : s.replayRun run identity key now = .ok (s', answer)) :
    ∃ row after, s.Spared env answer.task row ∧
      (s.swept env).admittedRun identity.project key = some run ∧
      (s.swept env).replayRun run identity key now = .ok (after, answer) := by
  simp only [replayRun, bind_eq_ok, orThrow_eq_ok] at h
  obtain ⟨e, he, _, hcheck, h⟩ := h
  have hspared := spared_of_receipt hrun hreceipt hrecent he
  have hrunId := (taskOfRun_ok he).2
  have hspecs : run.2.spec ≠ none ∧ e.2.spec ≠ none := by
    simp only [checkReplay, bind_eq_ok, require_eq_ok] at hcheck
    exact hcheck.choose_spec.1
  have hrun' : (s.swept env).admittedRun identity.project key = some run := by
    have hsame := hspared.sweptRun_eq hspecs.2 run.2
    rw [hrunId] at hsame
    rw [swept_admittedRun, hrun, Option.map_some, hsame]
  have he' : (s.swept env).taskOfRun run.1 = some e := by
    rw [swept_taskOfRun, he, Option.map_some, hspared.sweptRow_eq]
  have hcheck' : (s.swept env).checkReplay run.2 e.2 identity = .ok () := by
    have hload : (s.swept env).loadSpec run.2.spec = s.loadSpec run.2.spec :=
      swept_loadSpec (.inr ⟨run.1, run.2, (admittedRun_ok hrun').1, rfl⟩)
    simpa only [checkReplay, hload, hspared.request] using hcheck
  have hreceipt' : (s.swept env).receipts.lookup
      (.taskCreate, projectAggregate identity.project, key) = some receipt := hreceipt
  simp only [replayRun, bind_eq_ok, orThrow_eq_ok, he', Option.some.injEq, exists_eq_left',
    hcheck', hreceipt', hreceipt] at h ⊢
  split at h
  next hhash =>
    split at h
    next hdone =>
      simp only [bind_eq_ok, return_ok, Prod.mk.injEq] at h
      obtain ⟨_, hwindow, -, rfl⟩ := h
      refine ⟨e.2, s.swept env, hspared, hrun', (), trivial, ?_⟩
      rw [if_pos hhash, if_pos hdone]
      exact bind_eq_ok.mpr ⟨_, hwindow, rfl⟩
    next hlive =>
      simp only [bind_eq_ok, return_ok, Prod.mk.injEq] at h
      obtain ⟨task, hget, -, rfl⟩ := h
      refine ⟨e.2, s.swept env, hspared, hrun', (), trivial, ?_⟩
      rw [if_pos hhash, if_neg hlive]
      exact bind_eq_ok.mpr ⟨task, hspared.getTask hget, rfl⟩
  next hhash =>
    simp only [bind_eq_ok, return_ok, Prod.mk.injEq] at h
    obtain ⟨task, hget, -, rfl⟩ := h
    refine ⟨e.2, (s.swept env).keepReceipt (.taskCreate, projectAggregate identity.project, key)
      { receipt with request := .admission identity }, hspared, hrun', (), trivial, ?_⟩
    rw [if_neg hhash]
    exact bind_eq_ok.mpr ⟨task, hspared.getTask hget, rfl⟩

/-- An attached admission is replayed as before unless the sweep retires the task it names. -/
theorem State.replayAttached_swept (h : s.replayAttached receipt identity now = .ok (s', answer)) :
    ∃ row, s.tasks.lookup answer.task = some row ∧
      ((∃ after, (s.swept env).replayAttached receipt identity now = .ok (after, answer)) ↔
        s.retires env answer.task row = false) := by
  have hattached : receipt.primaryStream.bind (s.swept env).taskOfRun =
      (receipt.primaryStream.bind s.taskOfRun).map fun e => (e.1, s.sweptRow env e.1 e.2) := by
    cases receipt.primaryStream with
    | none => rfl
    | some r => exact swept_taskOfRun r
  simp only [replayAttached, bind_eq_ok, hattached] at h ⊢
  obtain ⟨_, hhash, h⟩ := h
  cases hrun : receipt.primaryStream.bind s.taskOfRun with
  | none =>
    simp [hrun, bind_eq_ok, orThrow] at h
  | some e =>
    obtain ⟨r, -, hr⟩ := Option.bind_eq_some_iff.mp hrun
    have hstored := (taskOfRun_ok hr).1
    by_cases hdone : e.2.status.terminal = true
    · simp only [hrun, Option.filter_some, hdone, Bool.not_true, Bool.false_eq_true, if_false,
        bind_eq_ok, orThrow_eq_ok, return_ok, Prod.mk.injEq] at h
      obtain ⟨_, hwindow, e', hsome, -, rfl⟩ := h
      obtain ⟨hspec, rfl⟩ : e.2.spec.isSome = true ∧ e = e' := by simpa using hsome
      refine ⟨e.2, hstored, ?_⟩
      change _ ↔ s.retires env e.1 e.2 = false
      simp only [Option.map_some, Option.filter_some, sweptRow_status, hdone, Bool.not_true,
        Bool.false_eq_true, if_false, bind_eq_ok, orThrow_eq_ok, pure_eq_ok]
      constructor
      · rintro ⟨_, _, -, _, -, task, htask, -⟩
        by_contra hret
        rw [Bool.not_eq_false] at hret
        simp [sweptRow, hret] at htask
      · intro hkept
        exact ⟨_, _, hhash, _, hwindow, e, by simp [sweptRow, hkept, hspec], rfl⟩
    · simp only [hrun, Option.filter_some, hdone, Bool.not_false, if_true, bind_eq_ok, return_ok, Prod.mk.injEq] at h
      obtain ⟨task, hget, -, rfl⟩ := h
      have hspared : s.Spared env e.1 e.2 :=
        ⟨hstored, by simp [retires, retirable, hdone]⟩
      refine ⟨e.2, hstored, iff_of_true ⟨s.swept env, (), hhash, ?_⟩ hspared.kept⟩
      simp only [Option.map_some, hspared.sweptRow_eq, Option.filter_some, hdone, Bool.not_false,
        if_true]
      exact bind_eq_ok.mpr ⟨task, hspared.getTask hget, rfl⟩

/-- A repeated admission with a recent receipt, before and after a sweep. -/
theorem State.admitTask_swept (env : Env) {create : TaskCreation} {executionRequest facts : Option Json}
    (hkey : create.idempotencyKey = some key)
    (hreceipt : s.receipts.lookup (.taskCreate, projectAggregate create.project, key) = some receipt)
    (hrecent : env.now - resultWindow ≤ receipt.createdAt)
    (h : s.admitTask env' create executionRequest facts = .ok (s', answer)) :
    ∃ row, s.tasks.lookup answer.task = some row ∧
      ((∃ after, (s.swept env).admitTask env' create executionRequest facts = .ok (after, answer)) ↔
        s.retires env answer.task row = false) := by
  obtain ⟨⟨identity, predecessors⟩, hresolved, h⟩ := bind_eq_ok.mp h
  have hresolved' : (s.swept env).resolveAdmission env' create executionRequest facts =
      .ok (identity, predecessors) := hresolved
  have hreceipt' : (s.swept env).receipts.lookup
      (.taskCreate, projectAggregate create.project, key) = some receipt := hreceipt
  have hproject := resolveAdmission_project hresolved
  simp only [admitTask, bind_eq_ok, hresolved', Except.ok.injEq, exists_eq_left', hkey,
    hreceipt, hreceipt'] at h ⊢
  cases hrun : s.admittedRun create.project key with
  | some run =>
    simp only [hrun] at h
    rw [← hproject] at hrun hreceipt
    obtain ⟨row, after, hspared, hrun', hafter⟩ :=
      replayRun_swept env hrun hreceipt hrecent h
    simp only [hproject ▸ hrun']
    exact ⟨row, hspared.stored, iff_of_true ⟨after, hafter⟩ hspared.kept⟩
  | none =>
    simp only [hrun] at h
    simp only [swept_admittedRun, hrun, Option.map_none]
    exact replayAttached_swept h

/-- An admission that is replayed from a receipt inside the window is replayed after a sweep, with the
same answer and the same task row, exactly when the sweep does not retire the task it names. -/
theorem sweep_keeps_replay_iff {create : TaskCreation} (hkey : create.idempotencyKey = some key)
    (hreceipt : s.receipts.lookup (.taskCreate, projectAggregate create.project, key) = some receipt)
    (hrecent : env.now - resultWindow ≤ receipt.createdAt)
    (hreplay : (s.createTask env' create).2 = .ok answer)
    (hsweep : s.retireTerminalSpecs env = .ok s') :
    ((s'.createTask env' create).2 = .ok answer ∧
        s'.tasks.lookup answer.task = s.tasks.lookup answer.task) ↔
      ∀ row, s.tasks.lookup answer.task = some row → s.retires env answer.task row = false := by
  obtain ⟨-, rfl⟩ := retireTerminalSpecs_eq_ok.mp hsweep
  have hchecks : (s.swept env).checkAdmission create = s.checkAdmission create := rfl
  have hpublish : (s.swept env).publishSnapshots create.project create.published =
      (s.publishSnapshots create.project create.published).swept env := rfl
  unfold createTask at hreplay ⊢
  rw [hchecks]
  cases hchecked : s.checkAdmission create with
  | error e => simp [hchecked] at hreplay
  | ok checked =>
    simp only [hchecked, hpublish] at hreplay ⊢
    cases hanswer : (s.publishSnapshots create.project create.published).admitTask env' create
        checked.1 checked.2 with
    | error e => simp [hanswer] at hreplay
    | ok out =>
      obtain ⟨after, answer'⟩ := out
      obtain rfl : answer' = answer := by simpa [hanswer] using hreplay
      obtain ⟨row, hrow, hiff⟩ := admitTask_swept env
        (s := s.publishSnapshots create.project create.published) hkey hreceipt hrecent hanswer
      have hrow' : s.tasks.lookup answer'.task = some row := hrow
      constructor
      · rintro ⟨hok, -⟩ row' hstored
        obtain rfl := Option.mem_unique hrow' hstored
        refine hiff.mp ?_
        split at hok
        next admitted out hout =>
          cases hok
          exact ⟨admitted, hout⟩
        next => simp at hok
      · intro hkept
        obtain ⟨after', hafter⟩ := hiff.mpr (hkept row hrow')
        have hspared : s.Spared env answer'.task row := ⟨hrow', hkept row hrow'⟩
        exact ⟨by rw [hafter], by rw [hspared.lookup, hrow']⟩

/-- The admission under `k-1` is replayed after a sweep in its window. -/
theorem sweep_keeps_replay_rendered :
    ((renderedOnce.swept (.tick 5 "5")).createTask (.tick 6 "6") (pinnedRender "k-1")).2 =
      .ok (.replayed "task-2") := by
  obtain ⟨receipt, hreceipt, hrecent⟩ : ∃ receipt, renderedOnce.receipts.lookup
      (.taskCreate, projectAggregate (pinnedRender "k-1").project, "k-1") = some receipt ∧
        (Env.tick 5 "5").now - resultWindow ≤ receipt.createdAt := by decide +kernel
  obtain ⟨row, hrow, hkept⟩ : ∃ row, renderedOnce.tasks.lookup "task-2" = some row ∧
      renderedOnce.retires (.tick 5 "5") "task-2" row = false := by decide +kernel
  have hsweep : renderedOnce.retireTerminalSpecs (.tick 5 "5") =
      .ok (renderedOnce.swept (.tick 5 "5")) :=
    retireTerminalSpecs_eq_ok.mpr ⟨by decide, rfl⟩
  have hreplay : (renderedOnce.createTask (.tick 6 "6") (pinnedRender "k-1")).2 =
      .ok (.replayed "task-2") := by decide +kernel
  have hkey : (pinnedRender "k-1").idempotencyKey = some "k-1" := rfl
  refine ((sweep_keeps_replay_iff hkey hreceipt hrecent hreplay
    hsweep).mpr fun row' hrow' => ?_).1
  obtain rfl := Option.mem_unique hrow hrow'
  exact hkept

/-- Forty days later the same render is admitted under the key `k-2`, and attached to the first. -/
def attachedLater : State :=
  renderedOnce.replay
    [(.tick (days 40) "5", .heartbeatExecutor "e" (some true) (some 1)),
      (.tick (days 40 + 1) "6", .submitTask (pinnedRender "k-2"))]

/-- The admission under `k-2` is replayable, and after a sweep two milliseconds later it is not. -/
theorem sweep_breaks_attached_replay :
    Reachable attachedLater ∧
      (∃ receipt, attachedLater.receipts.lookup (.taskCreate, projectAggregate none, "k-2") =
        some receipt ∧ receipt.createdAt = days 40 + 1) ∧
      (attachedLater.createTask (.tick (days 40 + 2) "7") (pinnedRender "k-2")).2 =
        .ok (.replayed "task-2") ∧
      ((Command.retireTerminalSpecs.next (.tick (days 40 + 3) "8") attachedLater).createTask
        (.tick (days 40 + 4) "9") (pinnedRender "k-2")).2 =
          .error (.windowExpired "task or run is unavailable for replay") :=
  ⟨(Reachable.replay _).leads (Leads.replay _ _), by decide +kernel, by decide +kernel,
    by decide +kernel⟩

end WorkspaceRuntime
