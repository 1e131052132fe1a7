import WorkspaceRuntime.Refine.Errors
import WorkspaceRuntime.System

/-!
# Admission

An admission writes its rows in one transaction, so an exception in it leaves no run, task, event,
spec, binding or receipt. The snapshots of its spec are published before that transaction opens, except
for a render: what it has published by then stays.

An admission under a new key is compared with the tasks of its project and capability as they are
stored. It is refused when it equals a task whose external work is not reconciled; a task whose spec
was rewritten since its own admission is not recognised.
-/

namespace WorkspaceRuntime

open Fallible State

variable {env : Env} {s s' : State} {create : TaskCreation} {e : Err} {identity : AdmissionIdentity}
  {toolchain : Option String} {t : TaskId} {row : Task}

/-! ## What a refused admission leaves -/

/-- The tables that an admission writes are the same. -/
structure SameAdmissionTables (s s' : State) : Prop where
  objects : s'.objects = s.objects
  projectObjects : s'.projectObjects = s.projectObjects
  runs : s'.runs = s.runs
  tasks : s'.tasks = s.tasks
  events : s'.events = s.events
  specs : s'.specs = s.specs
  bindings : s'.bindings = s.bindings
  receipts : s'.receipts = s.receipts

theorem SameAdmissionTables.refl (s : State) : SameAdmissionTables s s :=
  ⟨rfl, rfl, rfl, rfl, rfl, rfl, rfl, rfl⟩

/-- Every snapshot of the request is stored, and is an object of its project. -/
def State.SnapshotsStored (s : State) (create : TaskCreation) : Prop :=
  (∀ d ∈ create.published, d ∈ s.objects) ∧
    ∀ p ∈ create.project, ∀ d ∈ create.published, (p, d) ∈ s.projectObjects

/-- Publishing changes the admission tables exactly when some snapshot is new. -/
theorem State.publishSnapshots_same_iff :
    SameAdmissionTables s (s.publishSnapshots create.project create.published) ↔
      s.SnapshotsStored create := by
  have hassociated : insertMissing s.projectObjects
      (create.project.toList.flatMap fun p => create.published.map (p, ·)) = s.projectObjects ↔
      ∀ p ∈ create.project, ∀ d ∈ create.published, (p, d) ∈ s.projectObjects := by
    rw [insertMissing_eq_self_iff]
    simp only [List.mem_flatMap, List.mem_map, Option.mem_toList]
    constructor
    · intro h p hp d hd
      exact h _ ⟨p, hp, d, hd, rfl⟩
    · rintro h _ ⟨p, hp, d, hd, rfl⟩
      exact h p hp d hd
  constructor
  · intro h
    exact ⟨insertMissing_eq_self_iff.mp h.objects, hassociated.mp h.projectObjects⟩
  · rintro ⟨hobjects, hprojects⟩
    exact { SameAdmissionTables.refl s with
      objects := insertMissing_eq_self_iff.mpr hobjects
      projectObjects := hassociated.mpr hprojects }

/-- The request publishes nothing that an exception would leave: it is a render, or it is refused
before it publishes, or its snapshots are stored. -/
def State.PublishesNothing (s : State) (create : TaskCreation) : Prop :=
  create.capability = "rendering.render" ∨ (∃ e, s.checkAdmission create = .error e) ∨
    s.SnapshotsStored create

/-- A realm with one session and one registered capability. -/
def registeredOnce : State :=
  initial.replay
    [(.tick 0 "0", .beginRuntimeSession "boot" none),
      (.tick 1 "1", .registers "e" [("capability_id", .str "c"), ("definition_digest", .str "d")] [])]

/-- An admission of another version of the capability, with a snapshot of its own. -/
def staleAdmission : TaskCreation where
  capability := "c"
  spec := {}
  capabilityDigest := some "d-2"
  published := ["snapshot"]

/-- The stored digest, spec, request and effect of the task are those of the request. -/
def Task.equals (row : Task) (identity : AdmissionIdentity) : Bool :=
  row.capabilityDigest = identity.capabilityDigest &&
    row.sameAdmission (row.spec.getD {}) row.executionRequest identity

/-- An equal admission is attached to this task: it is a render that is active, or that is completed
under the same toolchain and has its output. -/
def TaskCreation.attaches (create : TaskCreation) (identity : AdmissionIdentity)
    (toolchain : Option String) (t : TaskId) (row : Task) : Bool :=
  identity.capability = "rendering.render" ∧ (row.status = .queued ∨ row.status = .running ∨
    (row.status = .completed ∧ toolchain.isSome ∧
      (row.spec.getD {}).runtimeReuseToolchain = some toolchain ∧ create.reusableOutput t))

/-- The comparison ends at this candidate. -/
def TaskCreation.decidedBy (create : TaskCreation) (identity : AdmissionIdentity)
    (toolchain : Option String) (c : Run × TaskId × Task) : Bool :=
  c.2.2.equals identity && (c.2.2.unknown || create.attaches identity toolchain c.2.1 c.2.2)

/-- The loop over the candidates ends at the first that decides it. -/
theorem State.reuseCandidate_eq {candidates : List (Run × TaskId × Task)}
    (hspec : ∀ c ∈ candidates, s.loadSpec c.2.2.spec = .ok (c.2.2.spec.getD {})) :
    s.reuseCandidate create identity toolchain candidates =
      match candidates.find? (create.decidedBy identity toolchain) with
      | none => .ok none
      | some c => if c.2.2.unknown then .error .unreconciled else .ok (some c.2.1) := by
  induction candidates with
  | nil => rfl
  | cons c rest ih =>
    obtain ⟨run, t, row⟩ := c
    have hload := hspec _ List.mem_cons_self
    have ih := ih fun c hc => hspec c (.tail _ hc)
    rw [reuseCandidate, hload, ok_bind, List.find?_cons]
    by_cases hequal : row.equals identity = true
    · rw [if_neg (not_not_intro (by simpa [Task.equals] using hequal))]
      by_cases hunknown : row.unknown = true
      · rw [if_pos (by simpa [Task.unknown] using hunknown)]
        simp [TaskCreation.decidedBy, hequal, hunknown]
      · rw [if_neg (by simpa [Task.unknown] using hunknown)]
        by_cases hattach : create.attaches identity toolchain t row = true
        · rw [if_pos (by simpa [TaskCreation.attaches] using hattach)]
          simp [TaskCreation.decidedBy, hequal, hunknown, hattach]
        · rw [if_neg (by simpa [TaskCreation.attaches] using hattach), ih]
          simp [TaskCreation.decidedBy, hunknown, hattach]
    · rw [if_pos (by simpa [Task.equals] using hequal), ih]
      simp [TaskCreation.decidedBy, hequal]

/-- A candidate is stored. -/
theorem State.mem_reuseCandidates {c : Run × TaskId × Task} (h : c ∈ s.reuseCandidates identity) :
    s.tasks.lookup c.2.1 = some c.2.2 := by
  simp only [reuseCandidates, List.mem_insertionSort, List.mem_filterMap] at h
  obtain ⟨e, he, hmap⟩ := h
  obtain ⟨run, -, rfl⟩ := Option.map_eq_some_iff.mp hmap
  exact Table.lookup_eq_some_iff.mpr he

/-- The first of the candidates that the comparison ends at, the latest run first, is a task whose
external work is not reconciled. -/
def State.HeldByUnknown (env : Env) (s : State) (create : TaskCreation)
    (identity : AdmissionIdentity) : Prop :=
  ∃ toolchain c, s.reuseToolchain env identity = .ok toolchain ∧
    (s.reuseCandidates identity).find? (create.decidedBy identity toolchain) = some c ∧
    c.2.2.unknown = true

/-- The reuse stage raises exactly when the request is held. -/
theorem Inv.admitOrAttach_refused_iff (hi : Inv s) {key : String} {predecessors : List TaskId}
    (hkey : create.idempotencyKey = some key) :
    s.admitOrAttach env create identity predecessors = .error .unreconciled ↔
      s.HeldByUnknown env create identity := by
  have hspec : ∀ c ∈ s.reuseCandidates identity,
      s.loadSpec c.2.2.spec = .ok (c.2.2.spec.getD {}) := by
    intro c hc
    have hrow := mem_reuseCandidates hc
    cases hsp : c.2.2.spec with
    | none => rfl
    | some sp => simp [loadSpec, require_of _ (hi.spec _ _ sp hrow hsp)]
  simp only [State.admitOrAttach, hkey]
  cases htool : s.reuseToolchain env identity with
  | error e =>
    have hne : e ≠ .unreconciled := fun he => avoids_reuseToolchain (he ▸ htool)
    simp [HeldByUnknown, htool, hne]
  | ok toolchain =>
    simp only [ok_bind, reuseCandidate_eq hspec, HeldByUnknown, htool,
      Except.ok.injEq, exists_and_left, exists_eq_left']
    cases hfind : (s.reuseCandidates identity).find? (create.decidedBy identity toolchain) with
    | none =>
      have hnew : s.admitNew env create identity predecessors toolchain ≠ .error .unreconciled :=
        avoids_admitNew
      simpa using hnew
    | some c =>
      by_cases hunknown : c.2.2.unknown = true
      · simp [hunknown]
      · refine iff_of_false (?_ : Avoids _ _) (by simp [hunknown])
        simp [hunknown]

/-- The comparison does not read the objects. -/
theorem State.heldByUnknown_publish {project : Option ProjectId} {digests : List String} :
    (s.publishSnapshots project digests).HeldByUnknown env create identity ↔
      s.HeldByUnknown env create identity := by
  have hrun : ∀ x capability digest facts,
      (s.publishSnapshots project digests).executorCanRun env x capability digest false facts =
        s.executorCanRun env x capability digest false facts := fun _ _ _ _ => rfl
  have htoolchains : ∀ xs capability digest facts,
      (s.publishSnapshots project digests).renderToolchains env capability digest facts xs =
        s.renderToolchains env capability digest facts xs := by
    intro xs capability digest facts
    induction xs with
    | nil => rfl
    | cons x xs ih => simp only [renderToolchains, hrun, ih]
  have htool : (s.publishSnapshots project digests).reuseToolchain env identity =
      s.reuseToolchain env identity := by
    simp only [reuseToolchain, renderToolchain, htoolchains]
    rfl
  simp only [HeldByUnknown, htool]
  rfl

/-- An admission under a new key is refused for work that is not reconciled, and creates no run,
exactly when the comparison with the stored tasks ends at such a task. -/
theorem equal_work_refused_iff (hs : Reachable s) {key : String} {request facts : Option Json}
    {predecessors : List TaskId} (hkey : create.idempotencyKey = some key)
    (hrun : s.admittedRun create.project key = none)
    (hreceipt : s.receipts.lookup (.taskCreate, projectAggregate create.project, key) = none)
    (hchecks : s.checkAdmission create = .ok (request, facts))
    (hresolved : (s.publishSnapshots create.project create.published).resolveAdmission env create
      request facts = .ok (identity, predecessors)) :
    ((s.createTask env create).2 = .error .unreconciled ∧
        (s.createTask env create).1.runs = s.runs) ↔
      s.HeldByUnknown env create identity := by
  have hpublish : Evolves env.now (fun _ _ => False) s
      (s.publishSnapshots create.project create.published) := .publishSnapshots
  have hadmitted : (s.publishSnapshots create.project create.published).admitTask env create request
      facts = (s.publishSnapshots create.project create.published).admitOrAttach env create identity
        predecessors := by
    have hrun' : (s.publishSnapshots create.project create.published).admittedRun create.project key =
        none := hrun
    have hreceipt' : (s.publishSnapshots create.project create.published).receipts.lookup
        (.taskCreate, projectAggregate create.project, key) = none := hreceipt
    simp [admitTask, hresolved, hkey, hrun', hreceipt']
  have hrefused : (s.publishSnapshots create.project create.published).admitOrAttach env create
      identity predecessors = .error .unreconciled ↔ s.HeldByUnknown env create identity :=
    ((hpublish.inv hs.inv).admitOrAttach_refused_iff hkey).trans heldByUnknown_publish
  rw [← hrefused]
  simp only [createTask, hchecks, hadmitted]
  cases (s.publishSnapshots create.project create.published).admitOrAttach env create identity
      predecessors with
  | ok out => simp
  | error e =>
    simp only [Except.error.injEq, and_iff_left_iff_imp]
    intro _
    split <;> rfl

/-- A task on the machine, with this delegation policy and under this key. -/
def machineTask (policy : Option Json) (key : String) : TaskCreation where
  capability := "c"
  spec := { childDelegation := policy }
  capabilityDigest := some "d"
  idempotencyKey := some key
  executionRequest := some (.obj [("target", machineTarget)])

/-- What that task is compared by, without a policy. -/
def machineIdentity : AdmissionIdentity where
  capability := "c"
  spec := {}
  executionRequest := some (.obj [("target", machineTarget)])
  project := none
  expectedEffect := none
  capabilityDigest := some "d"

/-- The task was admitted under `k-1` and claimed, and a restart has marked it. -/
def markedTask (policy : Option Json) : State :=
  initial.replay
    [(.tick 0 "0", .beginRuntimeSession "boot" none),
      (.tick 1 "1", .registers "e" [("capability_id", .str "c"), ("definition_digest", .str "d")] []),
      (.tick 2 "2", .submitTask (machineTask policy "k-1")),
      (.tick 3 "3", .claims machineAccess "e" 1 (some machineTarget)),
      (.tick 4 "4", .beginRuntimeSession "boot-2" none)]

/-- Without a policy the stored spec is that of the admission, and an equal one is refused. -/
theorem equal_work_refused_marked :
    ((markedTask none).createTask (.tick 5 "5") (machineTask none "k-2")).2 =
      .error .unreconciled := by
  have hresolved : ((markedTask none).publishSnapshots (machineTask none "k-2").project
      (machineTask none "k-2").published).resolveAdmission (.tick 5 "5") (machineTask none "k-2")
        (some (.obj [("target", machineTarget)])) none =
      .ok (machineIdentity, []) := by decide +kernel
  have hchecks : (markedTask none).checkAdmission (machineTask none "k-2") =
      .ok (some (.obj [("target", machineTarget)]), none) := by decide +kernel
  have hkey : (machineTask none "k-2").idempotencyKey = some "k-2" := rfl
  obtain ⟨c, hfind, hunknown⟩ : ∃ c, ((markedTask none).reuseCandidates machineIdentity).find?
      ((machineTask none "k-2").decidedBy machineIdentity none) = some c ∧
        c.2.2.unknown = true := by decide +kernel
  exact ((equal_work_refused_iff (Reachable.replay _) hkey (by decide +kernel) (by decide +kernel)
    hchecks hresolved).mpr ⟨none, c, by decide, hfind, hunknown⟩).1

/-- The restart has closed the delegation of the marked task in its stored spec. The same admission
under another key is not refused: it creates a second task. -/
theorem rewritten_work_not_refused :
    Reachable (markedTask (some (.obj [("max_active_children", .int 1)]))) ∧
      (∃ row, (markedTask (some (.obj [("max_active_children", .int 1)]))).tasks.lookup "task-2" =
        some row ∧ row.unknown = true) ∧
      ((markedTask (some (.obj [("max_active_children", .int 1)]))).createTask (.tick 5 "5")
        (machineTask (some (.obj [("max_active_children", .int 1)])) "k-2")).2 =
          .ok (.created "task-5") :=
  ⟨Reachable.replay _, by decide +kernel, by decide +kernel⟩

end WorkspaceRuntime
