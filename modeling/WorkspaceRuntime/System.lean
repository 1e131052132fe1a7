import WorkspaceRuntime.Refine.Resume
import WorkspaceRuntime.Refine.Tasks

/-!
# The runtime as a transition system

A `Command` is one request to the runtime, with its body and with what the checks outside the task
tables answer; `Command.next` is the state it leaves, which is the state before when it raises, except
for a resume and for an admission that has published objects. Every command is read as paths of the
tasks' automaton, with the labels that `Command.labels` gives (`Inv.next`), and a property of a run is
derived from that.
-/

namespace WorkspaceRuntime

open State

/-- One request to the runtime. -/
inductive Command where
  | createProject (project : ProjectId)
  | ingest (project : Option ProjectId) (digests : List String)
  | registerCapability (id : CapabilityId) (row : Capability)
  | registerExecutor (r : RegisterRequest)
  | setExecutorReadiness (executor : ExecutorId) (ready : Bool) (epoch : Option Int)
  | heartbeatExecutor (executor : ExecutorId) (ready : Option Bool) (epoch : Option Int)
  | submitTask (create : TaskCreation)
  | admitDelegatedChild (r : ChildRequest)
  | issueChildAuthority (access : Access) (attempt : AttemptId) (lease : LeaseBody)
      (registered : Except Err (Json × List String))
  | claimNext (access : Access) (body : Json) (key : Option String)
  | heartbeatAttempt (r : AttemptRequest) (progress : Except Err Unit)
  | settleAttempt (r : SettleRequest)
  | failAttempt (r : AttemptRequest)
  | cancelTask (task : TaskId) (body : Json) (key : Option String)
  | cancelRun (run : RunId) (key : Option String)
  | retryTask (access : Access) (task : TaskId) (body : Json) (key : Option String)
  | retryRun (run : RunId) (selected : Option (List TaskId)) (key : Option String)
  | reapOverdueLeases
  | beginRuntimeSession (boot : String) (floor : Option Int)
  | prepareReboot (access : Access) (body : Json)
  | checkpointAttempt (access : Access) (attempt : AttemptId) (body : Json) (digest : String)
      (stored : Except Err Unit)
  | requestReboot (access : Access) (body : Json) (intact : Except Err Unit)
  | finishReboot (checkpoint : CheckpointId) (executed : Bool)
  | resumeAttempt (r : ResumeRequest)
  | finalizeOwned (captured : Captured) (proof : String)
  | recoverTaskPlacement (task : TaskId) (r : PlacementRecoveryRequest)
  | revokeRemoteActivation (task : TaskId) (activation : String) (current : Except Err Unit)
  | importMedia (create : TaskCreation) (settle : SettleRequest)
  | retireTerminalSpecs

/-- The state that a transaction leaves: an exception rolls it back. -/
def committed {α : Type} (s : State) (state : α → State) : Except Err α → State
  | .ok a => state a
  | .error _ => s

namespace Command

/-- The state that a command leaves. -/
def next (env : Env) (s : State) : Command → State
  | createProject p => { s with projects := s.projects ++ [p] }
  | ingest project digests => s.publishSnapshots project digests
  | registerCapability capability row => committed s id (s.registerCapability capability row)
  | registerExecutor r => committed s Prod.fst (s.registerExecutor env r)
  | setExecutorReadiness executor ready epoch =>
    committed s id (s.setExecutorReadiness env executor ready epoch)
  | heartbeatExecutor executor ready epoch =>
    committed s id (s.heartbeatExecutor env executor ready epoch)
  | submitTask create => (s.submitTask env create false none).1
  | admitDelegatedChild r => committed s Prod.fst (s.admitDelegatedChild env r)
  | issueChildAuthority access a lease registered =>
    committed s id (s.issueChildAuthority env access a lease registered)
  | claimNext access body key => committed s Prod.fst (s.claimNext env access body key)
  | heartbeatAttempt r progress => committed s Prod.fst (s.heartbeatAttempt env r progress)
  | settleAttempt r => committed s Prod.fst (s.settleAttempt env r)
  | failAttempt r => committed s Prod.fst (s.failAttempt env r)
  | cancelTask t body key => committed s Prod.fst (s.cancelTaskCanonical env t body key)
  | cancelRun r key => committed s Prod.fst (s.cancelRunCommand env r key)
  | retryTask access t body key => committed s Prod.fst (s.retryTask env access t body key)
  | retryRun r selected key => committed s Prod.fst (s.retryRunCommand env r selected key)
  | reapOverdueLeases => committed s id (s.reapOverdueLeases env.now)
  | beginRuntimeSession boot floor => committed s id (s.beginRuntimeSession boot floor env.now)
  | prepareReboot access body => committed s id (s.prepareReboot env access body)
  | checkpointAttempt access a body digest stored =>
    committed s id (s.checkpointAttempt env access a body digest stored)
  | requestReboot access body intact => committed s id (s.requestReboot env access body intact)
  | finishReboot c executed => s.finishReboot c executed
  | resumeAttempt r => (s.resumeAttempt env r).1
  | finalizeOwned captured proof =>
    committed s id (s.finalizeOwnedLocalCancellations captured proof env.now)
  | recoverTaskPlacement t r => committed s Prod.fst (s.recoverTaskPlacement env t r)
  | revokeRemoteActivation t activation current =>
    committed s id (s.revokeRemoteActivation env t activation current)
  | importMedia create settle => committed s id (s.settleMediaImport env create settle)
  | retireTerminalSpecs => committed s id (s.retireTerminalSpecs env)

/-- The labels of the steps that a command moves a task by. -/
def labels (env : Env) (s : State) : Command → TaskId → Label → Prop
  | submitTask _ => createLabels env s none
  | admitDelegatedChild r => delegateLabels env s r
  | issueChildAuthority _ a _ _ => registerLabels s a
  | claimNext .. => claimNextLabels
  | heartbeatAttempt r _ => fun t l =>
    l = .extend ∧ ∃ x row, AttemptHolds s r.attemptId x row env.now ∧ x.taskId = t
  | settleAttempt r => fun t l => l.Background ∨
    (l = .finish ∧ ∃ x row, AttemptHolds s r.attemptId x row env.now ∧ x.taskId = t)
  | failAttempt r => fun t l => l.Background ∨
    (l = .finish ∧ ∃ x row, AttemptHolds s r.attemptId x row env.now ∧ x.taskId = t)
  | cancelTask t _ _ => cancelLabels s t
  | cancelRun .. => backgroundLabels
  | retryTask _ t _ _ => retryLabels t
  | retryRun .. => retryRunLabels s
  | reapOverdueLeases => backgroundLabels
  | beginRuntimeSession .. => backgroundLabels
  | resumeAttempt r => resumeLabels env s r
  | finalizeOwned captured _ => finalizeLabels captured
  | recoverTaskPlacement t _ => placementLabels s t
  | revokeRemoteActivation t _ _ => containLabels s t
  | importMedia .. => importLabels env s
  | retireTerminalSpecs => retireLabels env s
  | _ => fun _ _ => False

end Command

variable {env : Env} {s s' : State} {c : Command}

/-- The command sweeps terminal specs first. -/
def Command.sweeps : Command → Bool
  | submitTask _ | admitDelegatedChild _ | importMedia .. | retireTerminalSpecs => true
  | _ => false

/-- The commands with the labels that few commands have. -/
structure Command.Rare (env : Env) (s : State) (c : Command) (t : TaskId) (l : Label) : Prop where
  lift : l = .lift → ∃ r, c = .resumeAttempt r ∧ s.Resumes env r t
  finalize : l = .finalize → ∃ captured proof, c = .finalizeOwned captured proof ∧
    t ∈ captured.entries.map (·.taskId)
  retry : l = .retry → (∃ access body key, c = .retryTask access t body key) ∨
    ∃ row sp, s.tasks.lookup t = some row ∧ row.spec = some sp
  reopen : l = .reopen → ∃ access body key, c = .retryTask access t body key
  retire : l = .retire → c.sweeps = true ∧
    ∃ row, s.tasks.lookup t = some row ∧ s.retires env t row = true
  child : ∀ lin, l = .create (some lin) → ∃ r x parent sp, c = .admitDelegatedChild r ∧
    lin.Under s r.parentAttemptId r.lease env.now x parent sp
  register : l = .register → ∃ access a lease registered x,
    c = .issueChildAuthority access a lease registered ∧ s.attempts.lookup a = some x ∧ x.taskId = t

theorem Command.labels_rare {t : TaskId} {l : Label} (h : c.labels env s t l) : c.Rare env s t l := by
  refine ⟨?_, ?_, ?_, ?_, ?_, fun lin => ?_, ?_⟩ <;> rintro rfl <;> cases c <;>
    simp [labels, sweeps, createLabels, delegateLabels, registerLabels, claimNextLabels,
      backgroundLabels, cancelLabels,
      retryLabels, retryRunLabels, resumeLabels, finalizeLabels, placementLabels, containLabels,
      importLabels, retireLabels, Label.Background, Label.Quiet] at h ⊢
  all_goals grind

/-- A transaction that raises goes nowhere. -/
theorem committed_of {α : Type} {state : α → State} {x : Except Err α} {P : State → Prop}
    (herror : P s) (hok : ∀ a, x = .ok a → P (state a)) : P (committed s state x) := by
  cases x with
  | ok a => exact hok a rfl
  | error e => exact herror

theorem Evolves.committed {α : Type} {now : Time} {A : TaskId → Label → Prop} {state : α → State}
    {x : Except Err α} (h : ∀ a, x = .ok a → Evolves now A s (state a)) :
    Evolves now A s (committed s state x) :=
  committed_of (.refl s) h

/-- What a command does to the realm. -/
theorem Inv.next (hi : Inv s) : Evolves env.now (c.labels env s) s (c.next env s) := by
  cases c with
  | createProject p => exact Records.evolves rfl
  | ingest project digests => exact .publishSnapshots
  | registerCapability id row => exact .committed fun _ => registerCapability_evolves
  | registerExecutor r => exact .committed fun _ h => hi.registerExecutor h
  | setExecutorReadiness => exact .committed fun _ => setExecutorReadiness_evolves
  | heartbeatExecutor => exact .committed fun _ => heartbeatExecutor_evolves
  | submitTask create => exact hi.submitTask (by simp)
  | admitDelegatedChild r => exact .committed fun _ h => hi.admitDelegatedChild h
  | issueChildAuthority => exact .committed fun _ h => Inv.issueChildAuthority h
  | claimNext => exact .committed fun _ h => hi.claimNext h
  | heartbeatAttempt r progress =>
    refine .committed fun ⟨s', replayed⟩ h => ?_
    cases replayed with
    | true => exact heartbeatAttempt_replay h ▸ .refl _
    | false =>
      obtain ⟨x, row, hholds, hev⟩ := heartbeatAttempt_evolves h
      exact hev.mono fun t l ⟨ht, hl⟩ => ⟨hl, x, row, hholds, ht.symm⟩
  | settleAttempt r =>
    refine .committed fun ⟨s', replayed⟩ h => ?_
    cases replayed with
    | true => exact settleAttempt_replay h ▸ .refl _
    | false =>
      obtain ⟨x, row, hholds, hev⟩ := hi.settleAttempt h
      exact hev.mono fun t l hl => hl.imp id fun ⟨ht, hl⟩ => ⟨hl, x, row, hholds, ht.symm⟩
  | failAttempt r =>
    refine .committed fun ⟨s', replayed⟩ h => ?_
    cases replayed with
    | true => exact failAttempt_replay h ▸ .refl _
    | false =>
      obtain ⟨x, row, hholds, hev⟩ := hi.failAttempt h
      exact hev.mono fun t l hl => hl.imp id fun ⟨ht, hl⟩ => ⟨hl, x, row, hholds, ht.symm⟩
  | cancelTask => exact .committed fun _ h => hi.cancelTaskCanonical h
  | cancelRun => exact .committed fun _ h => hi.cancelRunCommand h
  | retryTask => exact .committed fun _ h => hi.retryTask h
  | retryRun => exact .committed fun _ h => hi.retryRunCommand h
  | reapOverdueLeases => exact .committed fun _ h => hi.reapOverdueLeases h
  | beginRuntimeSession => exact .committed fun _ h => hi.beginRuntimeSession h
  | prepareReboot => exact .committed fun _ => prepareReboot_evolves
  | checkpointAttempt => exact .committed fun _ => checkpointAttempt_evolves
  | requestReboot => exact .committed fun _ => requestReboot_evolves
  | finishReboot c executed => exact .finishReboot c executed
  | resumeAttempt r => exact hi.resumeAttempt
  | finalizeOwned => exact .committed fun _ h => hi.finalizeOwnedLocalCancellations h
  | recoverTaskPlacement => exact .committed fun _ h => hi.recoverTaskPlacement h
  | revokeRemoteActivation => exact .committed fun _ h => hi.revokeRemoteActivation h
  | importMedia => exact .committed fun _ h => hi.settleMediaImport h
  | retireTerminalSpecs => exact .committed fun _ => retireTerminalSpecs_evolves

/-! ## Runs -/

/-- The realm before its first session. -/
def State.initial : State where
  lifecycle := { runtimeEpoch := 0, bootId := "" }

/-- A run whose steps all meet a condition on the state before them. -/
def Steps (ok : State → Env → Command → Prop) : State → State → Prop :=
  Trace (fun (l : Env × Command) s s' => ok s l.1 l.2 ∧ s' = l.2.next l.1 s) fun _ => True

/-- Any run. -/
abbrev Leads : State → State → Prop := Steps fun _ _ _ => True

/-- A state that some run of the runtime leads to. -/
def Reachable (s : State) : Prop := Leads .initial s

theorem Inv.initial : Inv .initial where
  view t := View.wf_blank
  spec _ _ _ h := by cases h
  run _ _ h := by cases h
  single _ _ _ _ h := by cases h
  attempt _ _ h := by cases h
  lineage _ _ h := by cases h
  dep _ _ _ h := by cases h
  result _ _ h := by cases h
  unique _ _ _ _ _ _ h := by obtain ⟨_, h, -⟩ := h; cases h
  executors _ _ h := by cases h

variable {ok : State → Env → Command → Prop}

/-- What every step that meets the condition keeps is kept by the run. -/
theorem Steps.preserves {I : State → Prop} (h : Steps ok s s') (hi : Inv s)
    (hstep : ∀ {env s c}, Inv s → ok s env c → I s → I (c.next env s)) (hI : I s) : I s' := by
  refine (Trace.preserves h (I := fun s => Inv s ∧ I s) ?_ ⟨hi, hI⟩).2
  rintro ⟨env, c⟩ s₁ _ - ⟨hok, rfl⟩ ⟨hi₁, hI₁⟩
  exact ⟨hi₁.next.inv hi₁, hstep hi₁ hok hI₁⟩

theorem Steps.inv (h : Steps ok s s') (hi : Inv s) : Inv s' :=
  h.preserves hi (I := Inv) (fun hi _ _ => hi.next.inv hi) hi

theorem Reachable.inv (h : Reachable s) : Inv s :=
  have hrun : Leads .initial s := h
  hrun.inv .initial

theorem Steps.trans {s₁ s₂ s₃ : State} (h : Steps ok s₁ s₂) (h' : Steps ok s₂ s₃) : Steps ok s₁ s₃ :=
  Trace.trans h h'

theorem Steps.single (h : ok s env c) : Steps ok s (c.next env s) :=
  Trace.single (l := (env, c)) trivial ⟨h, rfl⟩

theorem Reachable.leads (h : Reachable s) (h' : Leads s s') : Reachable s' :=
  have hrun : Leads .initial s := h
  hrun.trans h'

theorem Reachable.next (h : Reachable s) : Reachable (c.next env s) := h.leads (.single trivial)

/-- A relation that the paths and the growth of one command imply holds across a run. -/
theorem Steps.relates {R : State → State → Prop} (h : Steps ok s s') (hi : Inv s)
    (hrefl : ∀ s, R s s) (htrans : ∀ {s₁ s₂ s₃}, R s₁ s₂ → R s₂ s₃ → R s₁ s₃)
    (hstep : ∀ {env s c}, Inv s → ok s env c → R s (c.next env s)) : R s s' :=
  h.preserves hi (I := fun s₁ => R s s₁) (fun hi₁ hok hR => htrans hR (hstep hi₁ hok)) (hrefl s)

theorem Steps.later (h : Steps ok s s') (hi : Inv s) (t : TaskId) :
    (s.view t).Later (s'.view t) :=
  h.relates (R := fun s s' => (s.view t).Later (s'.view t)) hi (fun _ => .refl _)
    View.Later.trans fun hi _ => (hi.next.path t).later

theorem Steps.grow (h : Steps ok s s') (hi : Inv s) : Grow s s' :=
  h.relates hi Grow.refl Grow.trans fun hi _ => hi.next.grow

/-! ## Concrete runs -/

/-- The state after a list of commands. -/
def State.replay (s : State) (run : List (Env × Command)) : State :=
  run.foldl (fun s e => e.2.next e.1 s) s

/-- Every command of the list meets the condition in the state that it finds. -/
def State.Meets (ok : State → Env → Command → Prop) (s : State) : List (Env × Command) → Prop
  | [] => True
  | e :: run => ok s e.1 e.2 ∧ (e.2.next e.1 s).Meets ok run

variable {run : List (Env × Command)}

theorem Steps.ofMeets (h : s.Meets ok run) :
    Steps ok s (s.replay run) := by
  induction run generalizing s with
  | nil => exact Trace.refl _
  | cons e run ih => exact (Steps.single h.1).trans (ih h.2)

theorem Steps.replay (h : ∀ e ∈ run, ∀ s, ok s e.1 e.2) :
    Steps ok s (s.replay run) := by
  refine .ofMeets ?_
  induction run generalizing s with
  | nil => trivial
  | cons e run ih =>
    exact ⟨h e List.mem_cons_self s, ih fun e' he' => h e' (List.mem_cons_of_mem e he')⟩

theorem Leads.replay (s : State) (run : List (Env × Command)) : Leads s (s.replay run) :=
  Steps.replay fun _ _ _ => trivial

theorem Reachable.replay (run : List (Env × Command)) : Reachable (initial.replay run) :=
  Leads.replay _ run

/-- Every run keeps the invariant, and nothing that comes later takes back what it recorded. -/
theorem recorded_history_kept (run later : List (Env × Command)) :
    let s := initial.replay run
    Inv s ∧ Grow s (s.replay later) ∧ ∀ t, (s.view t).Later ((s.replay later).view t) := by
  intro s
  have hi : Inv s := (Reachable.replay run).inv
  have hrun := Leads.replay s later
  exact ⟨hi, hrun.grow hi, hrun.later hi⟩

/-- A clock value, enough disk, and new ids with this suffix. -/
def Env.tick (now : Time) (id : String) : Env where
  now := now
  freeDisk := 1099511627776
  newTask := "task-" ++ id
  newRun := "run-" ++ id
  newBinding := "binding-" ++ id
  newAttempt := "attempt-" ++ id
  newLease := "lease-" ++ id
  newCheckpoint := "checkpoint-" ++ id
  newNonce := "nonce-" ++ id

namespace Command

/-- An executor registers the descriptor of one capability. -/
def registers (executor : ExecutorId) (descriptor : Json.Fields) (keys : List ResourceKey) :
    Command :=
  .registerExecutor
    { registration :=
        { executorId := executor, capabilities := [.obj descriptor]
          resourceKeys := some (.arr (keys.map .str)) }
      runtimeEpoch := none, body := .null }

/-- An executor asks for any task. -/
def claims (access : Access) (executor : ExecutorId) (epoch : Nat) (target : Option Json) :
    Command :=
  .claimNext access (.obj ([("capability_ids", .arr []), ("executor_id", .str executor),
    ("runtime_epoch", .int epoch)] ++ target.toList.map fun t => ("target", t))) none

/-- The lease fields of a worker's request. -/
def leaseFields (lease : LeaseId) (fence epoch : Nat) : Json.Fields :=
  [("fence", .int fence), ("lease_id", .str lease), ("runtime_epoch", .int epoch)]

/-- A worker settles its attempt with these outputs. -/
def settles (a : AttemptId) (lease : LeaseId) (fence epoch : Nat) (staged : List StagedOutput) :
    Command :=
  .settleAttempt { attemptId := a, body := .obj (leaseFields lease fence epoch), key := some "settle"
                   staged := .ok staged }

end Command

/-- A machine as the target of a task. -/
def machineTarget : Json := .obj [("id", .str "m"), ("kind", .str "machine")]

/-- A worker whose credential attests that it runs on the machine. -/
def machineAccess : Access where
  executionBinding := some (.obj [("actual", machineTarget), ("executor_incarnation", .str "i"),
    ("verification", .obj [
      ("evidence_digest", .str ("sha256:" ++ String.ofList (List.replicate 64 '0'))),
      ("method", .str "credential_claim"), ("verified", .bool true)])])

/-- A task for this target is claimed under these resource keys, and its attempt is checkpointed. -/
def checkpointedFor (access : Access) (target : Option Json) (keys : List ResourceKey) :
    List (Env × Command) :=
  [(.tick 0 "0", .beginRuntimeSession "boot" none),
    (.tick 1 "1", .registers "e" [("capability_id", .str "c"), ("definition_digest", .str "d"),
      ("required_resource_keys", .arr (keys.map .str))] keys),
    (.tick 2 "2", .submitTask
      { capability := "c", spec := {}
        executionRequest := target.map fun t => .obj [("target", t)] }),
    (.tick 3 "3", .claims access "e" 1 target),
    (.tick 4 "4", .prepareReboot access
      (.obj (("attempt_id", .str "attempt-3") :: Command.leaseFields "lease-3" 1 1))),
    (.tick 5 "5", .checkpointAttempt access "attempt-3"
      (.obj [("authorization", .str "nonce-4"), ("fence", .int 1), ("lease_id", .str "lease-3"),
        ("nonce", .str "nonce-4"), ("runtime_epoch", .int 1)]) "digest" (.ok ()))]

/-- The resume of that checkpoint in this session. -/
def resumesFor (access : Access) (epoch : Nat) : ResumeRequest where
  body := .obj [("authorization", .str "nonce-4"), ("checkpoint_id", .str "checkpoint-5"),
    ("nonce", .str "nonce-4"), ("runtime_epoch", .int epoch)]
  access := access

/-- A task on the machine is checkpointed. -/
def checkpointedRun (keys : List ResourceKey) : List (Env × Command) :=
  checkpointedFor machineAccess (some machineTarget) keys

/-- The resume of its checkpoint. -/
def checkpointResume (epoch : Nat) : ResumeRequest := resumesFor machineAccess epoch

/-- The spec of a continuation of the two tasks. -/
def continues (first second : TaskId) : TaskSpec where
  spec := some (.obj [("runtime_dependencies", .obj [
    ("aggregation", .obj [("kind", .str "ordered_cas_inputs")]),
    ("edges", .arr ([first, second].map fun p =>
      .obj [("fence", .str "runtime_task"), ("from_task_id", .str p),
        ("requires_event", .str "task.succeeded"), ("to", .str "self")]))])])

/-- An output whose digest repeats one character. -/
def stagedOutput (c : Char) (hc : isHexDigit c = true) : StagedOutput where
  digest := String.ofList (List.replicate 64 c)
  isDigest := by simp [hc]

/-- Two different outputs. -/
def firstOutput : StagedOutput := stagedOutput 'a' (by decide)

@[inherit_doc firstOutput]
def secondOutput : StagedOutput := stagedOutput 'b' (by decide)

/-- Two tasks of a project and their continuation, under this request; the first one is settled with
an output, and the second one is claimed. -/
def continuationRun (project : Option ProjectId) (request : Option Json) : List (Env × Command) :=
  [(.tick 0 "0", .createProject "p"),
    (.tick 0 "0", .beginRuntimeSession "boot" none),
    (.tick 1 "1", .registers "e" [("capability_id", .str "c"), ("definition_digest", .str "d")] []),
    (.tick 2 "2", .submitTask { capability := "c", spec := {}, project }),
    (.tick 3 "3", .submitTask { capability := "c", spec := {}, project }),
    (.tick 4 "4", .submitTask
      { capability := "c", spec := continues "task-2" "task-3", project
        executionRequest := request }),
    (.tick 5 "5", .claims {} "e" 1 none),
    (.tick 6 "6", .settles "attempt-5" "lease-5" 1 1 [firstOutput]),
    (.tick 7 "7", .claims {} "e" 1 none)]

/-- A task that may delegate is claimed, and admits a child under its attempt. -/
def delegationRun : List (Env × Command) :=
  [(.tick 0 "0", .beginRuntimeSession "boot" none),
    (.tick 1 "1", .registerExecutor
      { registration :=
          { executorId := "e"
            capabilities := [.obj [("capability_id", .str "c"), ("definition_digest", .str "d")]]
            maxConcurrency := 2 }
        runtimeEpoch := none, body := .null }),
    (.tick 2 "2", .submitTask
      { capability := "c", spec := { childDelegation := some (.obj []) } }),
    (.tick 3 "3", .claims {} "e" 1 none),
    (.tick 4 "4", .admitDelegatedChild
      { parentAttemptId := "attempt-3"
        lease := { leaseId := "lease-3", fence := 1, runtimeEpoch := 1 }
        create := { capability := "c", spec := {} } })]

/-- The child of that run is claimed. -/
def claimsChild : Env × Command := (.tick 5 "5", .claims {} "e" 1 none)

/-- The second task of that run is settled with an output of its own. -/
def settlesSecond : Command := .settles "attempt-7" "lease-7" 1 1 [secondOutput]

end WorkspaceRuntime
