import WorkspaceRuntime.System

/-!
# The session of the database

Only `begin_runtime_session` writes the row of `runtime_lifecycle`: every other command leaves the
epoch and the boot id as they are. A new session has an epoch above the stored one and above the
floor that it is given. The recovery checkpoints are written by the recovery commands only.
-/

namespace WorkspaceRuntime

open Fallible State

variable {env : Env} {now : Time} {s s' : State} {t : TaskId} {x : Except Err State} {α : Type}

/-- The row of `runtime_lifecycle` is the same. -/
def State.SameSession (s s' : State) : Prop := s'.lifecycle = s.lifecycle

theorem State.SameSession.trans {s₁ s₂ s₃ : State} (h : s₁.SameSession s₂) (h' : s₂.SameSession s₃) :
    s₁.SameSession s₃ :=
  Eq.trans h' h

theorem State.SameSession.epoch (h : s.SameSession s') :
    s'.currentRuntimeEpoch = s.currentRuntimeEpoch :=
  congrArg Lifecycle.runtimeEpoch h

/-- The session and the recovery checkpoints are the same. -/
def State.SameRecords (s s' : State) : Prop :=
  (s'.lifecycle, s'.checkpoints) = (s.lifecycle, s.checkpoints)

theorem State.SameRecords.refl (s : State) : s.SameRecords s := rfl

theorem State.SameRecords.trans {s₁ s₂ s₃ : State} (h : s₁.SameRecords s₂) (h' : s₂.SameRecords s₃) :
    s₁.SameRecords s₃ :=
  Eq.trans h' h

theorem State.SameRecords.session (h : s.SameRecords s') : s.SameSession s' := congrArg Prod.fst h

theorem State.SameRecords.checkpoints (h : s.SameRecords s') : s'.checkpoints = s.checkpoints :=
  congrArg Prod.snd h

/-- The computation keeps the session and the checkpoints. -/
abbrev State.Steady (s : State) (x : Except Err State) : Prop := Returns s.SameRecords x

/-- The computation keeps the session and the checkpoints, and answers something. -/
abbrev State.SteadyWith {α : Type} (s : State) (x : Except Err (State × α)) : Prop :=
  Returns (fun r => s.SameRecords r.1) x

theorem State.Steady.after (hx : s'.Steady x) (h : s.SameRecords s') :
    s.Steady x :=
  hx.mono fun _ => h.trans

theorem State.SteadyWith.after {x : Except Err (State × α)} (hx : s'.SteadyWith x)
    (h : s.SameRecords s') : s.SteadyWith x :=
  hx.mono fun _ => h.trans

/-- A computation that keeps both, at the end of a command that has kept them and then answers. -/
theorem State.Steady.answers {f : State → α} (hx : s'.Steady x) (h : s.SameRecords s') :
    s.SteadyWith (do let s ← x; return (s, f s)) :=
  (hx.after h).bind fun _ h => returns_ok h

theorem State.steady_of_outside (h : ∀ {s'}, x = .ok s' →
    s'.outside = s.outside) : s.Steady x :=
  fun s' hx => show (s'.outside.lifecycle, s'.outside.checkpoints) =
    (s.outside.lifecycle, s.outside.checkpoints) by rw [h hx]

theorem State.steady_of_background (h : ∀ {s'}, x = .ok s' → s.Background s') : s.Steady x :=
  steady_of_outside fun hx => (h hx).outside

theorem State.steady_foldlM {round : State → α → Except Err State}
    (hround : ∀ (s : State) a, s.Steady (round s a)) (l : List α) : s.Steady (l.foldlM round s) :=
  fun _ h => foldlM_rel (R := SameRecords) .refl (fun {_ _ _} => .trans)
    (fun a _ {s₁ s₂} => hround s₁ a s₂) h

namespace State

/-! ## Background work -/

theorem steady_refreshContinuations (p : TaskId) :
    s.Steady (s.refreshContinuationsForPredecessor p now) :=
  steady_of_background background_refreshContinuations

theorem steady_admitContinuation : s.Steady (s.admitContinuation t now) :=
  steady_of_background background_admitContinuation

variable {attempt : Option AttemptId} {epoch : Nat} {kind : CommandKind} {request : RequestHash}
  {key : Option String} {r : RunId} {task : Task} {create : TaskCreation}
  {identity : AdmissionIdentity} {predecessors : List TaskId} {access : Access} {a : AttemptId}
  {supplied : Option Int} {executor : ExecutorId} {lease : LeaseId} {placement : Option Placement}
  {value : Json} {fence : Int} {selected : Option (List TaskId)}

theorem steady_containDelegatedChildren :
    s.Steady (s.containDelegatedChildren t attempt now) :=
  steady_of_background background_containDelegatedChildren

theorem steady_reconcileRuntimeAttempt :
    s.Steady (s.reconcileRuntimeAttempt t attempt now) :=
  steady_of_background background_reconcileRuntimeAttempt

theorem steady_reapExpiredLeases : s.Steady (s.reapExpiredLeases now) :=
  steady_of_outside outside_reapExpiredLeases

theorem steady_resetExecutionAttempt :
    s.Steady (s.resetExecutionAttempt t epoch now) :=
  returns_after fun _ => returns_ok rfl

theorem steady_retireTerminalSpecs : s.Steady (s.retireTerminalSpecs env) :=
  returns_after fun _ => returns_ok rfl

/-! ## Receipts -/

theorem steady_commandRecord {aggregate key : String} :
    s.Steady (s.commandRecord kind aggregate key request now) :=
  returns_after fun _ => returns_ok rfl

theorem steady_sessionRecord {aggregate : String} :
    s.Steady (s.sessionRecord kind aggregate key request now) := by
  unfold sessionRecord
  split
  · exact returns_ok rfl
  · exact returns_after fun _ => returns_ok rfl

theorem steady_recordRun : s.Steady (s.recordRun kind r key request now) := by
  unfold recordRun
  split
  · exact steady_commandRecord
  · exact returns_ok rfl

/-! ## Admission -/

theorem steady_insertTask {run : Run} : s.Steady (s.insertTask env run task) := by
  refine returns_after fun _ => returns_after fun _ => ?_
  unfold insertBinding
  split
  · exact returns_ok rfl
  · exact returns_after fun _ => returns_ok rfl

theorem steady_insertDependencies (l : List TaskId) :
    ∀ {s : State} (ordinal : Nat), s.Steady (s.insertDependencies t ordinal l) := by
  induction l with
  | nil => exact fun _ => returns_ok rfl
  | cons p ps ih => exact fun ordinal => returns_after fun _ => ih (ordinal + 1)

theorem steady_admitNew {toolchain : Option String} :
    s.SteadyWith (s.admitNew env create identity predecessors toolchain) := by
  iterate 4 refine returns_after fun _ => ?_
  have hswept : s.Steady (s.retireIfDue env) :=
    returns_ite steady_retireTerminalSpecs (returns_ok rfl)
  refine hswept.bind fun swept hswept => ?_
  dsimp only
  refine Returns.bind (Steady.after steady_insertTask (by exact hswept)) fun inserted hinserted => ?_
  refine Returns.bind (Steady.after (steady_insertDependencies _ 0) (by exact hinserted))
    fun linked hlinked => ?_
  have htried : linked.Steady (linked.tryLinked env.newTask predecessors env.now) :=
    returns_ite (returns_ok rfl) steady_admitContinuation
  refine (htried.after hlinked).bind fun tried htried => returns_after fun _ => returns_ok ?_
  dsimp only
  split <;> exact htried

theorem steady_admitOrAttach :
    s.SteadyWith (s.admitOrAttach env create identity predecessors) := by
  unfold admitOrAttach
  split
  · exact steady_admitNew
  · refine returns_after fun _ => returns_after fun candidate => ?_
    split
    · exact returns_after fun _ => returns_ok rfl
    · exact steady_admitNew

theorem steady_replayRun {run : RunId × Run} {key : String} :
    s.SteadyWith (s.replayRun run identity key now) := by
  refine returns_after fun _ => returns_after fun _ => ?_
  dsimp only
  split
  · refine returns_ite (returns_ite ?_ ?_) ?_ <;> exact returns_after fun _ => returns_ok rfl
  · exact returns_after fun _ => returns_ok rfl

theorem steady_replayAttached {receipt : Receipt} :
    s.SteadyWith (s.replayAttached receipt identity now) := by
  refine returns_after fun _ => ?_
  dsimp only
  split
  · exact returns_after fun _ => returns_ok rfl
  · exact returns_after fun _ => returns_after fun _ => returns_ok rfl

theorem steady_admitTask {request facts : Option Json} :
    s.SteadyWith (s.admitTask env create request facts) := by
  refine returns_after fun _ => ?_
  dsimp only
  split
  · exact steady_admitOrAttach
  · split
    · exact steady_replayRun
    · exact steady_replayAttached
    · exact steady_admitOrAttach

theorem sameRecords_createTask (create : TaskCreation) :
    s.SameRecords (s.createTask env create).1 := by
  unfold createTask
  split
  next => rfl
  next request facts hchecked =>
    dsimp only
    cases hadmitted : (s.publishSnapshots create.project create.published).admitTask env create
        request facts with
    | ok r =>
      have hsame : (s.publishSnapshots create.project create.published).SameRecords r.1 :=
        steady_admitTask r hadmitted
      exact hsame
    | error e =>
      dsimp only
      split <;> rfl

theorem sameRecords_submitTask (create : TaskCreation) (hostOwned : Bool)
    (lineage : Option Lineage) : s.SameRecords (s.submitTask env create hostOwned lineage).1 := by
  unfold submitTask
  split
  · rfl
  · exact sameRecords_createTask _

theorem steady_inTransaction {r : State × Except Err α} (h : s.SameRecords r.1) :
    s.SteadyWith (inTransaction r) := by
  obtain ⟨state, answer⟩ := r
  cases answer with
  | error e => exact returns_error e
  | ok a => exact returns_ok h

theorem steady_admitDelegatedChild {r : ChildRequest} :
    s.SteadyWith (s.admitDelegatedChild env r) := by
  iterate 6 refine returns_after fun _ => ?_
  exact steady_inTransaction (sameRecords_submitTask ..)

theorem steady_issueChildAuthority {lease : LeaseBody}
    {registered : Except Err (Json × List String)} :
    s.Steady (s.issueChildAuthority env access a lease registered) := by
  iterate 6 refine returns_after fun _ => ?_
  exact returns_ok rfl

/-! ## Executors -/

theorem steady_registerCapability {capability : CapabilityId} {row : Capability} :
    s.Steady (s.registerCapability capability row) :=
  returns_after fun _ => returns_ok rfl

theorem steady_registerDescriptor (s : State) (value : Json) :
    s.Steady (s.registerDescriptor value) := by
  unfold registerDescriptor
  split
  · exact returns_ok rfl
  · refine returns_after fun _ => ?_
    split
    · exact returns_ok rfl
    · exact returns_after fun _ => returns_after fun _ => steady_registerCapability

theorem steady_registerId (s : State) (value : Json) : s.Steady (s.registerId env value) :=
  returns_after fun _ => returns_ite (returns_ok rfl) steady_registerCapability

theorem steady_upsertExecutor {reg : ExecutorRegistration} :
    s.Steady (s.upsertExecutor env reg supplied) := by
  iterate 5 refine returns_after fun _ => ?_
  refine Returns.bind (steady_foldlM steady_registerDescriptor _) fun described hdescribed => ?_
  refine Returns.bind (Steady.after (steady_foldlM steady_registerId _) hdescribed)
    fun registered hregistered => ?_
  exact returns_after fun _ => returns_after fun _ => returns_ok hregistered

theorem steady_registerExecutor {r : RegisterRequest} : s.SteadyWith (s.registerExecutor env r) := by
  iterate 6 refine returns_after fun _ => ?_
  refine returns_ite (returns_ok rfl) ?_
  refine returns_after fun _ => Returns.bind steady_upsertExecutor fun registered hregistered => ?_
  exact Steady.answers steady_sessionRecord hregistered

theorem steady_setExecutorReadiness {ready : Bool} :
    s.Steady (s.setExecutorReadiness env executor ready supplied) :=
  returns_after fun _ => returns_after fun _ => returns_ok rfl

theorem steady_heartbeatExecutor {ready : Option Bool} :
    s.Steady (s.heartbeatExecutor env executor ready supplied) :=
  returns_after fun _ => returns_after fun _ => returns_ok rfl

/-! ## Claims -/

theorem sameRecords_reserveAll {row : Reservation} (keys : List ResourceKey) :
    ∀ {s : State}, s.SameRecords (s.reserveAll t row keys) := by
  induction keys with
  | nil => exact rfl
  | cons key keys ih => exact ih (s := reserve _ t key row)

theorem sameRecords_startClaim {spec : TaskSpec} {x : Executor} :
    s.SameRecords (s.startClaim t task spec executor x lease epoch now) := by
  refine SameRecords.trans ?_ (sameRecords_reserveAll (s.requiredResourceKeys task.capability))
  unfold stampSpec
  dsimp only
  split <;> rfl

theorem steady_claimReaped {recovery : Bool} :
    s.SteadyWith (s.claimReaped env t executor lease epoch recovery) := by
  refine returns_after fun _ => returns_after fun _ => returns_ite ?_ ?_
  · exact returns_after fun _ => returns_ok rfl
  have htried : s.Steady (s.claimDependencies t env.now) :=
    returns_ite steady_admitContinuation (returns_ok rfl)
  refine htried.bind fun tried htried => returns_ite ?_ ?_
  · exact returns_after fun _ => returns_ok htried
  iterate 6 refine returns_after fun _ => ?_
  refine returns_ok ?_
  dsimp only [claimDecided]
  split
  · exact SameRecords.trans htried sameRecords_startClaim
  · exact htried

theorem steady_claimTask {supplied : Int} {recovery : Bool} :
    s.SteadyWith (s.claimTask env t executor lease supplied recovery) :=
  returns_after fun _ => returns_after fun _ => steady_reapExpiredLeases.bind fun _ h =>
    SteadyWith.after steady_claimReaped h

theorem steady_startAttempt :
    s.Steady (s.startAttempt env t task lease executor epoch placement) := by
  refine returns_after fun attempts => ?_
  have hbound : s.SteadyWith ((({ s with attempts }).setAttempt t
      env.newAttempt).bindExecutionAttempt t env.newAttempt lease task.leaseFence executor epoch
      placement env.now) := by
    refine returns_after fun binding => ?_
    split
    · exact returns_ok rfl
    · exact returns_error _
    · exact returns_after fun _ => returns_after fun _ => returns_after fun _ => returns_ok rfl
  refine hbound.bind fun bound hbound => returns_ok ?_
  split <;> exact hbound

theorem steady_claimQueued {body : ClaimBody} :
    s.SteadyWith (s.claimQueued env access body epoch placement) := by
  refine returns_after fun selected => ?_
  split
  · exact returns_ok rfl
  refine returns_ite (returns_after fun _ => returns_ok rfl) ?_
  split
  · exact returns_after fun _ => returns_ok rfl
  refine steady_claimTask.bind fun claimed hclaimed => returns_ite (returns_ok hclaimed) ?_
  exact Steady.answers steady_startAttempt hclaimed

theorem steady_claimNext :
    s.SteadyWith (s.claimNext env access value key) := by
  iterate 6 refine returns_after fun _ => ?_
  refine returns_ite ?_ ?_
  · exact returns_after fun _ => returns_ok rfl
  refine steady_reapExpiredLeases.bind fun reaped hreaped => ?_
  refine (SteadyWith.after steady_claimQueued hreaped).bind fun claimed hclaimed => ?_
  exact Steady.answers steady_sessionRecord hclaimed

/-! ## Attempts -/

theorem steady_settleTask {w : Settlement} :
    s.Steady (s.settleTask t lease fence a w now) := by
  iterate 8 refine returns_after fun _ => ?_
  refine Returns.bind (Steady.after (steady_refreshContinuations t) (by exact rfl)) fun _ h => ?_
  exact returns_after fun _ => returns_ok h

theorem steady_settleAttempt {r : SettleRequest} : s.SteadyWith (s.settleAttempt env r) := by
  iterate 6 refine returns_after fun _ => ?_
  refine returns_ite (returns_ok rfl) ?_
  refine returns_after fun _ => returns_after fun _ => steady_settleTask.bind fun settled h => ?_
  exact Steady.answers steady_commandRecord h

theorem steady_failTask {failure : Json} :
    s.Steady (s.failTask t lease fence a failure now) := by
  refine returns_after fun _ => steady_containDelegatedChildren.bind fun contained hcontained => ?_
  refine Returns.bind (Steady.after (steady_refreshContinuations t) (by exact hcontained))
    fun _ h => ?_
  exact returns_after fun _ => returns_ok h

theorem steady_failAttempt {r : AttemptRequest} : s.SteadyWith (s.failAttempt env r) := by
  iterate 6 refine returns_after fun _ => ?_
  refine returns_ite (returns_ok rfl) ?_
  refine returns_after fun _ => returns_after fun _ => steady_failTask.bind fun failed h => ?_
  exact Steady.answers steady_commandRecord h

theorem steady_heartbeatTask {seconds : Int} :
    s.Steady (s.heartbeatTask t lease fence a seconds now) :=
  returns_after fun _ => returns_after fun _ => returns_after fun _ => returns_ok rfl

theorem steady_heartbeatAttempt {r : AttemptRequest} {progress : Except Err Unit} :
    s.SteadyWith (s.heartbeatAttempt env r progress) := by
  iterate 7 refine returns_after fun _ => ?_
  refine returns_ite (returns_ok rfl) ?_
  refine returns_after fun _ => steady_heartbeatTask.bind fun extended hextended => ?_
  refine Returns.bind (Steady.after steady_commandRecord ?_) fun _ h => returns_ok h
  split <;> exact hextended

/-! ## Tasks and runs -/

theorem steady_cancelTaskCanonical {body : Json} :
    s.SteadyWith (s.cancelTaskCanonical env t body key) := by
  iterate 4 refine returns_after fun _ => ?_
  refine returns_ite (returns_ok rfl) (returns_after fun _ => ?_)
  refine Returns.bind (steady_of_background (background_cancelTask _)) fun cancelled h => ?_
  exact Steady.answers steady_commandRecord h

theorem steady_retryTaskRows : s.Steady (s.retryTaskRows env t task) := by
  refine returns_after fun _ => ?_
  refine Returns.bind (Steady.after steady_resetExecutionAttempt (by exact rfl)) fun reset h => ?_
  refine Returns.bind (Steady.after (steady_refreshContinuations t) (by exact h)) fun _ h => ?_
  exact returns_after fun _ => returns_ok h

theorem steady_retryTask {body : Json} :
    s.SteadyWith (s.retryTask env access t body key) := by
  iterate 4 refine returns_after fun _ => ?_
  refine returns_ite (returns_ok rfl) ?_
  iterate 4 refine returns_after fun _ => ?_
  refine steady_retryTaskRows.bind fun retried h => ?_
  exact Steady.answers steady_commandRecord h

theorem steady_cancelRunTask (s : State) (child : TaskId × Task) :
    s.Steady (s.cancelRunTask now child) := by
  refine returns_ite (returns_ok rfl) ?_
  refine steady_containDelegatedChildren.bind fun contained hcontained => ?_
  refine returns_after fun binding => returns_ite (returns_ok hcontained) ?_
  refine Returns.bind (Steady.after steady_reconcileRuntimeAttempt hcontained) fun reconciled h => ?_
  refine Steady.after (steady_refreshContinuations _) ?_
  unfold cancelRunTaskRows
  dsimp only
  split <;> exact h

theorem steady_cancelRun : s.Steady (s.cancelRun r now) :=
  returns_after fun _ => returns_after fun _ =>
    (steady_foldlM steady_cancelRunTask _).bind fun _ h => returns_ok h

theorem steady_cancelRunCommand :
    s.SteadyWith (s.cancelRunCommand env r key) := by
  refine returns_after fun replayed => returns_ite (returns_ok rfl) ?_
  refine steady_cancelRun.bind fun cancelled h => ?_
  exact Steady.answers steady_recordRun h

theorem steady_retryRunTask (s : State) (child : TaskId × Task) :
    s.Steady (s.retryRunTask now child) := by
  refine returns_after fun _ => ?_
  refine Returns.bind (Steady.after steady_resetExecutionAttempt (by exact rfl)) fun reset h => ?_
  exact Steady.after (steady_refreshContinuations _) h

theorem steady_retryRun :
    s.Steady (s.retryRun env r selected) := by
  iterate 8 refine returns_after fun _ => ?_
  exact (steady_foldlM steady_retryRunTask _).bind fun _ h => returns_ok h

theorem steady_retryRunCommand : s.SteadyWith (s.retryRunCommand env r selected key) := by
  refine returns_after fun replayed => returns_ite (returns_ok rfl) ?_
  refine steady_retryRun.bind fun retried h => ?_
  exact Steady.answers steady_recordRun h

theorem steady_finalizeEntry {proof : String} (s : State) (entry : CapturedEntry) :
    s.Steady (s.finalizeEntry proof now entry) := by
  refine returns_after fun _ => Steady.after (steady_refreshContinuations _) ?_
  split <;> rfl

theorem steady_finalizeOwned {captured : Captured} {proof : String} :
    s.Steady (s.finalizeOwnedLocalCancellations captured proof now) :=
  returns_after fun _ => returns_ite (returns_ok rfl) (steady_foldlM steady_finalizeEntry _)

theorem steady_claimMediaImportTask : s.SteadyWith (s.claimMediaImportTask env t) := by
  refine steady_upsertExecutor.bind fun registered hregistered => ?_
  refine (SteadyWith.after steady_claimTask hregistered).bind fun claimed hclaimed => ?_
  exact returns_after fun _ => returns_after fun _ => returns_ok hclaimed

theorem steady_settleMediaImport {settle : SettleRequest} :
    s.Steady (s.settleMediaImport env create settle) := by
  refine Returns.bind (steady_inTransaction (sameRecords_submitTask ..)) fun created hcreated => ?_
  refine (SteadyWith.after steady_claimMediaImportTask hcreated).bind fun claimed hclaimed => ?_
  exact (SteadyWith.after steady_settleAttempt hclaimed).bind fun _ h => returns_ok h

/-! ## Recovery -/

theorem steady_prepareReboot :
    s.Steady (s.prepareReboot env access value) := by
  iterate 6 refine returns_after fun _ => ?_
  refine returns_ok ?_
  split <;> rfl

theorem sameSession_checkpointAttempt {digest : String} {stored : Except Err Unit} :
    Returns s.SameSession (s.checkpointAttempt env access a value digest stored) := by
  iterate 9 refine returns_after fun _ => ?_
  refine returns_ite (returns_ok rfl) ?_
  exact returns_after fun _ => returns_after fun _ => returns_ok rfl

theorem sameSession_requestReboot {intact : Except Err Unit} :
    Returns s.SameSession (s.requestReboot env access value intact) := by
  iterate 4 refine returns_after fun _ => ?_
  refine returns_ite (returns_after fun _ => returns_ok rfl) ?_
  iterate 6 refine returns_after fun _ => ?_
  exact returns_ok rfl

/-- A resume commits several times; each commit keeps the session. -/
theorem sameSession_resumeAttempt {r : ResumeRequest} :
    s.SameSession (s.resumeAttempt env r).1 := by
  unfold resumeAttempt
  split
  · rfl
  · rfl
  unfold resumeProceed
  split
  · rfl
  next reset hreset =>
    have hreset := returns_ite steady_resetExecutionAttempt (returns_ok rfl) reset hreset
    split
    · exact hreset.session
    next claimed task hclaimed =>
      have hclaimed := SameRecords.trans hreset (steady_claimTask _ hclaimed)
      split
      · exact hclaimed.session
      unfold resumeClaimed
      split
      · exact hclaimed.session
      next started hstarted =>
        have hstarted := (SameRecords.trans hclaimed (steady_startAttempt _ hstarted)).session
        dsimp only
        split <;> exact hstarted

theorem sameRecords_fenceChildren {parent : TaskId} (children : List (TaskId × Task)) :
    ∀ {s : State}, s.SameRecords (children.foldl (fenceChild parent now) s) := by
  induction children with
  | nil => exact rfl
  | cons child children ih =>
    intro s
    have hchild : s.SameRecords (s.fenceChild parent now child) := by
      unfold fenceChild
      dsimp only
      split <;> rfl
    exact hchild.trans ih

theorem steady_recoverTaskPlacement {r : PlacementRecoveryRequest} :
    s.SteadyWith (s.recoverTaskPlacement env t r) := by
  iterate 5 refine returns_after fun _ => ?_
  refine returns_after fun task => returns_after fun _ => returns_ite (returns_ok rfl) ?_
  refine returns_after fun decision => returns_after fun children => returns_after fun _ => ?_
  have hrows : s.Steady (s.recoverPlacementRows t task children decision r.activation env.now) := by
    refine returns_after fun _ => returns_after fun _ => returns_ok ?_
    split <;> exact sameRecords_fenceChildren children
  refine hrows.bind fun recovered h => ?_
  exact Steady.answers steady_commandRecord h

theorem steady_revokeRemoteActivation {activation : String} {current : Except Err Unit} :
    s.Steady (s.revokeRemoteActivation env t activation current) :=
  returns_after fun _ => returns_after fun _ =>
    Steady.after steady_containDelegatedChildren (by exact rfl)

end State

/-! ## Commands -/

theorem State.Steady.committed (hx : s.Steady x) :
    s.SameRecords (committed s id x) := by
  cases x with
  | ok s' => exact hx s' rfl
  | error e => rfl

theorem State.SteadyWith.committed {x : Except Err (State × α)} (hx : s.SteadyWith x) :
    s.SameRecords (committed s Prod.fst x) := by
  cases x with
  | ok r => exact hx r rfl
  | error e => rfl

/-- The commands that write the session or the recovery checkpoints. -/
def Command.recovers : Command → Bool
  | beginRuntimeSession .. | checkpointAttempt .. | requestReboot .. | finishReboot ..
  | resumeAttempt _ => true
  | _ => false

/-- Every other command keeps both. -/
theorem Command.sameRecords_next (c : Command) (hc : c.recovers = false) :
    s.SameRecords (c.next env s) := by
  cases c with
  | createProject | ingest => rfl
  | registerCapability => exact steady_registerCapability.committed
  | registerExecutor => exact steady_registerExecutor.committed
  | setExecutorReadiness => exact steady_setExecutorReadiness.committed
  | heartbeatExecutor => exact steady_heartbeatExecutor.committed
  | submitTask => exact sameRecords_submitTask ..
  | admitDelegatedChild => exact steady_admitDelegatedChild.committed
  | issueChildAuthority => exact steady_issueChildAuthority.committed
  | claimNext => exact steady_claimNext.committed
  | heartbeatAttempt => exact steady_heartbeatAttempt.committed
  | settleAttempt => exact steady_settleAttempt.committed
  | failAttempt => exact steady_failAttempt.committed
  | cancelTask => exact steady_cancelTaskCanonical.committed
  | cancelRun => exact steady_cancelRunCommand.committed
  | retryTask => exact steady_retryTask.committed
  | retryRun => exact steady_retryRunCommand.committed
  | reapOverdueLeases =>
    exact Steady.committed (returns_ite (returns_ok rfl) steady_reapExpiredLeases)
  | prepareReboot => exact steady_prepareReboot.committed
  | finalizeOwned => exact steady_finalizeOwned.committed
  | recoverTaskPlacement => exact steady_recoverTaskPlacement.committed
  | revokeRemoteActivation => exact steady_revokeRemoteActivation.committed
  | importMedia => exact steady_settleMediaImport.committed
  | retireTerminalSpecs => exact steady_retireTerminalSpecs.committed
  | beginRuntimeSession | checkpointAttempt | requestReboot | finishReboot | resumeAttempt =>
    simp [Command.recovers] at hc

/-- Every command other than a new session keeps the session. -/
theorem Command.sameSession_next (c : Command)
    (hc : ∀ boot floor, c ≠ .beginRuntimeSession boot floor) : s.SameSession (c.next env s) := by
  by_cases hrecovers : c.recovers = false
  · exact (c.sameRecords_next hrecovers).session
  cases c with
  | beginRuntimeSession boot floor => exact absurd rfl (hc boot floor)
  | checkpointAttempt => exact committed_of rfl sameSession_checkpointAttempt
  | requestReboot => exact committed_of rfl sameSession_requestReboot
  | finishReboot => rfl
  | resumeAttempt => exact sameSession_resumeAttempt
  | _ => exact absurd rfl hrecovers

/-! ## A new session -/

theorem State.steady_recoverInterrupted {previous : Nat} (s : State)
    (interrupted : TaskId × Task) : s.Steady (s.recoverInterrupted previous now interrupted) := by
  refine returns_after fun _ => returns_ite (returns_ok rfl) ?_
  refine steady_containDelegatedChildren.bind fun contained hcontained => ?_
  refine returns_after fun binding => returns_ite (returns_ok hcontained) ?_
  refine Returns.bind (Steady.after steady_reconcileRuntimeAttempt hcontained) fun reconciled h => ?_
  refine Returns.bind (Steady.after steady_resetExecutionAttempt (by exact h)) fun reset h => ?_
  exact returns_ok h

/-- The epoch of a new session is one more than the stored epoch or the floor. -/
theorem State.beginRuntimeSession_epoch {boot : String} {floor : Option Int}
    (h : s.beginRuntimeSession boot floor now = .ok s') :
    s'.currentRuntimeEpoch = max s.currentRuntimeEpoch (floor.getD 0).toNat + 1 := by
  simp only [beginRuntimeSession, bind_eq_ok, require_eq_ok, return_ok] at h
  obtain ⟨_, -, _, -, recovered, hloop, rfl⟩ := h
  have hsame := (steady_foldlM steady_recoverInterrupted _ recovered hloop).session.epoch
  split <;> exact hsame

end WorkspaceRuntime
