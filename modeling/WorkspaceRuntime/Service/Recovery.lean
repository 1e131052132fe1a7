import WorkspaceRuntime.Service.Worker

/-!
# Checkpoints and resume

A worker prepares a reboot, writes a durable checkpoint and requests the reboot; after the restart
the checkpoint authorises one resume of its exact task. `resumeAttempt` is not one transaction: the
binding reset, the claim, the attempt row and the checkpoint update commit one after the other, so
it returns the state that is left together with its answer or exception.
-/

namespace WorkspaceRuntime

open Fallible

/-- The nonce and authorisation of a recovery request. -/
structure RecoveryBody where
  nonce : String
  authorization : String
  runtimeEpoch : Int
  checkpointId : Option CheckpointId
  attemptId : Option AttemptId
  deriving DecidableEq, Repr

/-- The shape checks of a recovery request; `allowed` are the other fields it may have. -/
def recoveryBody (body : Json) (allowed : List String) : Except Err RecoveryBody := do
  let fields ← wireObject body ["nonce", "authorization", "runtime_epoch"]
    (["checkpoint_id", "attempt_id", "nonce", "authorization", "runtime_epoch"] ++ allowed)
  let nonce ← wireString fields "nonce"
  let authorization ← wireString fields "authorization"
  let runtimeEpoch ← wireInteger fields "runtime_epoch" true
  let checkpointId ← optionalString fields "checkpoint_id"
  let attemptId ← optionalString fields "attempt_id"
  return { nonce, authorization, runtimeEpoch, checkpointId, attemptId }

variable {env : Env} {s : State}

namespace State

/-- `_reboot_authorized` for the attempt; `expected` is the nonce of the checkpoint. -/
def rebootAuthorized (s : State) (a : AttemptId) (nonce authorization : String)
    (expected : Option String) (allowConsumed : Bool) (now : Time) : Except Err String := do
  let row := s.attempts.lookup a
  let stored ← orThrow (row.bind (·.recoveryNonce))
    (.validation "prepare_reboot is required before recovery")
  require (allowConsumed = true ∨ ∀ r ∈ row, r.recoveryNonceUsed = false)
    (.conflict "recovery authorization has already been consumed")
  require (∀ deadline ∈ row.bind (·.recoveryNonceExpiresAt), now < deadline)
    (.validation "recovery authorization has expired")
  require (nonce = stored ∧ authorization = stored ∧ ∀ e ∈ expected, e = stored)
    (.validation "recovery nonce authorization is required")
  return stored

/-- The latest checkpoint of an attempt. -/
def latestCheckpoint (s : State) (a : AttemptId) : Option (CheckpointId × RecoveryCheckpoint) :=
  ((s.checkpoints.entries.filter fun e => e.2.attemptId = a).insertionSort
    fun x y => y.2.createdAt ≤ x.2.createdAt).head?

/-- `_checkpoint_row`. -/
def checkpointRow (s : State) (checkpoint : Option CheckpointId) (attempt : Option AttemptId) :
    Except Err (CheckpointId × RecoveryCheckpoint) := do
  let missing := Err.notFound "recovery checkpoint not found"
  let found ← match checkpoint with
    | some c => do
      let row ← orThrow (s.checkpoints.lookup c) missing
      require (∀ a ∈ attempt, row.attemptId = a)
        (.lease "checkpoint is bound to a different attempt")
      pure (c, row)
    | none => orThrow (attempt.bind s.latestCheckpoint) missing
  let row := found.2
  require (∃ x ∈ s.attempts.lookup row.attemptId, x.taskId = row.taskId ∧
      x.executorId = row.executorId ∧ x.leaseId = row.leaseId ∧ x.fence = row.fence)
    (.conflict "recovery checkpoint identity is inconsistent")
  return found

/-- `prepare_reboot`: a nonce that is still good is handed out again. -/
def prepareReboot (env : Env) (s : State) (access : Access) (value : Json) : Except Err State := do
  let fields ← wireObject value ["attempt_id", "lease_id", "fence", "runtime_epoch"]
    ["attempt_id", "lease_id", "fence", "runtime_epoch"]
  let a ← wireString fields "attempt_id"
  let lease ← leaseBody fields
  access.attemptIdentity
  let row ← s.presentedAttempt a
  s.validateAttemptLease row lease env.now
  let reusable := row.recoveryNonce.isSome && !row.recoveryNonceUsed
    && row.recoveryNonceExpiresAt.all (env.now < ·)
  return if reusable then s else
    { s with attempts := s.attempts.modify a fun r =>
        { r with recoveryNonce := some env.newNonce
                 recoveryNonceExpiresAt := some (env.now + 300 * 1000)
                 recoveryNonceUsed := false } }

/-- `checkpoint_attempt`. `digest` names the checkpoint's bytes and `stored` is the outcome of their
size check and write, or of their comparison with the checkpoint that the nonce already has. -/
def checkpointAttempt (env : Env) (s : State) (access : Access) (a : AttemptId) (value : Json)
    (digest : String) (stored : Except Err Unit) : Except Err State := do
  let fields ← wireObject value ["lease_id", "fence", "nonce", "authorization", "runtime_epoch"]
    ["lease_id", "fence", "nonce", "authorization", "runtime_epoch", "checkpoint", "state"]
  let lease ← leaseBody fields
  let nonce ← wireString fields "nonce"
  let authorization ← wireString fields "authorization"
  access.attemptIdentity
  let row ← s.presentedAttempt a
  s.validateAttemptLease row lease env.now
  let nonce ← s.rebootAuthorized a nonce authorization none false env.now
  stored
  if s.checkpoints.entries.any fun e => e.2.attemptId = a && e.2.nonce = nonce then
    return s
  else
    require (∀ e ∈ s.checkpoints.entries, e.2.nonce ≠ nonce) (.integrity "recovery_checkpoints")
    let checkpoints ← orThrow (s.checkpoints.insertNew env.newCheckpoint
      { attemptId := a, taskId := row.taskId, executorId := row.executorId,
        runtimeEpoch := s.currentRuntimeEpoch, leaseId := row.leaseId, fence := row.fence, nonce,
        digest, state := .durable, createdAt := env.now })
      (.integrity "recovery_checkpoints")
    return { s with checkpoints }

/-- The first transaction of `request_reboot`: the authorisation is consumed. `intact` is the
outcome of the checks on the command and the checkpoint's bytes. -/
def requestReboot (env : Env) (s : State) (access : Access) (value : Json)
    (intact : Except Err Unit) : Except Err State := do
  let body ← recoveryBody value ["command"]
  let _ ← s.validateRuntimeEpoch (some body.runtimeEpoch) none true
  let (c, row) ← s.checkpointRow body.checkpointId body.attemptId
  access.attemptIdentity
  if row.state = .executed ∨ row.state = .resumed then
    let _ ← s.rebootAuthorized row.attemptId body.nonce body.authorization (some row.nonce) true
      env.now
    return s
  else
    let _ ← s.rebootAuthorized row.attemptId body.nonce body.authorization (some row.nonce) false
      env.now
    require (row.runtimeEpoch = s.currentRuntimeEpoch)
      (.lease "reboot checkpoint belongs to a stale runtime epoch")
    let attempt ← s.presentedAttempt row.attemptId
    s.validateAttemptLease attempt
      { leaseId := row.leaseId, fence := row.fence, runtimeEpoch := body.runtimeEpoch } env.now
    intact
    require (row.state = .durable) (.conflict "reboot has already been requested")
    return { s with
      attempts := s.attempts.modify row.attemptId fun r => { r with recoveryNonceUsed := true }
      checkpoints := s.checkpoints.modify c fun x => { x with state := .rebootRequested } }

/-- The part of `request_reboot` before its first transaction: the checkpoint for which the executor
is invoked after the transaction, and none when a completed request is replayed. -/
def rebootPlan (env : Env) (s : State) (access : Access) (value : Json) (intact : Except Err Unit) :
    Except Err (Option (CheckpointId × RecoveryCheckpoint)) := do
  let body ← recoveryBody value ["command"]
  let _ ← s.validateRuntimeEpoch (some body.runtimeEpoch) none true
  let (c, row) ← s.checkpointRow body.checkpointId body.attemptId
  access.attemptIdentity
  if row.state = .executed ∨ row.state = .resumed then
    let _ ← s.rebootAuthorized row.attemptId body.nonce body.authorization (some row.nonce) true
      env.now
    return none
  else
    let _ ← s.rebootAuthorized row.attemptId body.nonce body.authorization (some row.nonce) false
      env.now
    require (row.runtimeEpoch = s.currentRuntimeEpoch)
      (.lease "reboot checkpoint belongs to a stale runtime epoch")
    let attempt ← s.presentedAttempt row.attemptId
    s.validateAttemptLease attempt
      { leaseId := row.leaseId, fence := row.fence, runtimeEpoch := body.runtimeEpoch } env.now
    intact
    require (row.state = .durable) (.conflict "reboot has already been requested")
    return some (c, row)

/-- What `request_reboot` commits, by what it has decided. -/
def claimReboot (s : State) : Option (CheckpointId × RecoveryCheckpoint) → State
  | none => s
  | some (c, row) => { s with
      attempts := s.attempts.modify row.attemptId fun r => { r with recoveryNonceUsed := true }
      checkpoints := s.checkpoints.modify c fun x => { x with state := .rebootRequested } }

theorem requestReboot_eq (access : Access) (value : Json) (intact : Except Err Unit) :
    s.requestReboot env access value intact =
      s.claimReboot <$> s.rebootPlan env access value intact := by
  simp only [requestReboot, rebootPlan, map_bind]
  refine bind_congr fun body => bind_congr fun _ => bind_congr fun found => bind_congr fun _ => ?_
  split <;> simp only [map_bind, map_pure, claimReboot]

/-- The second transaction of `request_reboot`, after the reboot executor has answered. -/
def finishReboot (s : State) (c : CheckpointId) (executed : Bool) : State :=
  { s with checkpoints := s.checkpoints.modify c fun x =>
      if x.state = .rebootRequested then
        { x with state := if executed then .executed else .executorFailed }
      else x }

end State

/-! ## Resume -/

/-- A resume request. `intact` is the outcome of reading the checkpoint's bytes. -/
structure ResumeRequest where
  body : Json
  access : Access := {}
  intact : Except Err Unit := .ok ()

/-- What `resume_attempt` answers. -/
inductive ResumeReply where
  /-- The checkpoint had been resumed before. -/
  | replayed (attempt : AttemptId)
  | resumed (attempt : AttemptId)
  deriving DecidableEq, Repr

/-- What the checks of `resume_attempt` decide. -/
inductive ResumePlan where
  | replay (attempt : AttemptId) (task : TaskId)
  | proceed (checkpoint : CheckpointId) (row : RecoveryCheckpoint) (binding : Option BindingView)
      (placement : Option Placement) (epoch : Nat)
  deriving DecidableEq

/-- The three checkpoint states that a resume may start from. -/
def CheckpointState.resumable : CheckpointState → Bool
  | .recovered | .rebootRequested | .executed => true
  | .durable | .executorFailed | .resumed => false

namespace State

/-- The placement checks of `resume_attempt` on a targeted task. -/
def checkResumePlacement (s : State) (t : TaskId) (binding : Option BindingView)
    (placement : Option Placement) : Except Err Unit :=
  match binding with
  | none => .ok ()
  | some view => do
    let p ← orThrow placement (.authorization "worker credential has no execution placement")
    require (executionPlacementMatches view.row.selected p)
      (.authorization "worker credential placement cannot resume this task")
    require (s.qualificationMatches t p)
      (.authorization "worker credential qualification cannot resume this task")

/-- The attempt that a checkpoint's receipt names, when the checkpoint is resumed. -/
def resumedAttempt (s : State) (row : RecoveryCheckpoint) : Option (AttemptId × Attempt) :=
  if row.state = .resumed then
    row.resumedAs.bind fun a => (s.attempts.lookup a).map fun x => (a, x)
  else none

/-- The checks of `resume_attempt` before it writes. -/
def resumeChecks (env : Env) (s : State) (r : ResumeRequest) : Except Err ResumePlan := do
  r.access.localClaim
  let body ← recoveryBody r.body []
  let epoch ← s.validateRuntimeEpoch (some body.runtimeEpoch) none true
  let (c, row) ← s.checkpointRow body.checkpointId body.attemptId
  r.access.attemptIdentity
  let _ ← s.rebootAuthorized row.attemptId body.nonce body.authorization (some row.nonce) true
    env.now
  match s.resumedAttempt row with
  | some (a, attempt) =>
    let _ ← s.getTask attempt.taskId
    return .replay a attempt.taskId
  | none =>
    require (r.access.draining = false) (.conflict "remote drain blocks fresh checkpoint resume")
    require row.state.resumable (.conflict "checkpoint is not ready for resume")
    r.intact
    let binding ← s.executionBinding row.taskId
    let placement ← r.access.placement
    s.checkResumePlacement row.taskId binding placement
    return .proceed c row binding placement epoch

/-- The first commit of a resume: the binding is reset before the claim is known. -/
def resumeReset (env : Env) (s : State) (t : TaskId) (binding : Option BindingView) (epoch : Nat) :
    Except Err State :=
  if binding.isSome then s.resetExecutionAttempt t epoch env.now else .ok s

/-- The last commit of a resume. -/
def markResumed (s : State) (c : CheckpointId) (a : AttemptId) : State :=
  { s with checkpoints := s.checkpoints.modify c fun x =>
      if x.state.resumable then { x with state := .resumed, resumedAs := some a } else x }

/-- The third and fourth commit of a resume, once the task is claimed: the attempt row with its
binding, and the checkpoint. -/
def resumeClaimed (env : Env) (s : State) (c : CheckpointId) (row : RecoveryCheckpoint)
    (task : Task) (placement : Option Placement) (epoch : Nat) :
    State × Except Err ResumeReply :=
  match s.startAttempt env row.taskId task env.newLease row.executorId epoch placement with
  | .error e => (s, .error e)
  | .ok started =>
    let marked := started.markResumed c env.newAttempt
    match marked.getTask row.taskId with
    | .error e => (marked, .error e)
    | .ok _ => (marked, .ok (.resumed env.newAttempt))

/-- `resume_attempt` after its checks. -/
def resumeProceed (env : Env) (s : State) (c : CheckpointId) (row : RecoveryCheckpoint)
    (binding : Option BindingView) (placement : Option Placement) (epoch : Nat) :
    State × Except Err ResumeReply :=
  match s.resumeReset env row.taskId binding epoch with
  | .error e => (s, .error e)
  | .ok reset =>
    match reset.claimTask env row.taskId row.executorId env.newLease epoch true with
    | .error e => (reset, .error e)
    | .ok (claimed, task) =>
      if task.status ≠ .running then
        (claimed, .error (.conflict "checkpoint task is not queued for resume"))
      else claimed.resumeClaimed env c row task placement epoch

/-- The commits of `resume_attempt` after its checks, in order: the reset of the binding, the claim,
the attempt row with its binding, and the checkpoint. -/
def resumeCommits (env : Env) (s : State) (c : CheckpointId) (row : RecoveryCheckpoint)
    (binding : Option BindingView) (placement : Option Placement) (epoch : Nat) : List State :=
  match s.resumeReset env row.taskId binding epoch with
  | .error _ => []
  | .ok reset => reset ::
    match reset.claimTask env row.taskId row.executorId env.newLease epoch true with
    | .error _ => []
    | .ok (claimed, task) => claimed ::
      if task.status ≠ .running then [] else
        match claimed.startAttempt env row.taskId task env.newLease row.executorId epoch
          placement with
        | .error _ => []
        | .ok started => [started, started.markResumed c env.newAttempt]

/-- `resume_attempt`: the state it leaves, and its answer or exception. -/
def resumeAttempt (env : Env) (s : State) (r : ResumeRequest) : State × Except Err ResumeReply :=
  match s.resumeChecks env r with
  | .error e => (s, .error e)
  | .ok (.replay a _) => (s, .ok (.replayed a))
  | .ok (.proceed c row binding placement epoch) =>
    s.resumeProceed env c row binding placement epoch

/-- A resume leaves the state of its last commit. -/
theorem resumeProceed_state (c : CheckpointId) (row : RecoveryCheckpoint)
    (binding : Option BindingView) (placement : Option Placement) (epoch : Nat) :
    (s.resumeProceed env c row binding placement epoch).1 =
      (s.resumeCommits env c row binding placement epoch).getLastD s := by
  unfold resumeProceed resumeCommits
  split
  · rfl
  split
  · rfl
  split
  · rfl
  unfold resumeClaimed
  split
  · rfl
  dsimp only
  split <;> rfl

end State

end WorkspaceRuntime
