import WorkspaceRuntime.Lib.Json
import WorkspaceRuntime.Lib.Table

/-!
# The stored state of a realm

The tables of the realm database that the task commands read and write, one structure per row and
one `Table` per relation; `State` is the database. Columns that none of the modelled commands reads
are left out.

Two representation choices. A content digest of a task spec stands for the spec it names: the column
`spec_digest` is the spec itself and `task_specs` is the list of the specs that are stored, so two
digests are equal exactly when the bodies are. A time is the number of milliseconds that the ISO
text denotes.
-/

namespace WorkspaceRuntime

abbrev TaskId := String
abbrev RunId := String
abbrev AttemptId := String
abbrev LeaseId := String
abbrev ExecutorId := String
abbrev CapabilityId := String
abbrev ProjectId := String
abbrev CheckpointId := String
abbrev ResourceKey := String

/-- Milliseconds of the UTC clock. -/
abbrev Time := Int

/-! ## Errors -/

/-- The exceptions the commands raise, with their messages. -/
inductive Err where
  | validation (message : String)
  | invalidRequest (message : String)
  | conflict (message : String)
  | unavailable (message : String)
  | lease (message : String)
  | notFound (message : String)
  | authorization (message : String)
  | windowExpired (message : String)
  /-- A `KeyError`, `TypeError` or `AttributeError` of the interpreter. -/
  | keyError (key : String)
  /-- A constraint of the database. -/
  | integrity (table : String)
  /-- The interpreter's limit on nested calls. -/
  | recursion
  /-- A `DeploymentReferenceError`. -/
  | deploymentReference (message : String)
  deriving DecidableEq, Repr

/-! ## Enumerations -/

/-- The status of a task, and of a run. -/
inductive Status where
  | queued | running | cancelRequested | completed | failed | cancelled
  deriving DecidableEq, Repr

/-- Whether a status is one of `completed`, `failed` and `cancelled`. -/
def Status.terminal : Status → Bool
  | .completed | .failed | .cancelled => true
  | .queued | .running | .cancelRequested => false

/-- The text of a status, by which the database orders it. -/
def Status.text : Status → String
  | .queued => "queued"
  | .running => "running"
  | .cancelRequested => "cancel_requested"
  | .completed => "completed"
  | .failed => "failed"
  | .cancelled => "cancelled"

/-- Why a task waits. `resource` carries the sanitised key of `waiting_for_<key>`. -/
inductive WaitingReason where
  | waitingForWorker
  | waitingForExecutorFacts
  | waitingForDependencies
  | dependencyCancelled
  | dependencyFailed
  | capabilityUnavailable
  | insufficientStorage
  | runtimeRecovery
  | providerStateUnknown
  | parentPlacementRecovered
  | executionBindingMissing
  | executionBindingMismatch
  | executionQualificationMismatch
  | remoteActivationMissing
  | resource (key : String)
  deriving DecidableEq, Repr

/-- The status of an execution binding. -/
inductive BindingStatus where
  | prepared | claimed | released | stale
  deriving DecidableEq, Repr

/-- The readiness of a capability. -/
inductive CapabilityStatus where
  | ready | unavailable | unsupported | retired
  deriving DecidableEq, Repr

/-- The state of a recovery checkpoint. -/
inductive CheckpointState where
  | durable | rebootRequested | executed | executorFailed | recovered | resumed
  deriving DecidableEq, Repr

/-! ## Task specs -/

/-- The byte budget a task asks for. -/
structure StorageEstimate where
  scratchBytes : Nat
  outputBytes : Nat
  deriving DecidableEq, Repr

/-- The parent attempt a delegated child was admitted under. `policy` is what `policy_digest`
names. -/
structure Lineage where
  parentTaskId : TaskId
  parentAttemptId : AttemptId
  parentLeaseId : LeaseId
  parentFence : Nat
  runtimeEpoch : Nat
  projectId : Option ProjectId
  executorId : ExecutorId
  policy : Option Json
  deriving DecidableEq, Repr

/-- The body of a task spec. `spec` is the caller's own object. A retired spec reads as the body
without keys, which is the one with all defaults. -/
structure TaskSpec where
  inputObjectIds : List String := []
  schemaVersion : Option Json := none
  capabilityDigest : Option String := none
  spec : Option Json := none
  childDelegation : Option Json := none
  delegatedParent : Option Lineage := none
  delegationClosedAttemptId : Option AttemptId := none
  derivedInputRegistry : Option Json := none
  generationIntent : Option Json := none
  requiredFacts : Option Json := none
  storageEstimate : Option StorageEstimate := none
  /-- `_runtime_reuse_toolchain`; the outer option is whether the key is there. -/
  runtimeReuseToolchain : Option (Option String) := none
  /-- The other fields of the stored object, which only the projections of a task carry on. -/
  rest : Json.Fields := []
  deriving DecidableEq, Repr

/-! ## Rows -/

/-- A row of `tasks`; its id is the key of the table. -/
structure Task where
  runId : RunId
  capability : CapabilityId
  /-- `spec_digest`. -/
  spec : Option TaskSpec
  status : Status
  leaseToken : Option LeaseId := none
  executorId : Option ExecutorId := none
  attempt : Nat := 0
  expectedEffect : Option Json := none
  result : Option Json := none
  createdAt : Time
  updatedAt : Time
  capabilityDigest : Option String := none
  waitingReason : Option WaitingReason := none
  leaseExpiresAt : Option Time := none
  leaseFence : Nat := 0
  attemptId : Option AttemptId := none
  runtimeEpoch : Option Nat := none
  executionRequest : Option Json := none
  deriving DecidableEq, Repr

/-- A row of `runs`. -/
structure Run where
  projectId : Option ProjectId
  capability : CapabilityId
  spec : Option TaskSpec
  status : Status
  idempotencyKey : Option String
  createdAt : Time
  updatedAt : Time
  deriving DecidableEq, Repr

/-- A row of `attempts`. -/
structure Attempt where
  taskId : TaskId
  leaseId : LeaseId
  fence : Nat
  executorId : ExecutorId
  leaseExpiresAt : Time
  settled : Bool := false
  runtimeEpoch : Nat
  recoveryNonce : Option String := none
  recoveryNonceExpiresAt : Option Time := none
  recoveryNonceUsed : Bool := false
  deriving DecidableEq, Repr

/-- A row of `reservations`; the key of the table is the task and the resource key. -/
structure Reservation where
  leaseToken : LeaseId
  createdAt : Time
  releasedAt : Option Time := none
  executorId : ExecutorId
  fence : Nat
  leaseExpiresAt : Time
  runtimeEpoch : Nat
  deriving DecidableEq, Repr

/-- A placement that the worker's credential attests. -/
structure Placement where
  actual : Json
  evidenceDigest : String
  verified : Bool
  executorIncarnation : String
  deriving DecidableEq, Repr

/-- A row of `execution_bindings`; the key of the table is the task. `selected` and `placement` are
the stored `resolved_target_json`. -/
structure Binding where
  bindingId : String
  runId : RunId
  attemptId : Option AttemptId := none
  leaseId : Option LeaseId := none
  fence : Nat := 0
  executorId : Option ExecutorId := none
  sessionId : String
  runtimeEpoch : Nat
  capabilityId : CapabilityId
  selected : Json
  placement : Option Placement := none
  status : BindingStatus := .prepared
  updatedAt : Time
  deriving DecidableEq, Repr

/-- One predecessor in the snapshot of a continuation admission. -/
structure ResolvedChild where
  taskId : TaskId
  ordinal : Nat
  outputs : List Json
  deriving DecidableEq, Repr

/-- A row of `continuation_admissions`. -/
structure ContinuationAdmission where
  children : List ResolvedChild
  inputObjectIds : List String
  admittedAt : Time
  deriving DecidableEq, Repr

/-- A row of `executors`. A capability is an id or a descriptor object. -/
structure Executor where
  maxConcurrency : Nat
  resourceKeys : List ResourceKey
  capabilities : List Json
  runtimeEpoch : Nat
  ready : Bool
  lastSeenAt : Option Time
  sourceDigest : Option String := none
  dependencyDigest : Option String := none
  sourceEpoch : Option Json := none
  deriving DecidableEq, Repr

/-- A row of `capabilities`. -/
structure Capability where
  definitionDigest : String
  status : CapabilityStatus
  requiredResourceKeys : List ResourceKey
  estimatedScratchBytes : Nat
  estimatedOutputBytes : Nat
  unavailableReason : Option String
  deriving DecidableEq, Repr

/-- A row of `recovery_checkpoints`. `resumedAs` is the attempt its recovery receipt names. -/
structure RecoveryCheckpoint where
  attemptId : AttemptId
  taskId : TaskId
  executorId : ExecutorId
  runtimeEpoch : Nat
  leaseId : LeaseId
  fence : Nat
  nonce : String
  digest : String
  state : CheckpointState
  resumedAs : Option AttemptId := none
  createdAt : Time
  deriving DecidableEq, Repr

/-- An append-only placement recovery decision, with the evidence and the incarnation that its
qualification names and the binding that it supersedes. The task it is about is that of its event. -/
structure PlacementDecision where
  placementVersion : Nat
  runId : RunId
  originalTarget : Json
  previousEffectiveTarget : Json
  replacementTarget : Json
  evidenceDigest : String
  executorIncarnation : String
  taskVersion : Nat
  reason : String
  ownerActor : String
  lossEvidence : Json
  superseded : Option Binding
  createdAt : Time
  deriving DecidableEq, Repr

/-- What an event records, with the payload that later commands read. -/
inductive EventKind where
  | admitted (capability : CapabilityId)
  | continuationAdmitted (snapshot : ContinuationAdmission)
  | claimed (executorId : ExecutorId) (attempt fence : Nat)
  | executionBound (attemptId : AttemptId)
  | progress (payload : Json)
  | completed
  | failed
  /-- `task.cancelled`; the payload of a finalised owner stop is the attempt and the proof. -/
  | cancelled (ownedStop : Option (AttemptId × String))
  | cancelRequested
  | parentContained (parentTaskId : TaskId)
  | providerStateUnknown (attemptId : Option AttemptId)
  | leaseExpired (attemptId : Option AttemptId)
  /-- `task.runtime_recovered`: previous epoch, attempt, stale fence, and whether the external
  state stayed unknown. -/
  | runtimeRecovered (previousEpoch : Nat) (attemptId : Option AttemptId) (staleFence : Nat)
      (unknown : Bool)
  | retried
  | runCancelled
  | runRetried
  | placementRecovered (decision : PlacementDecision)
  | placementFenced (parentTaskId : TaskId)
  /-- `task.remote_activation_qualified`. -/
  | activationQualified (qualification : Json)
  /-- `task.remote_activation_accepted`. -/
  | activationAccepted (activationId : String)
  | activationRevoked (activationId : String)
  deriving DecidableEq, Repr

/-- A row of `events`. -/
structure Event where
  runId : RunId
  taskId : Option TaskId
  kind : EventKind
  createdAt : Time
  deriving DecidableEq, Repr

/-- The row of `runtime_lifecycle`. -/
structure Lifecycle where
  runtimeEpoch : Nat
  bootId : String
  deriving DecidableEq, Repr

/-- The kinds of commands that leave a row in an idempotency ledger. -/
inductive CommandKind where
  | taskCreate | taskCancel | taskRetry | taskClaim | taskPlacementRecover | runCancel | runRetry
  | attemptSettle | attemptFail | attemptHeartbeat | executorRegister
  deriving DecidableEq, Repr

/-- An admission as its request hash covers it. -/
structure AdmissionIdentity where
  capability : CapabilityId
  spec : TaskSpec
  executionRequest : Option Json
  project : Option ProjectId
  expectedEffect : Option Json
  capabilityDigest : Option String
  deriving DecidableEq, Repr

/-- What a request hash is taken of. -/
inductive RequestHash where
  | body (value : Json)
  | admission (identity : AdmissionIdentity)
  deriving DecidableEq, Repr

/-- A row of `command_idempotency` or of the session's replay table; `primaryStream` is the run that
a creation or an attachment names. -/
structure Receipt where
  request : RequestHash
  createdAt : Time
  primaryStream : Option RunId := none
  deriving DecidableEq, Repr

/-- The realm database. -/
structure State where
  lifecycle : Lifecycle
  projects : List ProjectId := []
  tasks : Table TaskId Task := .empty
  runs : Table RunId Run := .empty
  attempts : Table AttemptId Attempt := .empty
  reservations : Table (TaskId × ResourceKey) Reservation := .empty
  bindings : Table TaskId Binding := .empty
  /-- `task_dependencies`: continuation and ordinal to predecessor. -/
  dependencies : Table (TaskId × Nat) TaskId := .empty
  admissions : Table TaskId ContinuationAdmission := .empty
  /-- `task_specs`. -/
  specs : List TaskSpec := []
  executors : Table ExecutorId Executor := .empty
  capabilities : Table CapabilityId Capability := .empty
  checkpoints : Table CheckpointId RecoveryCheckpoint := .empty
  events : List Event := []
  /-- Digests of `objects`. -/
  objects : List String := []
  projectObjects : List (ProjectId × String) := []
  receipts : Table (CommandKind × String × String) Receipt := .empty
  /-- The session's own replay table, emptied by a restart. -/
  sessionReceipts : Table (CommandKind × String × String) Receipt := .empty
  deriving DecidableEq

end WorkspaceRuntime
