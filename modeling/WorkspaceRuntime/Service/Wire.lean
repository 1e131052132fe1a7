import WorkspaceRuntime.Store.Executor

/-!
# Request bodies, credentials and the idempotency ledger

The checks that the service makes before a command touches the task tables: the shape of the body,
what the caller's credential is allowed, and whether the command was executed before.
-/

namespace WorkspaceRuntime

open Fallible

/-! ## Bodies -/

/-- `_wire_object`. -/
def wireObject (body : Json) (required allowed : List String) : Except Err Json.Fields := do
  let fields ← orThrow body.asObj (.invalidRequest "request body must be a JSON object")
  require (∀ k ∈ required, k ∈ fields.keys) (.validation "request body is missing required fields")
  require (∀ k ∈ fields.keys, k ∈ allowed)
    (.validation "request body contains unsupported fields")
  return fields

/-- `_wire_string`. -/
def wireString (fields : Json.Fields) (field : String) : Except Err String := do
  let value ← orThrow ((fields.get field).bind Json.asStr) (.validation (field ++ " is required"))
  require (value ≠ "") (.validation (field ++ " is required"))
  return value

/-- `_wire_integer`. -/
def wireInteger (fields : Json.Fields) (field : String) (positive : Bool) : Except Err Int :=
  let shape := Err.validation
    (field ++ " must be " ++ if positive then "positive integer" else "an integer")
  match fields.get field with
  | some (.int n) => do
    require (positive = true → 1 ≤ n) shape
    return n
  | _ => .error shape

/-- A string field that may be absent or null. -/
def optionalString (fields : Json.Fields) (field : String) : Except Err (Option String) :=
  match fields.get field with
  | none | some .null => .ok none
  | some _ => some <$> wireString fields field

/-- A field whose value is not null. -/
def presentField (fields : Json.Fields) (field : String) : Option Json :=
  (fields.get field).filter fun v => decide (v ≠ .null)

/-- The lease a worker presents. -/
structure LeaseBody where
  leaseId : LeaseId
  fence : Int
  runtimeEpoch : Int
  deriving DecidableEq, Repr

/-- The lease fields of a worker's body. -/
def leaseBody (fields : Json.Fields) : Except Err LeaseBody := do
  let leaseId ← wireString fields "lease_id"
  let fence ← wireInteger fields "fence" false
  let runtimeEpoch ← wireInteger fields "runtime_epoch" true
  return { leaseId, fence, runtimeEpoch }

/-! ## Credentials -/

/-- What the read-only authorisation checks answer for this call's credential. They read the
credential store, the local claim fence and the remote activation events; each answer is either the
exception the check raises or that it passes. -/
structure Access where
  executorIdentity : Except Err Unit := .ok ()
  localClaim : Except Err Unit := .ok ()
  attemptIdentity : Except Err Unit := .ok ()
  /-- The placement that the credential's metadata attests. -/
  executionBinding : Option Json := none
  /-- The credential carries a qualified activation. -/
  qualified : Bool := false
  /-- The task needs a remote activation that the credential does not match. -/
  activationMissing : TaskId → Bool := fun _ => false
  /-- A remote drain blocks fresh work of the task. -/
  draining : Bool := false
  /-- The replay of a claim is still authorised. -/
  replay : Except Err Unit := .ok ()
  /-- The parent's delegation policy and discovery grant are valid. -/
  parentPolicy : Except Err Unit := .ok ()

/-- `_trusted_execution_placement`. -/
def Access.placement (access : Access) : Except Err (Option Placement) :=
  match access.executionBinding with
  | none | some .null => .ok none
  | some value =>
    match normalizeVerifiedExecutionPlacement value with
    | .ok placement => .ok (some placement)
    | .error _ => .error (.authorization "worker credential carries invalid execution placement")

/-- `_placement_recovery_qualification_matches`. -/
def State.qualificationMatches (s : State) (t : TaskId) (placement : Placement) : Bool :=
  match s.placementRecovery t with
  | none => true
  | some decision =>
    placement.actual = decision.replacementTarget
      && placement.evidenceDigest = decision.evidenceDigest
      && placement.executorIncarnation = decision.executorIncarnation

/-! ## The idempotency ledger -/

/-- A character that may follow the first of an idempotency key. -/
def isKeyChar (c : Char) : Bool := c.isAlphanum || c ∈ ['.', '_', '~', '-']

/-- `validate_idempotency_key`. -/
def validateIdempotencyKey (key : String) : Except Err Unit :=
  require (key.toList.head?.any Char.isAlphanum ∧ key.toList.length ≤ 256 ∧
      key.toList.all isKeyChar)
    (.invalidRequest
      "Idempotency-Key must start with an alphanumeric character and contain at most 256 ASCII characters")

/-- `require_idempotency_key`. -/
def requireIdempotencyKey (key : Option String) : Except Err String := do
  let key ← orThrow key (.invalidRequest "Idempotency-Key is required for state mutations")
  validateIdempotencyKey key
  return key

/-- A stored receipt answers the request inside its window. -/
def replayReceipt (receipt : Option Receipt) (request : RequestHash) (window now : Time) :
    Except Err Bool :=
  match receipt with
  | none => .ok false
  | some receipt => do
    require (receipt.request = request)
      (.conflict "idempotency key was already used with different input")
    require (now - window ≤ receipt.createdAt) (.windowExpired
      "idempotency result is outside its replay window; the command was not executed again")
    return true

namespace State

/-- `_command_replay`: whether the command was executed before. -/
def commandReplay (s : State) (kind : CommandKind) (aggregate key : String) (request : RequestHash)
    (now : Time) : Except Err Bool :=
  replayReceipt (s.receipts.lookup (kind, aggregate, key)) request resultWindow now

/-- `_command_record`. -/
def commandRecord (s : State) (kind : CommandKind) (aggregate key : String) (request : RequestHash)
    (now : Time) : Except Err State := do
  let receipts ← orThrow (s.receipts.insertNew (kind, aggregate, key) { request, createdAt := now })
    (.integrity "command_idempotency")
  return { s with receipts }

/-- `_command_replay` of a command whose receipts belong to the session. -/
def sessionReplay (s : State) (kind : CommandKind) (aggregate : String) (key : Option String)
    (request : RequestHash) (now : Time) : Except Err Bool :=
  match key with
  | none => .ok false
  | some key => do
    validateIdempotencyKey key
    replayReceipt (s.sessionReceipts.lookup (kind, aggregate, key)) request sessionResultWindow now

/-- `_command_record` of a command whose receipts belong to the session. -/
def sessionRecord (s : State) (kind : CommandKind) (aggregate : String) (key : Option String)
    (request : RequestHash) (now : Time) : Except Err State :=
  match key with
  | none => .ok s
  | some key => do
    let receipts ← orThrow
      (s.sessionReceipts.insertNew (kind, aggregate, key) { request, createdAt := now })
      (.integrity "session_command_replay")
    return { s with sessionReceipts := receipts }

end State

end WorkspaceRuntime
