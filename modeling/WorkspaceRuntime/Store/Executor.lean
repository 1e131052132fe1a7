import WorkspaceRuntime.Store.Delegation

/-!
# Capabilities and executors

A capability row is the definition that tasks are pinned to; an executor row stores the descriptors
the executor advertised. Registering an executor registers its descriptors as capabilities, so the
definition of a capability is the one registered last.
-/

namespace WorkspaceRuntime

open Fallible Json

/-! ## Descriptors -/

/-- A field of a descriptor that is present and true in Python's sense. -/
def truthyField (fs : Fields) (k : String) : Option Json := (fs.get k).filter truthy

/-- `item if isinstance(item, str) else item.get("capability_id", item.get("id"))`. -/
def capabilityKey : Json → Option Json
  | .str id => some (.str id)
  | .obj fs => (Fields.get fs "capability_id").orElse fun _ => Fields.get fs "id"
  | _ => none

/-- `value.get("capability_id") or value.get("id")` of a descriptor. -/
def descriptorId (fs : Fields) : Option Json :=
  (truthyField fs "capability_id").orElse fun _ => fs.get "id"

/-- The id a registration reads from a capability value. -/
def registeredId : Json → Except Err CapabilityId
  | .str id => .ok id
  | .obj fs =>
    match (descriptorId fs).filter truthy with
    | some (.str id) => .ok id
    | some _ => .error (.validation "executor capability must identify a capability")
    | none => .error (.validation "capabilities must contain ids or capability descriptors")
  | _ => .error (.validation "capabilities must contain ids or capability descriptors")

/-- A resource key. -/
def resourceKey (v : Json) : Except Err ResourceKey := do
  let key ← orThrow v.asStr (.validation "resource keys must be non-empty strings")
  require (key ≠ "") (.validation "resource keys must be non-empty strings")
  return key

/-- `list(dict.fromkeys(keys or []))`, each a non-empty string. -/
def resourceKeyList (keys : Option Json) : Except Err (List ResourceKey) :=
  match keys.filter truthy with
  | none => .ok []
  | some (.arr items) => do
    let keys ← items.mapM resourceKey
    return keys.eraseDups
  | some (.str text) => .ok ((text.toList.map String.singleton).eraseDups)
  | some (.obj fs) => do
    let keys ← (fs.map fun f => str f.1).mapM resourceKey
    return keys.eraseDups
  | some _ => .error (.keyError "required_resource_keys")

/-- The readiness a descriptor declares. -/
def capabilityStatus (v : Option Json) : Except Err CapabilityStatus :=
  match v with
  | none | some (.str "ready") => .ok .ready
  | some (.str "unavailable") => .ok .unavailable
  | some (.str "unsupported") => .ok .unsupported
  | some (.str "retired") => .ok .retired
  | _ => .error (.validation "invalid capability readiness status")

/-- An estimate in bytes, which defaults to zero. -/
def estimatedBytes (v : Option Json) : Except Err Nat :=
  match v with
  | none => .ok 0
  | some (.int n) => do
    require (0 ≤ n) (.validation "estimated resource bytes must be non-negative")
    return n.toNat
  | some (.bool b) => .ok (if b then 1 else 0)
  | _ => .error (.keyError "estimated_bytes")

namespace State

/-- `register_capability`. -/
def registerCapability (s : State) (id : CapabilityId) (row : Capability) : Except Err State := do
  require (id ≠ "" ∧ row.definitionDigest ≠ "")
    (.validation "capability_id and definition_digest are required")
  return { s with capabilities := s.capabilities.upsert id row }

/-- The capability row that a descriptor with a definition digest registers. -/
def descriptorRow (digest : String) (fs : Fields) : Except Err Capability := do
  let status ← capabilityStatus (fs.get "status")
  let keys ← resourceKeyList (fs.get "required_resource_keys")
  let scratch ← estimatedBytes (fs.get "estimated_scratch_bytes")
  let output ← estimatedBytes (fs.get "estimated_output_bytes")
  return { definitionDigest := digest, status, requiredResourceKeys := keys,
           estimatedScratchBytes := scratch, estimatedOutputBytes := output,
           unavailableReason := (fs.get "unavailable_reason").bind asStr }

/-- The first registration loop of `upsert_executor`: descriptors with a digest. -/
def registerDescriptor (s : State) (value : Json) : Except Err State :=
  match value.asObj with
  | none => .ok s
  | some fs => do
    let id ← registeredId value
    match truthyField fs "definition_digest" with
    | none => return s
    | some digest => do
      let digest ← orThrow digest.asStr (.keyError "definition_digest")
      let row ← descriptorRow digest fs
      s.registerCapability id row

/-- The second registration loop of `upsert_executor`: ids without a capability row. -/
def registerId (env : Env) (s : State) (value : Json) : Except Err State := do
  let id ← registeredId value
  if (s.capabilities.lookup id).isSome then
    return s
  else
    s.registerCapability id
      { definitionDigest := env.idDigest id, status := .ready, requiredResourceKeys := [],
        estimatedScratchBytes := 0, estimatedOutputBytes := 0, unavailableReason := none }

end State

/-- A stored capability value carries the verified facts of the registration. -/
def withVerifiedFacts (facts : Option Json) (value : Json) : Json :=
  match facts, value with
  | some facts, .str id => .obj [("capability_id", .str id), ("verified_facts", facts)]
  | some facts, .obj fs => .obj (Fields.set fs "verified_facts" facts)
  | _, value => value

/-- `_executor_result` on one stored capability: its id is a string that is registered. -/
def State.checkExecutorCapability (s : State) (value : Json) : Except Err Unit := do
  let id ← orThrow ((capabilityKey value).bind asStr)
    (.validation "executor capability must identify a capability")
  require (id ≠ "") (.validation "executor capability must identify a capability")
  require (s.capabilities.lookup id).isSome (.validation "executor capability is not registered")

/-- The verified facts that the stored descriptors carry. -/
def storedFacts (values : List Json) : List Json := values.filterMap (·.get? "verified_facts")

/-- What an executor registers with. -/
structure ExecutorRegistration where
  executorId : ExecutorId
  capabilities : List Json
  maxConcurrency : Nat := 1
  resourceKeys : Option Json := none
  ready : Bool := true
  sourceDigest : Option String := none
  dependencyDigest : Option String := none
  sourceEpoch : Option Json := none
  verifiedFacts : Option Json := none
  deriving DecidableEq, Repr

/-- The verified facts of a registration, normalised. -/
def ExecutorRegistration.facts (reg : ExecutorRegistration) : Except Err (Option Facts) :=
  match reg.verifiedFacts with
  | some facts => some <$> normalizeExecutionFacts "verified_facts" facts
  | none => .ok none

namespace State

/-- `_validate_runtime_epoch`. -/
def validateRuntimeEpoch (s : State) (supplied : Option Int) (executor : Option ExecutorId)
    (required : Bool) : Except Err Nat := do
  let current := s.currentRuntimeEpoch
  match supplied with
  | some epoch =>
    require (epoch = current) (.lease "executor belongs to a stale runtime epoch")
    return current
  | none =>
    require (required = false) (.lease "executor runtime epoch is required")
    require (∀ row ∈ executor.bind s.executors.lookup, row.runtimeEpoch = current)
      (.lease "executor runtime epoch is required after restart")
    return current

/-- `upsert_executor`. -/
def upsertExecutor (env : Env) (s : State) (reg : ExecutorRegistration) (supplied : Option Int) :
    Except Err State := do
  require (reg.executorId ≠ "" ∧ 1 ≤ reg.maxConcurrency)
    (.validation "executor_id and positive max_concurrency are required")
  let epoch ← s.validateRuntimeEpoch supplied (some reg.executorId) false
  let facts ← reg.facts
  let _ ← reg.capabilities.mapM registeredId
  let keys ← resourceKeyList reg.resourceKeys
  let described ← reg.capabilities.foldlM registerDescriptor s
  let registered ← reg.capabilities.foldlM (registerId env) described
  let stored := reg.capabilities.map (withVerifiedFacts (facts.map Facts.toJson))
  let created : Executor :=
    { maxConcurrency := reg.maxConcurrency, resourceKeys := keys, capabilities := stored,
      runtimeEpoch := epoch, ready := reg.ready, lastSeenAt := some env.now,
      sourceDigest := reg.sourceDigest, dependencyDigest := reg.dependencyDigest,
      sourceEpoch := reg.sourceEpoch }
  let next := { registered with executors := registered.executors.upsert reg.executorId created }
  let _ ← stored.mapM next.checkExecutorCapability
  require (∀ f ∈ storedFacts stored, ∀ g ∈ storedFacts stored, f = g)
    (.validation "executor capability facts are inconsistent")
  return next

/-- `set_executor_readiness`. -/
def setExecutorReadiness (env : Env) (s : State) (executor : ExecutorId) (ready : Bool)
    (supplied : Option Int) : Except Err State := do
  let epoch ← s.validateRuntimeEpoch supplied (some executor) true
  let _ ← orThrow (s.executors.lookup executor) (.notFound "executor not found")
  return { s with executors := s.executors.modify executor fun x =>
    { x with ready := ready, lastSeenAt := some env.now, runtimeEpoch := epoch } }

/-- `heartbeat_executor`. -/
def heartbeatExecutor (env : Env) (s : State) (executor : ExecutorId) (ready : Option Bool)
    (supplied : Option Int) : Except Err State := do
  let epoch ← s.validateRuntimeEpoch supplied (some executor) true
  let _ ← orThrow (s.executors.lookup executor) (.notFound "executor not found")
  return { s with executors := s.executors.modify executor fun x =>
    { x with ready := ready.getD x.ready, lastSeenAt := some env.now, runtimeEpoch := epoch } }

end State

/-! ## Which executor can run what -/

/-- `capability in _executor_capability_ids(executor)`. -/
def Executor.hasCapabilityId (x : Executor) (capability : CapabilityId) : Bool :=
  x.capabilities.any fun v => capabilityKey v = some (.str capability)

/-- One stored value as the descriptor of the capability, if it is one. -/
def descriptorFor (capability : CapabilityId) : Json → Option Fields
  | .str id => if id = capability then some [("capability_id", .str id)] else none
  | .obj fs => if descriptorId fs = some (.str capability) then some fs else none
  | _ => none

/-- `_executor_capability`. -/
def Executor.descriptor (x : Executor) (capability : CapabilityId) : Option Fields :=
  x.capabilities.findSome? (descriptorFor capability)

/-- `_executor_live`. -/
def Executor.live (x : Executor) (now : Time) : Bool :=
  x.lastSeenAt.any fun seen => now - executorLiveness < seen

/-- A descriptor is ready unless it says otherwise. -/
def descriptorReady (descriptor : Fields) : Bool :=
  (descriptor.get "status").getD (.str "ready") = .str "ready"

/-- The verified facts of a descriptor. -/
def descriptorFacts (descriptor : Fields) : Json :=
  (descriptor.get "verified_facts").getD noFacts

namespace State

/-- `_required_resource_keys`. -/
def requiredResourceKeys (s : State) (capability : CapabilityId) : List ResourceKey :=
  ((s.capabilities.lookup capability).map (·.requiredResourceKeys)).getD []

/-- `storage_preflight(...)["ok"]`: the task's own estimate, else the capability's. -/
def storagePreflight (env : Env) (s : State) (capability : CapabilityId)
    (estimate : Option StorageEstimate) : Except Err Bool := do
  let bytes ← match estimate with
    | some e => do
      validateStorageEstimate e
      pure (e.scratchBytes + e.outputBytes)
    | none => .ok (((s.capabilities.lookup capability).map fun c =>
        c.estimatedScratchBytes + c.estimatedOutputBytes).getD 0)
  require (0 ≤ env.diskFloor)
    (.validation "ASTRID_RUNTIME_FREE_DISK_FLOOR_BYTES must be nonnegative")
  return decide (env.diskFloor ≤ env.freeDisk - bytes)

/-- The part of `_executor_can_run` that reads the descriptor and the capability row. -/
def descriptorCanRun (env : Env) (s : State) (x : Executor) (descriptor : Fields)
    (capability : CapabilityId) (row : Capability) (digest : Option String) (includeStorage : Bool)
    (facts : Option Json) : Except Err Bool := do
  if ¬descriptorReady descriptor then return false
  else if row.status ≠ .ready then return false
  else if ¬(digest = none ∨ digest = some row.definitionDigest) then return false
  else if ∃ d ∈ truthyField descriptor "definition_digest", d ≠ .str row.definitionDigest then
    return false
  else
    let matched ← match facts with
      | some required => executionFactsMatch required (descriptorFacts descriptor)
      | none => .ok true
    if ¬matched then return false
    else if ¬(∀ key ∈ s.requiredResourceKeys capability, key ∈ x.resourceKeys) then return false
    else if includeStorage then s.storagePreflight env capability none
    else return true

/-- `_executor_can_run`. -/
def executorCanRun (env : Env) (s : State) (executor : Option Executor) (capability : CapabilityId)
    (digest : Option String) (includeStorage : Bool) (facts : Option Json) : Except Err Bool :=
  match executor with
  | none => .ok false
  | some x =>
    if ¬(x.ready ∧ x.live env.now) then .ok false
    else match x.descriptor capability, s.capabilities.lookup capability with
      | some descriptor, some row =>
        s.descriptorCanRun env x descriptor capability row digest includeStorage facts
      | _, _ => .ok false

/-- `matching_live_executor`, over the executors not yet asked. -/
def anyExecutorCanRun (env : Env) (s : State) (capability : CapabilityId) (digest : Option String)
    (facts : Option Json) : List (ExecutorId × Executor) → Except Err Bool
  | [] => .ok false
  | x :: xs => do
    if ← s.executorCanRun env (some x.2) capability digest false facts then
      return true
    else
      s.anyExecutorCanRun env capability digest facts xs

/-- `matching_live_executor` without the storage check. -/
def matchingLiveExecutor (env : Env) (s : State) (capability : CapabilityId)
    (digest : Option String) (facts : Option Json) : Except Err Bool :=
  s.anyExecutorCanRun env capability digest facts s.executors.entries

/-- `_executor_toolchain_digest`: the source epoch, source and dependency digests that the digest
is taken of. -/
def executorToolchainDigest (x : Executor) : Option String :=
  match x.sourceEpoch, x.sourceDigest with
  | some (.str epoch), some digest =>
    if epoch = "" ∨ digest = "" then none
    else some (epoch ++ "," ++ digest ++ "," ++ x.dependencyDigest.getD "null")
  | _, _ => none

end State

end WorkspaceRuntime
