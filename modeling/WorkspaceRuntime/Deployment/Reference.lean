import WorkspaceRuntime.Model.Request

/-!
# Deployment references

A remote worker is launched for one admitted task. What it is launched with is the *deployment binding*:
a projection of the task as Runtime reads it, whose digest the qualification of the worker names. The
projection only reads; every field that the task carries twice must agree with itself. The hash is a
parameter.
-/

namespace WorkspaceRuntime

open Fallible Json

/-- `_DIGEST.fullmatch`: a labelled digest. -/
def isDigest (value : String) : Bool :=
  value.toList.take 7 = "sha256:".toList && (objectDigest value).isSome

/-- The labelled SHA-256 digests of canonical texts and of plain ones. -/
structure Sha256 where
  json : Json → String
  text : String → String
  json_isDigest : ∀ v, isDigest (json v) = true

namespace Deployment

/-- A `DeploymentReferenceError`. -/
def refuse (message : String) : Err := .deploymentReference message

/-! ## Fields -/

/-- `_text`. -/
def textOf (value : Option Json) (field : String) : Except Err String := do
  let raw ← orThrow (value.bind asStr) (refuse (field ++ " is required"))
  require (strip raw ≠ "") (refuse (field ++ " is required"))
  require ((strip raw).toList.all fun c => c.toNat ≠ 0 && c.toNat ≠ 10 && c.toNat ≠ 13)
    (refuse (field ++ " contains a control character"))
  return strip raw

/-- A text that starts with a letter or a digit, and goes on with those and these others. -/
def isWord (others : List Char) (value : String) : Bool :=
  match value.toList with
  | [] => false
  | c :: cs => c.isAlphanum && cs.all fun d => d.isAlphanum || others.contains d

/-- `_identifier`. -/
def identifierOf (value : Option Json) (field : String) : Except Err String := do
  let text ← textOf value field
  require (isWord ['.', '_', ':', '/', '-'] text) (refuse (field ++ " is not a valid reference"))
  return text

/-- `_digest`. -/
def digestOf (value : Option Json) (field : String) : Except Err String := do
  let text ← textOf value field
  let lowered := String.ofList (text.toList.map Char.toLower)
  require (isDigest lowered) (refuse (field ++ " must be a sha256 digest"))
  return lowered

/-- `_target`: a non-empty object. Its canonical text decodes to itself. -/
def targetOf (value : Option Json) (field : String) : Except Err Json := do
  let target ← orThrow (value.bind asObj) (refuse (field ++ " must be a non-empty object"))
  require (target ≠ []) (refuse (field ++ " must be a non-empty object"))
  return .obj target

/-- `_object_id`. -/
def objectIdOf (value : Option Json) (field : String) : Except Err String :=
  orThrow ((value.bind asStr).bind normalizedObjectId)
    (refuse (field ++ " must be a sha256 object ID"))

/-- A field that is there and is not null. -/
def present (fields : Fields) (field : String) : Option Json :=
  (fields.get field).filter fun v => v ≠ .null

/-- `_conflicting_value`. -/
def conflictingValue (fields : Fields) (names : List String) (field : String) :
    Except Err Json :=
  match names.filterMap fields.get with
  | [] => .error (refuse (field ++ " is required"))
  | value :: others => do
    require (∀ other ∈ others, other = value)
      (refuse (field ++ " has conflicting identity values"))
    return value

/-! ## The parts of a binding -/

/-- The identity under which Runtime admitted a task. -/
structure AdmissionIdentity where
  taskId : String
  runId : String
  projectId : Option String
  idempotencyKey : String
  admissionDigest : String
  specDigest : String
  requestDigest : String
  deriving DecidableEq, Repr

/-- The capability of the task and the digest of its definition. -/
structure CapabilityIdentity where
  capabilityId : String
  capabilityDigest : String
  deriving DecidableEq, Repr

/-- One input: a name for an object, whose digest repeats its id. -/
structure InputBinding where
  name : String
  objectId : String
  digest : String
  same : digest = objectId
  deriving DecidableEq, Repr

/-- The placement that Runtime authorises: the first one has version zero and no decision. -/
structure PlacementIdentity where
  originalTarget : Json
  effectiveTarget : Json
  placementVersion : Nat
  recoveryDecisionDigest : Option String
  versioned : placementVersion = 0 ↔ recoveryDecisionDigest = none
  deriving DecidableEq, Repr

/-- The contract that a worker is launched under; its inputs are told apart by name and by object. -/
structure DeploymentBinding where
  admission : AdmissionIdentity
  capability : CapabilityIdentity
  inputs : List InputBinding
  placement : PlacementIdentity
  names : (inputs.map InputBinding.name).Nodup
  objects : (inputs.map InputBinding.objectId).Nodup
  deriving DecidableEq, Repr

/-- A text, or null. -/
def nullable (value : Option String) : Json := (value.map str).getD .null

/-- `DeploymentBinding.as_dict`. -/
def DeploymentBinding.asDict (b : DeploymentBinding) : Json :=
  .obj [
    ("admission", .obj [
      ("admission_digest", .str b.admission.admissionDigest),
      ("idempotency_key", .str b.admission.idempotencyKey),
      ("project_id", nullable b.admission.projectId),
      ("request_digest", .str b.admission.requestDigest),
      ("run_id", .str b.admission.runId),
      ("spec_digest", .str b.admission.specDigest),
      ("task_id", .str b.admission.taskId)]),
    ("capability", .obj [
      ("capability_digest", .str b.capability.capabilityDigest),
      ("capability_id", .str b.capability.capabilityId)]),
    ("inputs", .arr (b.inputs.map fun i => .obj [
      ("digest", .str i.digest), ("name", .str i.name), ("object_id", .str i.objectId)])),
    ("placement", .obj [
      ("effective_target", b.placement.effectiveTarget),
      ("original_target", b.placement.originalTarget),
      ("placement_version", .int b.placement.placementVersion),
      ("recovery_decision_digest", nullable b.placement.recoveryDecisionDigest)])]

variable (sha : Sha256) (task : Fields) (identity : TaskIdentity) (spec : Fields)

/-- `DeploymentBinding.digest`. -/
def DeploymentBinding.digest (b : DeploymentBinding) : String := sha.json b.asDict

/-- `InputBinding`, with the checks of its constructor. -/
def inputBinding (name objectId digest : Option Json) : Except Err InputBinding := do
  let name ← textOf name "input.name"
  let objectId ← objectIdOf objectId "input.object_id"
  let digest ← objectIdOf digest "input.digest"
  if h : digest = objectId then
    return { name, objectId, digest, same := h }
  else
    .error (refuse "input digest conflicts with object_id")

/-! ## The admitted task -/

/-- What names the task, before its inputs and its placement are looked at. -/
structure TaskIdentity where
  taskId : Json
  runId : Json
  projectId : Option Json
  idempotencyKey : String
  capabilityId : Json
  capabilityDigest : Json
  deriving DecidableEq, Repr

/-- The identity fields of `deployment_binding_from_task`. -/
def taskIdentity (run : Fields) : Except Err TaskIdentity := do
  let taskId ← conflictingValue task ["task_id", "id"] "task_id"
  let runId ← conflictingValue task ["run_id"] "run_id"
  require (∀ id ∈ present run "id", id = runId) (refuse "task/run identity conflict")
  require (∀ p ∈ present task "project_id", ∀ p' ∈ present run "project_id", p = p')
    (refuse "project identity conflict")
  let projectId := (present task "project_id").orElse fun _ => present run "project_id"
  require (∀ k ∈ present task "idempotency_key", ∀ k' ∈ present run "idempotency_key", k = k')
    (refuse "idempotency identity conflict")
  let key := ((task.get "idempotency_key").filter truthy).orElse
    fun _ => run.get "idempotency_key"
  let idempotencyKey ← textOf key "idempotency_key"
  let capabilityId ← conflictingValue task ["capability_id", "capability"] "capability_id"
  let capabilityDigest ← orThrow (present task "capability_digest")
    (refuse "capability_digest is required")
  return { taskId, runId, projectId, idempotencyKey, capabilityId, capabilityDigest }

/-- The admitted spec, which may repeat the digest of the capability. -/
def admittedSpec (capabilityDigest : Json) : Except Err Fields := do
  let spec ← orThrow ((task.get "spec").bind asObj) (refuse "admitted spec is required")
  require (∀ d ∈ present spec "capability_digest", d = capabilityDigest)
    (refuse "capability identity has conflicting digests")
  return spec

/-- The admitted request and its target, which the task may repeat. -/
def admittedRequest (spec : Fields) : Except Err (Fields × Json) := do
  require (∀ r ∈ present task "execution_request", ∀ r' ∈ present spec "execution_request", r = r')
    (refuse "execution_request has conflicting identity values")
  let request := (present task "execution_request").orElse fun _ => present spec "execution_request"
  let fields ← orThrow (request.bind asObj) (refuse "admitted execution_request is required")
  let original ← targetOf (fields.get "target") "execution_request.target"
  match present task "target" with
  | none => return (fields, original)
  | some target =>
    let repeated ← targetOf (some target) "task.target"
    require (repeated = original) (refuse "task target drifted from immutable admission")
    return (fields, original)

/-! ## The inputs -/

/-- The ids of a list, each under its index. -/
def objectIds (field : String) : Nat → List Json → Except Err (List String)
  | _, [] => .ok []
  | index, item :: items => do
    let id ← objectIdOf (some item) (field ++ "[" ++ toString index ++ "]")
    let rest ← objectIds field (index + 1) items
    return id :: rest

/-- The ids of the inputs that the task was admitted with. -/
def suppliedIds (spec : Fields) : Except Err (List String) := do
  let items ← orThrow ((task.get "input_object_ids").bind asArr)
    (refuse "input_object_ids is required")
  require (∀ ids ∈ present spec "input_object_ids", ids = .arr items)
    (refuse "input_object_ids has conflicting identity values")
  let supplied ← objectIds "input_object_ids" 0 items
  require supplied.Nodup (refuse "input_object_ids contains duplicate object IDs")
  return supplied

/-- The loop over `execution_request.inputs`. -/
def requestInputs : Nat → List Json → Except Err (List InputBinding)
  | _, [] => .ok []
  | index, item :: items => do
    let field := "execution_request.inputs[" ++ toString index ++ "]"
    let fields ← orThrow item.asObj (refuse (field ++ " is invalid"))
    let objectId ← objectIdOf (fields.get "object_id") (field ++ ".object_id")
    let binding ← inputBinding (fields.get "name") (some (.str objectId))
      (some ((fields.get "digest").getD (.str objectId)))
    let rest ← requestInputs (index + 1) items
    return binding :: rest

/-- The object that a descriptor of an input manifest names, if any. -/
def describedObject (field : String) : Json → Except Err (Option String)
  | .obj descriptor =>
    if (Fields.get descriptor "object_id").isSome ∨
        (Fields.get descriptor "digest").isSome then do
      let id := (present descriptor "object_id").orElse fun _ => Fields.get descriptor "digest"
      let objectId ← objectIdOf id field
      match present descriptor "digest" with
      | none => return some objectId
      | some digest =>
        let repeated ← objectIdOf (some digest) (field ++ ".digest")
        require (repeated = objectId) (refuse (field ++ " has conflicting digest"))
        return some objectId
    else return none
  | .str text => .ok (normalizedObjectId text)
  | _ => .ok none

/-- The objects of a named input manifest. -/
def namedInputs (location : String) : Fields → Except Err Fields
  | [] => .ok []
  | (name, descriptor) :: rest => do
    require (strip name ≠ "") (refuse (location ++ ".inputs contains an invalid name"))
    let objectId ← describedObject (location ++ ".inputs[" ++ name ++ "]") descriptor
    let named ← namedInputs location rest
    return (objectId.map fun id => (name, str id)).toList ++ named

/-- The rows of `input_digests`, by name. -/
def namedDigests (location : String) : Nat → List Json → Fields → Except Err Fields
  | _, [], named => .ok named
  | index, row :: rows, named => do
    let field := location ++ ".input_digests[" ++ toString index ++ "]"
    let fields ← orThrow row.asObj (refuse (field ++ " is invalid"))
    let name ← textOf (fields.get "name") (field ++ ".name")
    require (named.get name = none)
      (refuse (location ++ ".input_digests contains duplicate names"))
    let digest ← objectIdOf (fields.get "digest") (field ++ ".digest")
    namedDigests location (index + 1) rows (named.set name (.str digest))

/-- The manifest and the digest rows of one section of the spec. -/
def specSection (location : String) (fields : Fields) :
    Except Err (Option Fields × Option Fields) := do
  let named ← match present fields "inputs" with
    | none => .ok none
    | some descriptors => do
      let manifest ← orThrow descriptors.asObj
        (refuse (location ++ ".inputs must be a named input manifest"))
      some <$> namedInputs location manifest
  let witness ← match present fields "input_digests" with
    | none => .ok none
    | some rows => do
      let rows ← orThrow rows.asArr (refuse (location ++ ".input_digests must be a list"))
      some <$> namedDigests location 0 rows []
  return (named, witness)

/-- The sections of a spec that may describe its inputs. -/
def specSections (spec : Fields) : List (String × Fields) :=
  ("spec", spec) :: (((spec.get "spec").bind asObj).map fun inner => ("spec.spec", inner)).toList

/-- The name under which a manifest has an object. -/
def nameOf (named : Fields) (objectId : String) : Option Json :=
  ((named.filter fun f => f.2 = .str objectId).getLast?).map fun f => .str f.1

/-- `_spec_input_bindings`. -/
def specInputBindings (supplied : List String) : Except Err (List InputBinding) := do
  let sections ← (specSections spec).mapM fun e => specSection e.1 e.2
  let candidates := sections.filterMap Prod.fst
  let witnesses := sections.filterMap Prod.snd
  let named := candidates.head?.getD []
  require (∀ candidate ∈ candidates, candidate = named)
    (refuse "admitted spec has ambiguous input descriptors")
  require (named.map Prod.snd).Nodup (refuse "admitted spec has ambiguous input descriptors")
  require (∀ witness ∈ witnesses, witness = named)
    (refuse "input_digests conflicts with admitted input descriptors")
  require ((∀ f ∈ named, ∃ id ∈ supplied, f.2 = .str id) ∧
      ∀ id ∈ supplied, ∃ f ∈ named, f.2 = .str id)
    (refuse "admitted input descriptors do not match input_object_ids")
  supplied.mapM fun id => inputBinding (nameOf named id) (some (.str id)) (some (.str id))

/-- The inputs of the binding: those of the request, or those that the spec describes. -/
def inputBindings (request : Fields) (supplied : List String) : Except Err (List InputBinding) :=
  match request.get "inputs" with
  | none => specInputBindings spec supplied
  | some inputs => do
    let items ← orThrow inputs.asArr (refuse "execution_request.inputs must be a list")
    require (items.length = supplied.length)
      (refuse "input_object_ids does not mirror execution_request.inputs")
    let bindings ← requestInputs 0 items
    require (supplied = bindings.map InputBinding.objectId)
      (refuse "input_object_ids does not exactly mirror execution_request.inputs in order")
    return bindings

/-! ## The placement -/

/-- `_recovery_digest`: the digest that a decision carries is that of the rest of it. -/
def recoveryDigest (decision : Fields) : Except Err String := do
  let supplied ← orThrow (present decision "decision_digest")
    (refuse "placement recovery decision_digest is required")
  let expected := sha.json (.obj (decision.erase "decision_digest"))
  let digest ← digestOf (some supplied) "placement recovery decision_digest"
  require (digest = expected) (refuse "placement recovery decision_digest is stale or foreign")
  return expected

/-- The version of a decision. -/
def recoveryVersion (value : Option Json) : Except Err Nat :=
  match value with
  | some (.int n) => do
    require (0 < n) (refuse "placement recovery has a stale or invalid placement version")
    return n.toNat
  | _ => .error (refuse "placement recovery has a stale or invalid placement version")

/-- The target, the version and the digest of the latest decision. -/
def recoveredPlacement (original : Json) (recovery : Fields) :
    Except Err (Json × Nat × Option String) := do
  require (recovery.get "task_id" = some identity.taskId ∧ recovery.get "run_id" = some identity.runId)
    (refuse "placement recovery is foreign to the admitted task")
  let stated ← targetOf (recovery.get "original_target") "placement recovery original_target"
  require (stated = original)
    (refuse "placement recovery changes the immutable original target")
  let effective ← targetOf (recovery.get "replacement_target")
    "placement recovery replacement_target"
  let version ← recoveryVersion (recovery.get "placement_version")
  require (effective ≠ original)
    (refuse "placement recovery does not authorize a replacement target")
  let digest ← recoveryDigest sha recovery
  return (effective, version, some digest)

/-- The decision that a binding projection or the task read carries. -/
def projectedRecovery (top binding : Fields) : Except Err (Option Fields) :=
  match ((binding.get "placement_recovery").filter truthy).orElse
      fun _ => present top "placement_recovery" with
  | none => .ok none
  | some recovery => do
    let fields ← orThrow recovery.asObj (refuse "placement recovery projection is invalid")
    return if fields = [] then none else some fields

/-- The target that the binding row selects, as the projection gives it. -/
def projectedTarget (binding : Fields) : Option Json :=
  (binding.get "effective_target").orElse fun _ => binding.get "resolved_target"

/-- The target, the version and the digest that the recovery, or else the binding row, selects. -/
def selectedPlacement (original : Json) (binding : Fields) :
    Option Fields → Except Err (Json × Nat × Option String)
  | some decision => recoveredPlacement sha identity original decision
  | none => do
    let effective ← targetOf (some ((projectedTarget binding).getD original)) "effective_target"
    return (effective, 0, none)

/-- A version that the projection repeats. -/
def checkProjectedVersion (binding : Fields) (version : Nat) : Except Err Unit :=
  match present binding "placement_version" with
  | none => .ok ()
  | some v => require (v = .int version) (refuse "placement version is stale or conflicting")

/-- A target that the projection repeats. -/
def checkProjectedTarget (binding : Fields) (effective : Json) : Except Err Unit :=
  match (projectedTarget binding).filter fun v => v ≠ .null with
  | none => .ok ()
  | some v => do
    let target ← targetOf (some v) "binding.effective_target"
    require (target = effective)
      (refuse "execution binding effective target drifted from Runtime recovery")

/-- The placement of `deployment_binding_from_task`. -/
def placementOf (top task : Fields) (identity : TaskIdentity) (original : Json) :
    Except Err PlacementIdentity := do
  let binding ← orThrow (((top.get "execution_binding").bind asObj).orElse
    fun _ => (task.get "execution_binding").bind asObj)
    (refuse "Runtime execution binding is required")
  let recovery ← projectedRecovery top binding
  let (effective, version, digest) ← selectedPlacement sha identity original binding recovery
  let stated ← targetOf (some ((binding.get "original_target").getD original))
    "binding.original_target"
  require (stated = original) (refuse "execution binding changes the immutable original target")
  checkProjectedTarget binding effective
  checkProjectedVersion binding version
  require (∀ d ∈ present binding "recovery_decision_digest", some d = digest.map str)
    (refuse "recovery decision digest is stale or conflicting")
  if h : version = 0 ↔ digest = none then
    return { originalTarget := original, effectiveTarget := effective, placementVersion := version
             recoveryDecisionDigest := digest, versioned := h }
  else
    .error (refuse "recovered placement requires a recovery decision digest")

/-! ## The binding -/

/-- The keys under which the intent of a generation has been stored, the current one first. -/
def intentKeys : String × String := ("__runtime_generation_intent", "generation_intent")

/-- `public_task_spec`. -/
def publicTaskSpec (spec : Fields) : Fields × Option Json :=
  let bare := (spec.erase "execution_request").erase "_runtime_reuse_toolchain"
  ((bare.erase intentKeys.1).erase intentKeys.2,
    (present bare intentKeys.1).orElse fun _ => bare.get intentKeys.2)

/-- `task_spec_for_request_hash`. -/
def taskSpecForRequestHash (spec : Fields) : Fields :=
  match publicTaskSpec spec with
  | (public_, some intent) => if intent = .null then public_ else public_.set intentKeys.2 intent
  | (public_, none) => public_

/-- The spec that the digests are taken of. The stamp of a closed delegation is left out: it is no part
of the admission. -/
def hashedSpec (spec : Fields) : Fields :=
  (taskSpecForRequestHash spec).erase "delegation_closed_attempt_id"

/-- A digest that the task may repeat. -/
def checkSuppliedDigest (field computed : String) : Except Err Unit :=
  match present task field with
  | none => .ok ()
  | some value => do
    let supplied ← digestOf (some value) field
    require (supplied = computed) (refuse (field ++ " is stale or conflicting"))

/-- The project of the admission, if any. -/
def admittedProject : Option Json → Except Err (Option String)
  | none => .ok none
  | some project => some <$> identifierOf (some project) "admission.project_id"

/-- The digests of the admission. -/
def admissionIdentity (request : Fields) : Except Err AdmissionIdentity := do
  let specDigest := sha.json (.obj (hashedSpec spec))
  let requestDigest := sha.json (.obj request)
  let admissionDigest := sha.json (.obj [
    ("capability", identity.capabilityId), ("capability_digest", identity.capabilityDigest),
    ("execution_request", .obj request),
    ("expected_effect", (task.get "expected_effect").getD .null),
    ("project_id", identity.projectId.getD .null), ("spec", .obj (hashedSpec spec))])
  checkSuppliedDigest task "admission_digest" admissionDigest
  checkSuppliedDigest task "spec_digest" specDigest
  checkSuppliedDigest task "request_digest" requestDigest
  let taskId ← identifierOf (some identity.taskId) "admission.task_id"
  let runId ← identifierOf (some identity.runId) "admission.run_id"
  require (isWord ['.', '_', '~', '-'] identity.idempotencyKey ∧
      identity.idempotencyKey.toList.length ≤ 256)
    (refuse "admission.idempotency_key is not a valid Runtime key")
  let projectId ← admittedProject identity.projectId
  return { taskId, runId, projectId, idempotencyKey := identity.idempotencyKey, admissionDigest
           specDigest, requestDigest }

/-- `CapabilityIdentity`, with the checks of its constructor. -/
def capabilityIdentity (identity : TaskIdentity) : Except Err CapabilityIdentity := do
  let capabilityId ← identifierOf (some identity.capabilityId) "capability.id"
  let capabilityDigest ← digestOf (some identity.capabilityDigest) "capability.digest"
  return { capabilityId, capabilityDigest }

/-- `DeploymentBinding`, with the checks of its constructor. -/
def sealBinding (admission : AdmissionIdentity) (capability : CapabilityIdentity)
    (inputs : List InputBinding) (placement : PlacementIdentity) : Except Err DeploymentBinding :=
  if h : (inputs.map InputBinding.name).Nodup ∧ (inputs.map InputBinding.objectId).Nodup then
    .ok { admission, capability, inputs, placement, names := h.1, objects := h.2 }
  else .error (refuse "deployment input bindings must be unique")

/-- `deployment_binding_from_task`. -/
def deploymentBindingFromTask (value : Json) : Except Err DeploymentBinding := do
  let top ← orThrow value.asObj (refuse "Runtime task projection must be an object")
  let task := ((top.get "task").bind asObj).getD top
  let run := ((top.get "run").bind asObj).getD []
  let identity ← taskIdentity task run
  let spec ← admittedSpec task identity.capabilityDigest
  let (request, original) ← admittedRequest task spec
  let supplied ← suppliedIds task spec
  let inputs ← inputBindings spec request supplied
  let placement ← placementOf sha top task identity original
  let admission ← admissionIdentity sha task identity spec request
  let capability ← capabilityIdentity identity
  sealBinding admission capability inputs placement

end Deployment

end WorkspaceRuntime
