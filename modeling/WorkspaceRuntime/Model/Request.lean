import WorkspaceRuntime.Lib.Fallible
import WorkspaceRuntime.Model.State

/-!
# Targets, placements, facts and execution requests

The validators of the scheduler-facing JSON: object ids, execution targets and placements, execution
facts, and the execution request, whose declared inputs must mirror the task's input list.
-/

namespace WorkspaceRuntime

open Fallible

/-! ## Object ids -/

/-- A lower-case hexadecimal digit. -/
def isHexDigit (c : Char) : Bool :=
  ('0' ≤ c && c ≤ '9') || ('a' ≤ c && c ≤ 'f')

/-- `OBJECT_ID_RE.fullmatch(value).group(1)`: the 64 hexadecimal digits of an object id, with or
without its `sha256:` label. -/
def objectDigest (value : String) : Option String :=
  let text := value.toList
  let bare := if text.take 7 = "sha256:".toList then text.drop 7 else text
  if bare.length = 64 && bare.all isHexDigit then some (String.ofList bare) else none

/-- The labelled form of an object id. -/
def normalizedObjectId (value : String) : Option String :=
  (objectDigest value).map ("sha256:" ++ ·)

/-! ## Execution targets -/

/-- The field is a non-empty string. -/
def nonEmptyString (v : Option Json) : Bool :=
  match v with
  | some (.str s) => s ≠ ""
  | _ => false

/-- The fields every target kind but `default` may carry. -/
def targetCommonFields : List String :=
  ["kind", "profile_revision", "profile_digest", "release_digest", "storage", "mounts"]

/-- The `profile` and `machine` branches of `_normalize_execution_target`: `aliasField` is folded into
`id`. -/
def normalizeAliasedTarget (kind aliasField : String) (target : Json.Fields) : Except Err Json := do
  require (∀ k ∈ target.keys, k ∈ targetCommonFields ++ ["id", aliasField])
    (.validation (kind ++ " execution target contains unsupported identity fields"))
  require (¬((target.get "id").isSome ∧ (target.get aliasField).isSome ∧
      target.get "id" ≠ target.get aliasField))
    (.validation (kind ++ " execution target id and " ++ aliasField ++ " conflict"))
  let identifier := (target.get "id").orElse fun _ => target.get aliasField
  require (nonEmptyString identifier)
    (.validation ("execution_request.target " ++ kind ++ " id is required"))
  return .obj ((target.set "id" (identifier.getD .null)).erase aliasField)

/-- `_normalize_execution_target`. -/
def normalizeExecutionTarget (value : Option Json) : Except Err Json := do
  let target ← orThrow (value.bind Json.asObj)
    (.validation "execution_request.target must be an object")
  match target.get "kind" with
  | some (.str "runpod") =>
    require (∀ k ∈ target.keys, k ∈ targetCommonFields ++ ["pod_id", "provider_account_ref"])
      (.validation "runpod execution target contains unsupported identity fields")
    require (nonEmptyString (target.get "pod_id"))
      (.validation "execution_request.target.pod_id is required")
    require (nonEmptyString (target.get "provider_account_ref"))
      (.validation "execution_request.target.provider_account_ref is required")
    return .obj target
  | some (.str "profile") => normalizeAliasedTarget "profile" "profile_alias" target
  | some (.str "machine") => normalizeAliasedTarget "machine" "machine_id" target
  | some (.str "default") =>
    require (target.keys = ["kind"])
      (.validation "default execution target cannot carry placement identity")
    return .obj target
  | _ => .error (.validation "execution_request.target.kind is unsupported")

/-! ## Placements -/

/-- A character that `str.strip` removes. -/
def isSpace (c : Char) : Bool :=
  (0x09 ≤ c.toNat && c.toNat ≤ 0x0d) || (0x1c ≤ c.toNat && c.toNat ≤ 0x20)
    || (0x2000 ≤ c.toNat && c.toNat ≤ 0x200a)
    || c.toNat ∈ [0x85, 0xa0, 0x1680, 0x2028, 0x2029, 0x202f, 0x205f, 0x3000]

/-- `str.strip`. -/
def strip (text : String) : String :=
  String.ofList ((text.toList.dropWhile isSpace).reverse.dropWhile isSpace).reverse

/-- The keys of the object are these. -/
def keysAre (fields : Json.Fields) (keys : List String) : Prop :=
  (∀ k ∈ fields.keys, k ∈ keys) ∧ ∀ k ∈ keys, k ∈ fields.keys

instance (fields : Json.Fields) (keys : List String) : Decidable (keysAre fields keys) :=
  inferInstanceAs (Decidable (_ ∧ _))

/-- The verification of a placement: the evidence digest of a credential claim. -/
def verifiedEvidence (verification : Option Json) : Except Err String := do
  let fields ← orThrow (verification.bind Json.asObj)
    (.validation "execution_binding.verification has an invalid shape")
  require (keysAre fields ["method", "evidence_digest", "verified"])
    (.validation "execution_binding.verification has an invalid shape")
  require (fields.get "method" = some (.str "credential_claim") ∧
      fields.get "verified" = some (.bool true))
    (.validation "execution binding placement is not verified by a credential claim")
  let digest ← orThrow ((fields.get "evidence_digest").bind Json.asStr)
    (.validation "execution_binding.verification.evidence_digest is invalid")
  require (digest.toList.take 7 = "sha256:".toList ∧ (objectDigest digest).isSome)
    (.validation "execution_binding.verification.evidence_digest is invalid")
  return digest

/-- `normalize_verified_execution_placement`. -/
def normalizeVerifiedExecutionPlacement (value : Json) : Except Err Placement := do
  let shape := Err.validation
    "trusted execution_binding must contain actual, verification, and executor_incarnation"
  let fields ← orThrow value.asObj shape
  require (keysAre fields ["actual", "verification", "executor_incarnation"]) shape
  let actual ← normalizeExecutionTarget (fields.get "actual")
  require (actual.get? "kind" ≠ some (.str "default"))
    (.validation "execution_binding.actual.kind cannot be default")
  let evidenceDigest ← verifiedEvidence (fields.get "verification")
  let incarnation ← orThrow ((fields.get "executor_incarnation").bind Json.asStr)
    (.validation "execution_binding.executor_incarnation must be a non-empty string")
  require (strip incarnation ≠ "" ∧ incarnation.toList.length ≤ 256)
    (.validation "execution_binding.executor_incarnation must be a non-empty string")
  return { actual, evidenceDigest, verified := true, executorIncarnation := strip incarnation }

/-- The fields by which a selector of this kind names one placement. -/
def identityFields (kind : Option Json) : List String :=
  match kind with
  | some (.str "profile") | some (.str "machine") => ["id"]
  | some (.str "runpod") => ["pod_id", "provider_account_ref"]
  | _ => []

/-- `execution_placement_matches`. -/
def executionPlacementMatches (selected : Json) (placement : Option Placement) : Bool :=
  match selected.asObj, placement with
  | some target, some p =>
    p.verified && p.actual.asObj.isSome
      && (target.get "kind" = some (.str "default") || target.get "kind" = p.actual.get? "kind")
      && (identityFields (target.get "kind")).all (fun f => target.get f = p.actual.get? f)
      && ["profile_revision", "profile_digest", "release_digest", "storage", "mounts"].all
          (fun f => (target.get f).isNone || target.get f = p.actual.get? f)
  | _, _ => false

/-! ## Execution requests -/

/-- The loop over `execution_request.inputs`: the declared object ids in order. -/
def declaredInputs : List Json → List String → Except Err (List String)
  | [], _ => .ok []
  | item :: items, names => do
    let name ← orThrow ((item.get? "name").bind Json.asStr)
      (.validation "execution_request.inputs entries must contain a name")
    require (name ≠ "") (.validation "execution_request.inputs entries must contain a name")
    require (name ∉ names) (.validation "execution_request.inputs contains duplicate names")
    let objectId ← orThrow (((item.get? "object_id").bind Json.asStr).bind normalizedObjectId)
      (.validation "execution_request.inputs.object_id must be a sha256 object ID")
    let rest ← declaredInputs items (names ++ [name])
    return objectId :: rest

/-- The labelled forms of the supplied input ids. -/
def suppliedInputs (inputObjectIds : List String) : Except Err (List String) :=
  inputObjectIds.mapM fun id => orThrow (normalizedObjectId id)
    (.validation "input_object_ids must contain sha256 object IDs")

/-- The declared inputs of a request mirror the input list of its task. -/
def checkMirroredInputs (inputs : Json) (inputObjectIds : List String) : Except Err Unit := do
  let items ← orThrow inputs.asArr (.validation "execution_request.inputs must be a list")
  let declared ← declaredInputs items []
  let supplied ← suppliedInputs inputObjectIds
  require declared.Nodup (.validation "execution_request.inputs contains duplicate object IDs")
  require supplied.Nodup (.validation "input_object_ids contains duplicate object IDs")
  require (supplied = declared)
    (.validation "input_object_ids must exactly mirror execution_request.inputs in order")

/-- `remote_activation_required` is a boolean, and needs a RunPod target when it is set. -/
def checkRemoteActivation (required : Json) (target : Json) : Except Err Unit :=
  match required with
  | .bool b => require (b = true → target.get? "kind" = some (.str "runpod"))
      (.validation "remote activation requires a RunPod execution target")
  | _ => .error (.validation "execution_request.remote_activation_required must be a boolean")

/-- A check of a field that may be absent. -/
def checkPresent (field : Option Json) (check : Json → Except Err Unit) : Except Err Unit :=
  match field with
  | some value => check value
  | none => .ok ()

/-- `_normalize_execution_request`. -/
def normalizeExecutionRequest (value : Json) (inputObjectIds : List String) :
    Except Err Json := do
  let fields ← orThrow value.asObj (.validation "execution_request must be an object")
  require (fields.get "execution_binding" = none)
    (.validation "caller-supplied execution_binding is not accepted")
  let target ← normalizeExecutionTarget (fields.get "target")
  let request := fields.set "target" target
  checkPresent (request.get "remote_activation_required") (checkRemoteActivation · target)
  checkPresent (request.get "inputs") (checkMirroredInputs · inputObjectIds)
  return .obj request

/-! ## Execution facts -/

/-- `MAX_STORAGE_ESTIMATE_BYTES`. -/
def maxStorageEstimateBytes : Nat := 2 ^ 53 - 1

/-- `FACT_EXACT_KEYS`. -/
def factExactKeys : List String :=
  ["interpreter", "runtime_lock", "engine_lock", "model_digest", "custom_node_digest", "driver",
    "root", "port"]

/-- `FACT_MINIMUM_KEYS`. -/
def factMinimumKeys : List String := ["vram_bytes", "scratch_bytes"]

/-- Required or verified facts, normalised. -/
structure Facts where
  exact : Json.Fields := []
  minimum : List (String × Int) := []
  deriving DecidableEq, Repr

/-- Facts as they are stored. -/
def Facts.toJson (facts : Facts) : Json :=
  .obj [("exact", .obj facts.exact),
    ("minimum", .obj (facts.minimum.map fun f => (f.1, .int f.2)))]

/-- The port fact is a non-empty string or an integer in range. -/
def checkPortFact (field : String) (fact : Json) : Except Err Unit :=
  let shape := Err.validation (field ++ ".exact.port must be a non-empty string or integer")
  match fact with
  | .str text => require (text ≠ "") shape
  | .int n => do
    require (n ≠ 0) shape
    require (0 ≤ n ∧ n ≤ 65535) (.validation (field ++ ".exact.port is out of range"))
  | _ => .error shape

/-- One exact fact. -/
def checkExactFact (field key : String) (fact : Json) : Except Err (String × Json) := do
  if key = "port" then
    checkPortFact field fact
  else
    require (nonEmptyString (some fact))
      (.validation (field ++ ".exact." ++ key ++ " must be a non-empty string"))
  return (key, fact)

/-- One minimum fact. -/
def checkMinimumFact (field key : String) (fact : Json) : Except Err (String × Int) :=
  match fact with
  | .int n => do
    require (0 ≤ n ∧ n ≤ maxStorageEstimateBytes)
      (.validation (field ++ ".minimum." ++ key ++ " is out of range"))
    return (key, n)
  | _ => .error (.validation (field ++ ".minimum." ++ key ++ " must be an integer"))

/-- `normalize_execution_facts`. -/
def normalizeExecutionFacts (field : String) (value : Json) : Except Err Facts := do
  let fields ← orThrow value.asObj (.validation (field ++ " must be an object"))
  require (∀ k ∈ fields.keys, k ∈ ["exact", "minimum"])
    (.validation (field ++ " contains unsupported fields"))
  let shape := Err.validation (field ++ ".exact and " ++ field ++ ".minimum must be objects")
  let exactFields ← orThrow ((fields.get "exact").getD (.obj [])).asObj shape
  let minimumFields ← orThrow ((fields.get "minimum").getD (.obj [])).asObj shape
  require (∀ k ∈ exactFields.keys, k ∈ factExactKeys)
    (.validation (field ++ ".exact contains unsupported facts"))
  require (∀ k ∈ minimumFields.keys, k ∈ factMinimumKeys)
    (.validation (field ++ ".minimum contains unsupported facts"))
  let exactFacts ← exactFields.mapM fun f => checkExactFact field f.1 f.2
  let minimumFacts ← minimumFields.mapM fun f => checkMinimumFact field f.1 f.2
  return { exact := exactFacts, minimum := minimumFacts }

/-- The facts of a task or descriptor that names none. -/
def noFacts : Json := .obj [("exact", .obj []), ("minimum", .obj [])]

/-- `execution_facts_match`. -/
def executionFactsMatch (required verified : Json) : Except Err Bool := do
  let required ← normalizeExecutionFacts "required_facts" required
  let verified ← normalizeExecutionFacts "verified_facts" verified
  return required.exact.all (fun f => verified.exact.get f.1 = some f.2)
    && required.minimum.all (fun f => verified.minimum.any (fun g => g.1 = f.1 && f.2 ≤ g.2))

end WorkspaceRuntime
