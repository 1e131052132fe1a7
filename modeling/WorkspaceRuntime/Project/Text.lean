import WorkspaceRuntime.Project.Rows

/-!
# Text bindings of shots

`set_project_shot_text_binding` creates a binding when the caller expects head 0 and moves it to the
bytes of another text otherwise; `rebind_project_shot_text_binding` moves it to an object that the
project has already. Each change appends an event to the chain of the binding and advances its head
by one. A call is recorded under the id of the binding and the caller's key.
-/

namespace WorkspaceRuntime.Project

open Fallible Timeline

/-! ## Identities and texts -/

/-- `TEXT_BINDING_KINDS`. -/
def textBindingKinds : List String := ["prompt", "voiceover_script", "transcript"]

/-- `TEXT_BINDING_MAX_BYTES`. -/
def textBindingMaxBytes : Nat := 1048576

/-- `TEXT_BINDING_SLOT_RE`. -/
def isSlot (text : String) : Bool :=
  let lower : Char → Bool := fun c => 'a' ≤ c && c ≤ 'z'
  match text.toList with
  | [] => false
  | c :: rest => lower c && rest.length ≤ 63 && rest.all fun c => lower c || c.isDigit || c = '-'

/-- `_text_binding_id`. -/
def textBindingId (host : Host) (project : ProjectId) (shot : ShotId) (kind slot : Json) :
    Except Err BindingId := do
  require (kind.asStr.any (· ∈ textBindingKinds))
    (.validation "kind must be prompt, voiceover_script, or transcript")
  require (slot = .null ∨ kind = .str "prompt" ∧ slot.asStr.any isSlot)
    (.validation "slot is allowed only for prompt bindings and must be a lowercase slug")
  return host.uuid (host.canonical (.obj
    [("kind", kind), ("project_id", .str project),
     ("schema", .str "workspace.shot.text_binding.identity/v1"), ("shot_id", .str shot),
     ("slot", slot)]))

/-- `_freeze_text`: the bytes of a text and their digest. -/
def freezeText (host : Host) (v : Json) : Except Err (List UInt8 × Digest) := do
  let text ← orThrow v.asStr (.validation "text must be UTF-8 text or bytes")
  let data := utf8 text
  require (data.length ≤ textBindingMaxBytes) (.validation "text exceeds 1 MiB")
  return (data, host.sha256 data)

/-- The stream of the events of a binding. -/
def streamOf (binding : BindingId) : String := binding ++ ":shot.text_binding"

/-- `expected_head` of a body. -/
def expectedHead (fields : Json.Fields) (least : Int) (message : String) : Except Err Nat :=
  match field fields "expected_head" with
  | .int n => do
    require (least ≤ n) (.validation message)
    return n.toNat
  | _ => .error (.validation message)

/-- A row that the friendly selectors of a body may mean. A slot that is given, be it null, selects;
without one every slot of the kind does. -/
def TextBinding.Fits (row : TextBinding) (project : ProjectId) (shot : ShotId)
    (fields : Json.Fields) : Prop :=
  row.projectId = project ∧ row.shotId = shot ∧ field fields "kind" = .str row.kind ∧
    ((fields.get "slot").isSome → field fields "slot" = row.slot.elim .null .str)

instance (row : TextBinding) (project : ProjectId) (shot : ShotId) (fields : Json.Fields) :
    Decidable (row.Fits project shot fields) :=
  inferInstanceAs (Decidable (_ ∧ _))

namespace State

/-! ## Reading -/

variable (s : State) (host : Host) (env : Env) (project : ProjectId)

/-- The object of a digest, when the project manages it. -/
def managedObject (digest : Digest) : Option Object :=
  if (project, digest, "managed") ∈ s.projectObjects then s.objects.lookup digest else none

/-- `_verify_text_object`: the object of a digest, when it is a whole text of the project. -/
def verifyTextObject (digest : String) (candidate : Bool) : Except Err (Digest × Object) := do
  let failed : Err :=
    if candidate then .validation "text media candidate failed integrity"
    else .conflict "bound text media failed integrity"
  let digest := withoutScheme digest
  require (isDigest digest = true) failed
  let object ← orThrow (s.managedObject project digest) failed
  require ("text/".toList.isPrefixOf object.mediaType.toList = true) failed
  require (object.size ≤ textBindingMaxBytes) failed
  match s.files.lookup digest with
  | some (.regular data) => do
    require (data.length = object.size ∧ host.sha256 data = digest ∧ (host.decode data).isSome) failed
    return (digest, object)
  | _ => .error failed

/-- The events of a binding, in their order. -/
def eventsOf (binding : BindingId) : List (Nat × TextBindingEvent) :=
  ((s.textBindingEvents.entries.filter fun e => e.1.1 = binding).map
    fun e => (e.1.2, e.2)).insertionSort fun e e' => e.1 ≤ e'.1

/-- The hash of an event of a binding. -/
def textEventHash (binding : BindingId) (eventId : String) (seq : Nat) (kind : String)
    (payload : Json) (previous : String) : String :=
  host.digest (.obj
    [("binding_id", .str binding), ("event_id", .str eventId), ("kind", .str kind),
     ("payload", payload), ("previous_hash", .str previous), ("seq", .int seq)])

/-- The check of `_text_binding_resource` on the chain of a binding. -/
def checkChain (host : Host) (binding : BindingId) (project : ProjectId) :
    String → List (Nat × TextBindingEvent) → Except Err Unit
  | _, [] => .ok ()
  | previous, (seq, event) :: events => do
    require (event.projectId = project ∧ event.previousHash = previous)
      (.conflict "text binding event chain is corrupt")
    let expected := textEventHash host binding event.eventId seq event.kind event.payload previous
    require (event.eventHash = expected) (.conflict "text binding event hash is corrupt")
    checkChain host binding project expected events

/-- `_text_binding_resource`. -/
def textBindingResource (binding : BindingId) (row : TextBinding) : Except Err Json := do
  let shot ← orThrow (s.shots.lookup row.shotId)
    (.conflict "text binding shot is outside its project")
  require (shot.projectId = row.projectId) (.conflict "text binding shot is outside its project")
  let slot := row.slot.elim .null .str
  let expected ← textBindingId host row.projectId row.shotId (.str row.kind) slot
  require (binding = expected) (.conflict "text binding identity is corrupt")
  require (row.eventStreamId = streamOf expected)
    (.conflict "text binding stream identity is corrupt")
  let events := s.eventsOf binding
  require (row.headSeq = events.length ∧ events.map Prod.fst = List.range' 1 events.length)
    (.conflict "text binding replay ordering is corrupt")
  checkChain host binding row.projectId "" events
  let (digest, media) ← s.verifyTextObject host row.projectId row.mediaDigest false
  return .obj
    [("binding_id", .str binding), ("byte_size", .int media.size),
     ("content_hash", .str ("sha256:" ++ digest)), ("created_at", .str (host.stamp row.createdAt)),
     ("event_stream_id", .str row.eventStreamId), ("head", .int row.headSeq),
     ("kind", .str row.kind), ("media_id", .str ("sha256:" ++ digest)),
     ("mime_type", .str media.mediaType), ("project_id", .str row.projectId),
     ("shot_id", .str row.shotId), ("slot", slot),
     ("updated_at", .str (host.stamp row.updatedAt))]

/-! ## Selecting a binding -/

/-- The shot that a body names, as its value stands there. -/
def shotSelector (fields : Json.Fields) : Json :=
  if (field fields "shot_id").truthy then field fields "shot_id" else field fields "shot_ref"

/-- The id of a shot of the project. -/
def shotOfProject (v : Json) : Except Err ShotId := do
  let id ← orThrow (v.bindText host.numerals) (.keyError "type is not supported")
  let id ← orThrow id (.notFound "shot not found")
  let shot ← orThrow (s.shots.lookup id) (.notFound "shot not found")
  require (shot.projectId = project) (.notFound "shot not found")
  return id

/-- `_resolve_text_binding`. -/
def resolveTextBinding (fields : Json.Fields) : Except Err (BindingId × TextBinding) :=
  if field fields "binding_id" ≠ .null then do
    require (∀ name ∈ ["shot_id", "shot_ref", "kind", "slot"], field fields name = .null)
      (.validation "binding_id cannot be combined with friendly selectors")
    let id := (field fields "binding_id").toText host.numerals
    let row ← orThrow (s.textBindings.lookup id) (.notFound "text binding not found")
    require (row.projectId = project) (.notFound "text binding not found")
    return (id, row)
  else do
    let kind := field fields "kind"
    let slot := field fields "slot"
    require ((shotSelector fields).truthy = true ∧ kind.truthy = true)
      (.validation "shot_id and kind are required")
    let shot ← s.shotOfProject host project (shotSelector fields)
    let _ ← textBindingId host project shot kind slot
    match s.textBindings.entries.filter fun e => e.2.Fits project shot fields with
    | [] => .error (.notFound "text binding not found")
    | [entry] => .ok entry
    | _ => .error (.conflict "text binding selector is ambiguous")

/-! ## Writing -/

/-- The project manages the object. -/
def manage (digest : Digest) : State :=
  if (project, digest, "managed") ∈ s.projectObjects then s
  else { s with projectObjects := s.projectObjects ++ [(project, digest, "managed")] }

/-- `_materialize_text_object`. -/
def materializeTextObject (data : List UInt8) (digest : Digest) : Except Err State :=
  match s.objects.lookup digest with
  | some object => do
    let failed := Err.validation "text media candidate failed integrity"
    require ("text/".toList.isPrefixOf object.mediaType.toList = true ∧
      object.size ≤ textBindingMaxBytes) failed
    require (isDigest digest = true ∧ s.files.lookup digest = some (.regular data)) failed
    return s.manage project digest
  | none => do
    require (isDigest digest = true) (.validation "invalid SHA-256 digest")
    let objects ← orThrow (s.objects.insertNew digest { size := data.length, mediaType := "text/plain" })
      (.integrity "objects")
    -- bytes that are at the place already stay as they are
    return { s with objects, files := s.files.insertIgnore digest (.regular data) }.manage project
      digest

/-- The object of a text that a binding moves to: one that the project has is verified, any other is
made. -/
def supplyTextObject (data : List UInt8) (digest : Digest) : Except Err State :=
  match s.managedObject project digest with
  | none => s.materializeTextObject project data digest
  | some _ => (s.verifyTextObject host project digest true).map fun _ => s

/-- `_record_text_binding_event`, and the head of the binding that the caller sets after it. -/
def recordTextBindingEvent (binding : BindingId) (row : TextBinding) (kind : String)
    (payload : Json) (media : Digest) (now : Time) : Except Err State := do
  let previous := (((s.eventsOf binding).getLast?).map fun e => e.2.eventHash).getD ""
  let seq := row.headSeq + 1
  let eventId := host.uuid (streamOf binding ++ ":" ++ toString seq)
  let event : TextBindingEvent :=
    { eventId, projectId := row.projectId, kind, payload, previousHash := previous
      eventHash := textEventHash host binding eventId seq kind payload previous, createdAt := now }
  require (∀ e ∈ s.textBindingEvents.entries, e.2.eventId ≠ eventId)
    (.integrity "shot_text_binding_events")
  let textBindingEvents ← orThrow (s.textBindingEvents.insertNew (binding, seq) event)
    (.integrity "shot_text_binding_events")
  return { s with
    textBindingEvents
    textBindings := s.textBindings.upsert binding
      { row with mediaDigest := media, headSeq := seq, updatedAt := now } }

/-- The end of a call that changed a binding: its resource, recorded in the ledger. -/
def finishTextBinding (kind : Kind) (binding : BindingId) (key : Option String) (request : Json)
    (now : Time) : Except Err (State × Answer) := do
  let row ← orThrow (s.textBindings.lookup binding) (.notFound "text binding not found")
  let data ← s.textBindingResource host binding row
  let ledger ← s.ledger.record kind binding key request data now
  return ({ s with ledger }, { data, receipted := true })

/-- The creation of a binding. -/
def createTextBinding (shot : ShotId) (kind slot : Json) (binding : BindingId) (data : List UInt8)
    (digest : Digest) (now : Time) : Except Err State := do
  let s ← s.materializeTextObject project data digest
  let row : TextBinding :=
    { projectId := project, shotId := shot, kind := kind.asStr.getD "", slot := slot.asStr
      mediaDigest := digest, eventStreamId := streamOf binding, headSeq := 0
      createdAt := now, updatedAt := now }
  require (∀ e ∈ s.textBindings.entries, e.2.eventStreamId ≠ streamOf binding)
    (.integrity "shot_text_bindings")
  let textBindings ← orThrow (s.textBindings.insertNew binding row) (.integrity "shot_text_bindings")
  { s with textBindings }.recordTextBindingEvent host binding row "shot.text_binding.created"
    (.obj [("binding_id", .str binding), ("content_hash", .str ("sha256:" ++ digest)),
      ("media_id", .str ("sha256:" ++ digest))]) digest now

/-- The event of a binding that moves to another object. -/
def moveTextBinding (binding : BindingId) (row : TextBinding) (previous digest : Digest)
    (now : Time) : Except Err State :=
  s.recordTextBindingEvent host binding row "shot.text_binding.rebound"
    (.obj [("binding_id", .str binding), ("content_hash", .str ("sha256:" ++ digest)),
      ("media_id", .str ("sha256:" ++ digest)),
      ("previous_media_id", .str ("sha256:" ++ previous))]) digest now

/-! ## Commands -/

/-- What the ledger compares of a call of `set_project_shot_text_binding`. -/
def setRequest (binding : BindingId) (stream : String) (expected : Nat) (digest : Digest) : Json :=
  .obj [("binding_id", .str binding), ("command_kind", .str "shot.text_binding.set"),
    ("desired_content_hash", .str ("sha256:" ++ digest)), ("event_stream_id", .str stream),
    ("expected_head", .int expected), ("project_id", .str project)]

/-- The shot and the id of the binding that a caller who expects head 0 asks for. -/
def newTextBinding (fields : Json.Fields) : Except Err (ShotId × BindingId) := do
  require (field fields "binding_id" = .null) (.validation "head 0 requires a friendly shot selector")
  let selector := shotSelector fields
  let kind := field fields "kind"
  let slot := field fields "slot"
  require (selector.truthy = true) (.validation "shot_id is required")
  let _ ← textBindingId host project (selector.toText host.numerals) kind slot
  let shot ← s.shotOfProject host project selector
  let binding ← textBindingId host project shot kind slot
  return (shot, binding)

/-- `set_project_shot_text_binding`, for a caller that expects head 0. -/
def setNewTextBinding (fields : Json.Fields) (data : List UInt8) (digest : Digest)
    (key : Option String) : Except Err (State × Answer) := do
  let (shot, binding) ← s.newTextBinding host project fields
  let request := setRequest project binding (streamOf binding) 0 digest
  match ← s.ledger.replay .textBindingSet binding key request env.now with
  | some data => return (s, { data, receipted := true })
  | none => do
    require (s.textBindings.lookup binding = none) (.conflict "text binding head is stale")
    let s ← s.createTextBinding host project shot (field fields "kind") (field fields "slot") binding
      data digest env.now
    s.finishTextBinding host .textBindingSet binding key request env.now

/-- `set_project_shot_text_binding`, for a caller that expects a later head. -/
def setHeldTextBinding (fields : Json.Fields) (expected : Nat) (data : List UInt8) (digest : Digest)
    (key : Option String) : Except Err (State × Answer) := do
  let (binding, row) ← s.resolveTextBinding host project fields
  -- the head is compared before the ledger is asked
  require (row.headSeq = expected) (.conflict "text binding head is stale")
  let request := setRequest project binding row.eventStreamId expected digest
  match ← s.ledger.replay .textBindingSet binding key request env.now with
  | some data => return (s, { data, receipted := true })
  | none => do
    let _ ← s.textBindingResource host binding row
    let s ← s.supplyTextObject host project data digest
    if row.mediaDigest = digest then do
      let data ← s.textBindingResource host binding row
      return (s, { data, receipted := false })
    else do
      let s ← s.moveTextBinding host binding row row.mediaDigest digest env.now
      s.finishTextBinding host .textBindingSet binding key request env.now

/-- `set_project_shot_text_binding`. -/
def setProjectShotTextBinding (selector : String) (body : Json) (key : Option String) :
    Except Err (State × Answer) := do
  let _ ← requireIdempotencyKey key
  let fields ← objectBody body
  let project ← s.getProject selector
  let expected ← expectedHead fields 0 "expected_head must be a non-negative integer"
  let (data, digest) ← freezeText host (field fields "text")
  if expected = 0 then s.setNewTextBinding host env project fields data digest key
  else s.setHeldTextBinding host env project fields expected data digest key

/-- What the ledger compares of a call of `rebind_project_shot_text_binding`. -/
def rebindRequest (binding : BindingId) (stream : String) (expected : Nat) (digest : Digest) :
    Json :=
  .obj [("binding_id", .str binding), ("command_kind", .str "shot.text_binding.rebind"),
    ("desired_content_hash", .str ("sha256:" ++ digest)),
    ("desired_media_id", .str ("sha256:" ++ digest)), ("event_stream_id", .str stream),
    ("expected_head", .int expected), ("project_id", .str project)]

/-- The object that a body names. -/
def desiredDigest (fields : Json.Fields) : Digest :=
  let named := if (field fields "media_id").truthy then field fields "media_id"
    else field fields "content_hash"
  withoutScheme (if named.truthy then named.toText host.numerals else "")

/-- `rebind_project_shot_text_binding`. -/
def rebindProjectShotTextBinding (selector : String) (body : Json) (key : Option String) :
    Except Err (State × Answer) := do
  let _ ← requireIdempotencyKey key
  let fields ← objectBody body
  let project ← s.getProject selector
  let expected ← expectedHead fields 1 "rebind requires a positive expected_head"
  let (binding, row) ← s.resolveTextBinding host project fields
  require (row.headSeq = expected) (.conflict "text binding head is stale")
  let digest := desiredDigest host fields
  require (isDigest digest = true) (.validation "media_id must be a SHA-256 object id")
  let request := rebindRequest project binding row.eventStreamId expected digest
  match ← s.ledger.replay .textBindingRebind binding key request env.now with
  | some data => return (s, { data, receipted := true })
  | none => do
    let data ← s.textBindingResource host binding row
    let _ ← s.verifyTextObject host project digest true
    if row.mediaDigest = digest then return (s, { data, receipted := false })
    else do
      let s ← s.moveTextBinding host binding row (withoutScheme row.mediaDigest) digest env.now
      s.finishTextBinding host .textBindingRebind binding key request env.now

end State

end WorkspaceRuntime.Project
