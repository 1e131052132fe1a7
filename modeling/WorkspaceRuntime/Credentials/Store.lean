import Mathlib.Data.List.Sort
import Mathlib.Data.List.Dedup
import WorkspaceRuntime.Lib.Crash
import WorkspaceRuntime.Lib.Fallible
import WorkspaceRuntime.Model.State

/-!
# The credential store

`CredentialStore` keeps three files for each actor: the bearer token, its metadata and a commit marker
with the digests of the other two. It replaces and removes them one at a time, and keeps the set of
disabled actors in memory only. A digest is modelled by the bytes it is taken of, and a metadata file
by the JSON value it decodes to. A file with a temporary name is not part of the store.
-/

namespace WorkspaceRuntime.Credentials

open Fallible

/-- What the interpreter does with text and with decoded values: `str.strip` and `==`. -/
structure Python where
  strip : String → String
  equal : Json → Json → Bool

/-- The content of a commit marker. -/
structure Commit where
  tokenSha256 : String
  metadataSha256 : Json
  deriving DecidableEq

/-- The three files of an actor. -/
structure Files where
  token : Option String
  metadata : Option Json
  commit : Option Commit
  deriving DecidableEq

/-- No files. -/
def Files.absent : Files := ⟨none, none, none⟩

/-- The directory of the store: the files of each actor. -/
abbrev Directory := String → Files

/-- Change the files of one actor. -/
def Directory.modify (d : Directory) (actor : String) (f : Files → Files) : Directory :=
  Function.update d actor (f (d actor))

/-- `_disabled_actors`. -/
abbrev Disabled := List String

/-! ## Reading -/

/-- Whether two dots follow one another. -/
def hasDots : List Char → Bool
  | '.' :: '.' :: _ => true
  | _ :: cs => hasDots cs
  | [] => false

/-- `_actor`. -/
def checkActor (actor : String) : Except Err Unit :=
  require
    (actor ≠ "" ∧ '/' ∉ actor.toList ∧ '\\' ∉ actor.toList ∧ ':' ∉ actor.toList ∧
      hasDots actor.toList = false)
    (.validation "invalid actor")

/-- `_read_actor`: the token and the metadata of a committed generation. -/
def readActor (py : Python) (f : Files) : Except Err (String × Json) := do
  let token ← orThrow f.token (.validation "credential token is unavailable")
  let metadata ← orThrow f.metadata (.validation "credential metadata is unavailable")
  let commit ← orThrow f.commit (.validation "credential commit is unavailable")
  require
    (py.strip token ≠ "" ∧ metadata.asObj.isSome ∧ commit.tokenSha256 = token ∧
      commit.metadataSha256 = metadata)
    (.validation "credential generation is inconsistent")
  return (py.strip token, metadata)

/-- `_legacy_pair`: the token and the metadata of a store without commit marker. -/
def legacyPair (py : Python) (f : Files) : Option (String × Json) :=
  match f.token, f.metadata, f.commit with
  | some token, some metadata, none =>
    if py.strip token ≠ "" ∧ metadata.asObj.isSome then some (py.strip token, metadata) else none
  | _, _, _ => none

/-- What `provision` finds: the committed generation, or else the pair without marker. -/
def current (py : Python) (f : Files) : Option (String × Json) :=
  match readActor py f with
  | .ok pair => some pair
  | .error _ => legacyPair py f

/-- The loop of `load` over the token files. -/
def loadFrom (py : Python) (d : Directory) (disabled : Disabled) (token : String) :
    List String → Except Err Json
  | [] => .error (.authorization "invalid bearer credential")
  | actor :: listing =>
    if actor ∈ disabled then loadFrom py d disabled token listing
    else
      match readActor py (d actor) with
      | .ok (expected, metadata) =>
        if expected = token then .ok metadata else loadFrom py d disabled token listing
      | .error _ => loadFrom py d disabled token listing

/-- `load`, with the actors in the order in which the directory lists their token files. -/
def load (py : Python) (listing : List String) (d : Directory) (disabled : Disabled)
    (token : String) : Except Err Json := do
  require (token ≠ "") (.authorization "bearer credential required")
  loadFrom py d disabled token listing

/-! ## Commands -/

/-- The arguments of `provision`; `fresh` is what `secrets.token_urlsafe` returns in it. -/
structure Provision where
  actor : String
  scopes : List String
  metadata : Json
  rotate : Bool
  enabled : Bool
  fresh : String
  deriving DecidableEq

/-- `sorted(set(scopes))`. -/
def sortedScopes (scopes : List String) : Json :=
  .arr ((scopes.dedup.insertionSort (· ≤ ·)).map .str)

/-- The metadata that identifies an actor. -/
def identityOf (actor : String) (scopes : List String) (metadata : Json.Fields) : Json :=
  .obj ((metadata.set "scopes" (sortedScopes scopes)).set "actor" (.str actor))

/-- The checks of `provision`, and the metadata it expects. -/
def Provision.expected (r : Provision) : Except Err Json := do
  checkActor r.actor
  let metadata ←
    match r.metadata with
    | .null => .ok []
    | .obj fields => .ok fields
    | _ => .error (.validation "credential metadata must be an object")
  require ("actor" ∉ Json.Fields.keys metadata ∧ "scopes" ∉ Json.Fields.keys metadata)
    (.validation "credential metadata cannot override actor or scopes")
  return identityOf r.actor r.scopes metadata

/-- The token that `provision` keeps because its metadata are the expected ones. -/
def Provision.kept (py : Python) (r : Provision) (f : Files) (expected : Json) : Option String :=
  if r.rotate then none
  else ((current py f).filter fun pair => py.equal pair.2 expected).map Prod.fst

/-- The commit marker of the token and the metadata in the directory. -/
def Files.commitValue (f : Files) : Option Commit :=
  match f.token, f.metadata with
  | some token, some metadata => some ⟨token, metadata⟩
  | _, _ => f.commit

/-- A program of the store. -/
abbrev Action := Prog Directory Disabled

/-- What a command returns: `provision` the token, the others nothing. -/
abbrev Answer := Except Err (Option String)

/-- Replace or remove files of an actor in one file operation. -/
def replace (actor : String) (f : Files → Files) : Action Unit := .store (·.modify actor f)

/-- `_publish`. -/
def publish (actor token : String) (value : Json) : Action Unit := do
  replace actor ({ · with token := some token })
  replace actor ({ · with metadata := some value })
  replace actor ({ · with commit := some ⟨token, value⟩ })

/-- Take an actor out of the disabled ones, or put it among them. -/
def setEnabled (actor : String) (enabled : Bool) : Action Unit :=
  .remember fun disabled => if enabled then disabled.filter (· ≠ actor) else actor :: disabled

/-- `provision`. -/
def provision (py : Python) (r : Provision) : Action Answer :=
  match r.expected with
  | .error e => pure (.error e)
  | .ok expected => do
    let d ← .disk
    match r.kept py (d r.actor) expected with
    | some token =>
      if (d r.actor).commit = none then
        replace r.actor fun f => { f with commit := f.commitValue }
      setEnabled r.actor r.enabled
      return .ok (some token)
    | none =>
      publish r.actor r.fresh expected
      setEnabled r.actor r.enabled
      return .ok (some r.fresh)

/-- The checks of `provision_static`. -/
def checkStatic (actor token : String) : Except Err Unit := do
  require (token ≠ "") (.validation "credential cannot be empty")
  checkActor actor

/-- `provision_static`. -/
def provisionStatic (actor token : String) (scopes : List String) : Action Answer :=
  match checkStatic actor token with
  | .error e => pure (.error e)
  | .ok () => do
    publish actor token (identityOf actor scopes [])
    setEnabled actor true
    return .ok none

/-- `disable_actor`. -/
def disableActor (actor : String) : Action Answer :=
  match checkActor actor with
  | .error e => pure (.error e)
  | .ok () => do
    setEnabled actor false
    return .ok none

/-- `enable_actor`. -/
def enableActor (py : Python) (actor : String) : Action Answer :=
  match checkActor actor with
  | .error e => pure (.error e)
  | .ok () => do
    let d ← .disk
    match readActor py (d actor) with
    | .error e => return .error e
    | .ok _ =>
      setEnabled actor true
      return .ok none

/-- `revoke`. -/
def revoke (actor : String) : Action Answer :=
  match checkActor actor with
  | .error e => pure (.error e)
  | .ok () => do
    setEnabled actor false
    replace actor ({ · with commit := none })
    replace actor ({ · with metadata := none })
    replace actor ({ · with token := none })
    return .ok none

/-- The commands that change the store. -/
inductive Command where
  | provision (r : Provision)
  | provisionStatic (actor token : String) (scopes : List String)
  | disableActor (actor : String)
  | enableActor (actor : String)
  | revoke (actor : String)
  deriving DecidableEq

/-- The process that owns the store: it starts with no actor disabled. -/
def machine (py : Python) : Machine Directory Disabled Command Answer where
  boot := []
  prog
    | .provision r => provision py r
    | .provisionStatic actor token scopes => provisionStatic actor token scopes
    | .disableActor actor => disableActor actor
    | .enableActor actor => enableActor py actor
    | .revoke actor => revoke actor

/-- What can happen to the store. -/
abbrev Event := Machine.Event Command

end WorkspaceRuntime.Credentials
