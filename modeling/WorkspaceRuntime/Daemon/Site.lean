import WorkspaceRuntime.Lib.Fault
import WorkspaceRuntime.System

/-!
# The daemon and the directories it replaces

A daemon serves the realm at one path, the active root. Its support directory, outside the realm,
holds the floor of the runtime epochs and the receipt of the last replacement. A replacement moves the
active root aside and a verified candidate into its place, by two renames in the directory that holds
both, and moves them back when a later step raises. Every step that can fail has a label (`Step`), so
that a plan of faults decides where a procedure raises or the process crashes. `Site.served` is a
record of the model: the sessions that have served requests, and the attempts they issued.
-/

namespace WorkspaceRuntime.Daemon

/-! ## What is on disk -/

/-- A name in the directory that holds the active root. -/
inductive Name where
  | root
  | sibling (name : String)
  deriving DecidableEq, Repr

/-- A realm directory. -/
structure Tree where
  inode : Nat
  db : State
  /-- Nothing of it has been removed. -/
  whole : Bool
  /-- `verify_restore_candidate` accepts it. -/
  verified : Bool
  complete : verified = true → whole = true

/-- A directory of which part has been removed. -/
def Tree.damaged (tree : Tree) : Tree :=
  { tree with whole := false, verified := false, complete := by simp }

/-- The field `state` of the receipt. -/
inductive Stage where
  | verified | ownerStopped | oldQuarantined | candidatePublished
  | offlineVerified | offlineCandidatePublished
  | complete | cleanupPending | rolledBack | rollbackFailed
  deriving DecidableEq, Repr

/-- `replacement-state.json`. -/
structure Receipt where
  state : Stage
  candidate : Name
  superseded : Option Name
  retainSuperseded : Bool
  deriving DecidableEq, Repr

/-- A session that served requests, and the attempts it issued with their epochs. -/
structure Served where
  inode : Nat
  epoch : Nat
  issued : List (AttemptId × Nat)
  deriving DecidableEq, Repr

/-- The disk, and the memory of the daemon. -/
structure Site where
  dir : Name → Option Tree
  /-- `runtime-epoch-floor.json`. -/
  floor : Option Int
  receipt : Option Receipt
  backups : List State
  served : List Served
  /-- The directory whose realm the daemon has open. -/
  service : Option Nat
  /-- The daemon has its listeners. -/
  httpd : Bool
  /-- The listeners accept requests. -/
  serving : Bool

/-- A crash: the memory is lost. -/
def Site.reboot (w : Site) : Site := { w with service := none, httpd := false, serving := false }

/-- Set what a name refers to. -/
def Site.put (w : Site) (n : Name) (tree : Option Tree) : Site :=
  { w with dir := Function.update w.dir n tree }

/-- `os.rename`. -/
def Site.move (w : Site) (source target : Name) : Site :=
  (w.put target (w.dir source)).put source none

/-! ## Steps -/

/-- Where a realm is opened. -/
inductive Phase where
  | boot | publication | rollback
  deriving DecidableEq, Repr

/-- The steps of `_start`. -/
inductive StartStep where
  | admission | session | recovery | provision | floor | announce | serve | services
  deriving DecidableEq, Repr

/-- Where the daemon stops. -/
inductive StopPoint where
  | command | replacement | rollback | services (phase : Phase)
  deriving DecidableEq, Repr

/-- A directory that is removed. -/
inductive Removal where
  | superseded | candidate | leftover
  deriving DecidableEq, Repr

/-- The steps that can fail. -/
inductive Step where
  | start (phase : Phase) (s : StartStep)
  | closeListeners (point : StopPoint)
  | closeService (point : StopPoint)
  | receipt (state : Stage)
  | receiptCleared
  | capture | fences | verification | secondVerification | custody
  | verifyBackup | restoreBegin | restoreFinish
  | quarantine | quarantineSynced | publish | publishSynced
  | rollbackCandidate | rollbackRoot | rollbackSynced
  | removeBegin (which : Removal)
  | removeFinish (which : Removal)
  deriving DecidableEq, Repr

/-- A procedure of the daemon. -/
abbrev Action := Proc Step Site

open Proc

/-- `os.rename` of a directory, which must be there, to a name that must be free. -/
def rename (l : Step) (source target : Name) : Action Unit := do
  let w ← get
  require ((w.dir source).isSome ∧ (w.dir target).isNone)
  step l (·.move source target)

/-- `shutil.rmtree`: it can stop when part of the directory is gone. -/
def rmtree (which : Removal) (n : Name) : Action Unit := do
  step (.removeBegin which) fun w => w.put n ((w.dir n).map Tree.damaged)
  step (.removeFinish which) (·.put n none)

/-! ## Starting and stopping -/

/-- `stop`: first of all, no further request is accepted. -/
def stop (point : StopPoint) : Action Unit := do
  update ({ · with serving := false })
  step (.closeListeners point) ({ · with httpd := false })
  step (.closeService point) ({ · with service := none })

/-- `_write_epoch_floor`. -/
def Site.writeEpochFloor (w : Site) (epoch : Nat) : Site := { w with floor := some epoch }

/-- The listener threads are started. -/
def Site.serve (w : Site) (inode epoch : Nat) : Site :=
  { w with serving := true, served := w.served ++ [⟨inode, epoch, []⟩] }

/-- `_start` after the realm was found at the active root. -/
def startRealm (phase : Phase) (tree : Tree) (floor : Int) (boot : String) (now : Time) :
    Action Unit := do
  check (.start phase .admission)
  match tree.db.beginRuntimeSession boot (some floor) now with
  | .error _ => raise
  | .ok db =>
    step (.start phase .session) (·.put .root (some { tree with db := db }))
    check (.start phase .recovery)
    update ({ · with service := some tree.inode })
    check (.start phase .provision)
    update ({ · with httpd := true })
    step (.start phase .floor) (·.writeEpochFloor db.currentRuntimeEpoch)
    check (.start phase .announce)
    step (.start phase .serve) (·.serve tree.inode db.currentRuntimeEpoch)
    (check (.start phase .services)).handle (stop (.services phase))

/-- `_start`. -/
def start_ (phase : Phase) (boot : String) (now : Time) : Action Unit := do
  let w ← get
  require (0 ≤ w.floor.getD 0)
  match w.dir .root with
  | none => raise
  | some tree =>
    -- the owner lock of the realm is free
    require (w.service ≠ some tree.inode)
    startRealm phase tree (w.floor.getD 0) boot now

/-- The names that `_cleanup_completed_replacement` may remove. -/
def Name.superseded : Name → Bool
  | .root => false
  | .sibling name => "superseded-".toList.isPrefixOf name.toList

/-- The directory that a receipt allows to remove. -/
def Receipt.leftover (r : Receipt) : Option Name :=
  if (r.state = .complete ∨ r.state = .cleanupPending) ∧ r.retainSuperseded = false then
    r.superseded.filter Name.superseded
  else none

/-- `_cleanup_completed_replacement`. -/
def cleanupCompletedReplacement : Action Unit := do
  let w ← get
  match w.receipt.bind fun r => r.leftover.map fun n => (r, n) with
  | none => pure ()
  | some (r, n) =>
    if (w.dir n).isSome then
      quietly do
        rmtree .leftover n
        step .receiptCleared
          ({ · with receipt := some { r with state := .complete, superseded := none } })

/-- `start`. -/
def start (boot : String) (now : Time) : Action Unit := do
  let w ← get
  if w.httpd then
    pure ()
  else
    start_ .boot boot now
    cleanupCompletedReplacement

/-! ## Replacing the active realm -/

/-- The arguments of a replacement, the identifiers it generates, and the time. -/
structure Replacement where
  candidate : Name
  supersededId : String
  retainSuperseded : Bool
  boot : String
  rollbackBoot : String
  now : Time

/-- The name under which the old realm is kept. -/
def Replacement.superseded (r : Replacement) : Name := .sibling ("superseded-" ++ r.supersededId)

/-- `_write_replacement_state`. -/
def writeReplacementState (l : Step) (state : Stage) (r : Replacement) (superseded : Option Name)
    (retain : Bool) : Action Unit :=
  step l ({ · with receipt := some ⟨state, r.candidate, superseded, retain⟩ })

/-- The receipt of a stage of a replacement that may still be rolled back. -/
def writeStage (r : Replacement) (state : Stage) : Action Unit :=
  writeReplacementState (.receipt state) state r (some r.superseded) r.retainSuperseded

/-- The renames that undo a replacement, as far as it went. -/
def restoreNames (r : Replacement) (movedOld movedCandidate : Bool) : Action Unit := do
  let w ← get
  if movedCandidate ∧ (w.dir r.candidate).isNone ∧ (w.dir .root).isSome then
    rename .rollbackCandidate .root r.candidate
  let w ← get
  if movedOld ∧ (w.dir .root).isNone ∧ (w.dir r.superseded).isSome then
    rename .rollbackRoot r.superseded .root
  check .rollbackSynced

/-- The end of a replacement whose candidate is serving. -/
def completeReplacement (r : Replacement) : Action Unit := do
  quietly (writeStage r .complete)
  if r.retainSuperseded = false then
    orElse
      (do
        rmtree .superseded r.superseded
        quietly (writeReplacementState .receiptCleared .complete r none false))
      (quietly (writeReplacementState (.receipt .cleanupPending) .cleanupPending r
        (some r.superseded) false))

/-- The exception handler of `activate_candidate` before the candidate is serving. -/
def rollback (r : Replacement) (movedOld movedCandidate : Bool) : Action Unit := do
  quietly (stop .rollback)
  handle
    (do
      restoreNames r movedOld movedCandidate
      let w ← get
      writeReplacementState (.receipt .rolledBack) .rolledBack r
        (if (w.dir r.superseded).isSome then some r.superseded else none) false)
    (quietly (writeReplacementState (.receipt .rollbackFailed) .rollbackFailed r
      (some r.superseded) false))
  quietly (start_ .rollback r.rollbackBoot r.now)

/-- The checks of a candidate directory. -/
def requireVerified (r : Replacement) : Action Unit := do
  let w ← get
  require ((w.dir r.candidate).any (·.verified))

/-- The end of both `try` blocks: the candidate is at the active root and is started. -/
def publication (r : Replacement) (state : Stage) : Action Unit := do
  check .publishSynced
  writeStage r state
  start_ .publication r.boot r.now

/-- The `try` block of `activate_candidate` up to the first rename. -/
def prepareActivation (r : Replacement) : Action Unit := do
  check .fences
  check .verification
  requireVerified r
  writeStage r .verified
  stop .replacement
  writeStage r .ownerStopped
  check .secondVerification
  requireVerified r
  rename .quarantine .root r.superseded

/-- The `try` block of `activate_candidate` while the active root is free. -/
def exposeActivation (r : Replacement) : Action Unit := do
  check .quarantineSynced
  writeStage r .oldQuarantined
  rename .publish r.candidate .root

/-- `activate_candidate`. The exception handler sees how far the renames went, so each part of the
`try` block has its own. -/
def activateCandidate (r : Replacement) : Action Unit := do
  let w ← get
  require (w.service.isSome ∧ w.httpd = true)
  require (r.candidate ≠ .root ∧ (w.dir r.candidate).isSome)
  check .capture
  handle (prepareActivation r) (rollback r false false)
  handle (exposeActivation r) (rollback r true false)
  handle (publication r .candidatePublished) (rollback r true true)
  completeReplacement r

/-- The exception handler of `replace_from_backup`. -/
def offlineRollback (r : Replacement) (movedOld movedCandidate : Bool) : Action Unit := do
  quietly (stop .rollback)
  handle
    (do
      restoreNames r movedOld movedCandidate
      writeReplacementState (.receipt .rolledBack) .rolledBack r none false)
    (quietly (writeReplacementState (.receipt .rollbackFailed) .rollbackFailed r
      (some r.superseded) false))
  let w ← get
  if (w.dir r.candidate).isSome then rmtree .candidate r.candidate

/-- `restore_backup`; a candidate that was not finished is removed. -/
def restoreBackup (n : Name) (tree : Tree) : Action Unit :=
  handle
    (do
      step .restoreBegin (·.put n (some tree.damaged))
      step .restoreFinish (·.put n (some tree)))
    (quietly (rmtree .candidate n))

/-- The `try` block of `replace_from_backup` up to the first rename. -/
def prepareOffline (r : Replacement) : Action Unit := do
  check .fences
  check .verification
  requireVerified r
  check .custody
  writeStage r .offlineVerified
  rename .quarantine .root r.superseded

/-- The `try` block of `replace_from_backup` while the active root is free. -/
def exposeOffline (r : Replacement) : Action Unit := do
  check .quarantineSynced
  rename .publish r.candidate .root

/-- The directory that `restore_backup` makes; `accepted` is whether it verifies. -/
def restored (backup : State) (inode : Nat) (accepted : Bool) : Tree :=
  ⟨inode, backup, true, accepted, fun _ => rfl⟩

/-- `replace_from_backup`. -/
def replaceFromBackup (r : Replacement) (backup : State) (inode : Nat) (accepted : Bool) :
    Action Unit := do
  let w ← get
  require (w.service = none ∧ w.httpd = false)
  require (backup ∈ w.backups)
  check .verifyBackup
  -- the generated name of the candidate is free and is not one of a superseded realm
  require ((w.dir .root).isSome ∧ r.candidate ≠ .root ∧ r.candidate.superseded = false ∧
    (w.dir r.candidate).isNone)
  restoreBackup r.candidate (restored backup inode accepted)
  check .capture
  handle (prepareOffline r) (offlineRollback r false false)
  handle (exposeOffline r) (offlineRollback r true false)
  handle (publication r .offlineCandidatePublished) (offlineRollback r true true)
  completeReplacement r

end WorkspaceRuntime.Daemon
