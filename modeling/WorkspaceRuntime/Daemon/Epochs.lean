import WorkspaceRuntime.Daemon.Positions
import WorkspaceRuntime.Lib.Run
import WorkspaceRuntime.Refine.Epoch

/-!
# Epochs are not used twice

The epoch of a session is stored in the realm, and an older backup of the realm brings an older epoch
back. The floor is stored outside the realm and is written before the listeners accept requests. So a
history of the daemon (`Event`, `Site.next`) keeps one fact (`Site.Fenced`): every epoch that was
served, or that an attempt was issued under, is at most the floor. A session starts above the floor,
and the steps between the two writes are steps of a session that has not served anything.
-/

namespace WorkspaceRuntime.Daemon

open Proc

/-! ## Histories of the daemon -/

/-- A request to the service. Sessions are begun by the daemon, not by a request. -/
structure Request where
  env : Env
  command : Command
  session : ∀ boot floor, command ≠ .beginRuntimeSession boot floor

/-- The attempts that are new in a database, with their epochs. -/
def newAttempts (before after : State) : List (AttemptId × Nat) :=
  (after.attempts.entries.filter fun e => (before.attempts.lookup e.1).isNone).map fun e =>
    (e.1, e.2.runtimeEpoch)

/-- The session issues attempts. -/
def Served.issue (x : Served) (attempts : List (AttemptId × Nat)) : Served :=
  { x with issued := x.issued ++ attempts }

/-- The last session issues attempts. -/
def issueLast (served : List Served) (attempts : List (AttemptId × Nat)) : List Served :=
  served.dropLast ++ served.getLast?.toList.map (·.issue attempts)

/-- A request while the listeners accept requests. -/
def Site.request (w : Site) (r : Request) : Site :=
  match w.dir .root with
  | none => w
  | some tree =>
    if w.serving then
      let db := r.command.next r.env tree.db
      { w.put .root (some { tree with db }) with
        served := issueLast w.served (newAttempts tree.db db) }
    else w

/-- `create_backup` of the realm at the active root. -/
def Site.backup (w : Site) : Site :=
  { w with backups := w.backups ++ (w.dir .root).toList.map (·.db) }

/-- `restore_backup` into a directory beside the active root. -/
def restoreCandidate (n : Name) (backup : State) (inode : Nat) (accepted : Bool) : Action Unit := do
  let w ← get
  require (backup ∈ w.backups ∧ n ≠ .root ∧ (w.dir n).isNone)
  restoreBackup n (restored backup inode accepted)

/-- What happens at a site. The plan of a procedure may crash it before any of its steps. -/
inductive Event where
  | start (boot : String) (now : Time) (plan : Plan Step)
  | stop (plan : Plan Step)
  | request (r : Request)
  | backup
  | restore (n : Name) (backup : State) (inode : Nat) (accepted : Bool) (plan : Plan Step)
  | activate (r : Replacement) (plan : Plan Step)
  | replace (r : Replacement) (backup : State) (inode : Nat) (accepted : Bool) (plan : Plan Step)
  | crash

/-- The site after a procedure. -/
def Site.perform (w : Site) (plan : Plan Step) (p : Action Unit) : Site :=
  match p plan w with
  | (.crashed, w') => w'.reboot
  | (_, w') => w'

/-- The site after an event. -/
def Site.next (w : Site) : Event → Site
  | .start boot now plan => w.perform plan (Daemon.start boot now)
  | .stop plan => w.perform plan (Daemon.stop .command)
  | .request r => w.request r
  | .backup => w.backup
  | .restore n backup inode accepted plan =>
    w.perform plan (restoreCandidate n backup inode accepted)
  | .activate r plan => w.perform plan (activateCandidate r)
  | .replace r backup inode accepted plan =>
    w.perform plan (replaceFromBackup r backup inode accepted)
  | .crash => w.reboot

/-! ## The invariant -/

/-- The epoch of a session and those of the attempts it issued. -/
def Served.epochs (x : Served) : List Nat := x.epoch :: x.issued.map Prod.snd

/-- The session is the one that the database at the active root is in. -/
structure Site.Live (w : Site) (tree : Tree) (x : Served) : Prop where
  root : w.dir .root = some tree
  service : w.service = some tree.inode
  httpd : w.httpd = true
  last : w.served.getLast? = some x
  epoch : x.epoch = tree.db.currentRuntimeEpoch
  floor : w.floor = some (x.epoch : Int)

/-- No served epoch is above the floor, and each session is above all that was served before it. -/
structure Site.Fenced (w : Site) : Prop where
  trees : ∀ n tree, w.dir n = some tree → Inv tree.db
  backups : ∀ db ∈ w.backups, Inv db
  below : ∀ x ∈ w.served, ∀ e ∈ x.epochs, (e : Int) ≤ w.floor.getD 0
  rising : w.served.Pairwise fun x y => ∀ e ∈ x.epochs, e < y.epoch
  live : w.serving = true → ∃ tree x, w.Live tree x

/-- Nothing is served. -/
structure Site.Idle (w : Site) : Prop where
  fenced : w.Fenced
  serving : w.serving = false

variable {w : Site} {plan : Plan Step} {n : Name} {l : Step} {tree : Tree} {which : Removal}
  {state : Stage} {superseded : Option Name} {floor : Int} {boot : String} {now : Time}

theorem Site.Fenced.unserved (h : w.Fenced) : ({ w with serving := false } : Site).Idle :=
  ⟨⟨h.trees, h.backups, h.below, h.rising, nofun⟩, rfl⟩

theorem Site.Fenced.reboot (h : w.Fenced) : w.reboot.Fenced :=
  ⟨h.trees, h.backups, h.below, h.rising, nofun⟩

theorem Site.Fenced.httpd (h : w.Fenced) (hclosed : w.httpd = false) : w.Idle := by
  refine ⟨h, ?_⟩
  by_contra hserving
  obtain ⟨_, _, hlive⟩ := h.live (by simpa using hserving)
  simp [hlive.httpd] at hclosed

/-- The trees after a name is set. -/
theorem Site.trees_put {tree : Option Tree} (h : ∀ n tree, w.dir n = some tree → Inv tree.db)
    (htree : ∀ t ∈ tree, Inv t.db) :
    ∀ m t, (w.put n tree).dir m = some t → Inv t.db := by
  intro m t hm
  by_cases hmn : m = n
  · subst hmn
    exact htree t (by simpa [Site.put] using hm)
  · exact h m t (by simpa [Site.put, hmn] using hm)

/-- A name beside the active root is set while the realm may be served. -/
theorem Site.Fenced.put (h : w.Fenced) (hn : n ≠ .root) {tree : Option Tree}
    (htree : ∀ t ∈ tree, Inv t.db) : (w.put n tree).Fenced := by
  refine ⟨Site.trees_put h.trees htree, h.backups, h.below, h.rising, fun hserving => ?_⟩
  obtain ⟨realm, x, hlive⟩ := h.live hserving
  exact ⟨realm, x, { hlive with root := by simpa [Site.put, hn.symm] using hlive.root }⟩

/-- Any name is set while nothing is served. -/
theorem Site.Idle.put (h : w.Idle) {tree : Option Tree} (htree : ∀ t ∈ tree, Inv t.db) :
    (w.put n tree).Idle := by
  refine ⟨⟨Site.trees_put h.fenced.trees htree, h.fenced.backups, h.fenced.below, h.fenced.rising,
    fun hserving => ?_⟩, h.serving⟩
  rw [show (w.put n tree).serving = false from h.serving] at hserving
  cases hserving

theorem Site.Idle.move (h : w.Idle) (source target : Name) : (w.move source target).Idle :=
  (h.put fun t ht => h.fenced.trees source t ht).put nofun

/-- The part of a removed directory that is left. -/
theorem Site.inv_damaged (h : w.Fenced) (n : Name) :
    ∀ t ∈ (w.dir n).map Tree.damaged, Inv t.db := by
  intro t ht
  obtain ⟨tree, htree, rfl⟩ := Option.map_eq_some_iff.mp ht
  exact h.trees n tree htree

/-! ## Procedures -/

theorem keeps_idle_rename {source target : Name} :
    Keeps Site.Idle (rename l source target) :=
  keeps_get fun _ => keeps_require.bind fun _ => keeps_step fun _ h => h.move source target

section Put

variable {I : Site → Prop} {n : Name} (hI : ∀ {w}, I w → w.Fenced)
  (hput : ∀ {w tree}, I w → (∀ t ∈ tree, Inv t.db) → I (w.put n tree))

include hI hput

/-- A directory is removed. -/
theorem keeps_rmtree_of_put : Keeps I (rmtree which n) :=
  (keeps_step fun _ h => hput h (Site.inv_damaged (hI h) n)).bind fun _ =>
    keeps_step fun _ h => hput h nofun

/-- A directory is made from a backup. -/
theorem keeps_restoreBackup_of_put (hi : Inv tree.db) :
    Keeps I (restoreBackup n tree) := by
  have hmade : Keeps I (do
      step Step.restoreBegin (·.put n (some tree.damaged))
      step Step.restoreFinish (·.put n (some tree))) := by
    refine (keeps_step fun w h => hput h ?_).bind fun _ => keeps_step fun w h => hput h ?_
    · rintro _ ⟨⟩
      exact hi
    · rintro _ ⟨⟩
      exact hi
  exact hmade.handle (keeps_rmtree_of_put hI hput).quietly

end Put

theorem keeps_idle_rmtree : Keeps Site.Idle (rmtree which n) :=
  keeps_rmtree_of_put (fun h => h.fenced) fun h => h.put

theorem keeps_fenced_rmtree (hn : n ≠ .root) :
    Keeps Site.Fenced (rmtree which n) :=
  keeps_rmtree_of_put (fun h => h) fun h => h.put hn

/-- The receipt is not part of the invariant. -/
theorem Site.Fenced.receipt (h : w.Fenced) {rec : Option Receipt} :
    ({ w with receipt := rec } : Site).Fenced := by
  refine { h with live := fun hserving => ?_ }
  obtain ⟨tree, x, hlive⟩ := h.live hserving
  exact ⟨tree, x, { hlive with }⟩

theorem keeps_fenced_write {r : Replacement} {retain : Bool} :
    Keeps Site.Fenced (writeReplacementState l state r superseded retain) :=
  keeps_step fun _ h => h.receipt

theorem keeps_idle_write {r : Replacement} {retain : Bool} :
    Keeps Site.Idle (writeReplacementState l state r superseded retain) :=
  keeps_step fun _ h => ⟨h.fenced.receipt, h.serving⟩

/-- Without a session there is nothing to say about what the daemon has open. -/
theorem Site.Idle.memory (h : w.Idle) (service : Option Nat) (httpd : Bool) :
    ({ w with service, httpd } : Site).Idle :=
  ⟨{ h.fenced with live := fun hserving => absurd hserving (by simp [h.serving]) }, h.serving⟩

/-- However `stop` ends, nothing is served after it. -/
theorem stop_idle (point : StopPoint) :
    (stop point).Ensures plan Site.Fenced (fun _ => Site.Idle) Site.Idle Site.Idle := by
  refine Ensures.bind (Q := fun _ => Site.Idle) (ensures_update fun w h => h.unserved) fun _ => ?_
  have hrest : Keeps Site.Idle (do
      step (Step.closeListeners point) ({ · with httpd := false })
      step (Step.closeService point) ({ · with service := none })) :=
    (keeps_step fun w h => h.memory w.service false).bind fun _ =>
      keeps_step fun w h => h.memory none w.httpd
  exact hrest plan

theorem quietly_stop_idle (point : StopPoint) :
    (quietly (stop point)).Ensures plan Site.Fenced (fun _ => Site.Idle) Site.Idle Site.Idle :=
  (stop_idle point).orElse (ensures_pure () fun _ => id)

/-! ### Starting -/

/-- A session of the realm has begun, and the floor is the one that it was begun with. -/
structure Site.Opened (tree : Tree) (floor : Int) (w : Site) : Prop where
  idle : w.Idle
  root : w.dir .root = some tree
  floor : w.floor.getD 0 = floor

/-- The daemon is about to serve: the floor is the epoch of the session, and all that was served
before is below it. -/
structure Site.Ready (tree : Tree) (w : Site) : Prop where
  idle : w.Idle
  root : w.dir .root = some tree
  service : w.service = some tree.inode
  httpd : w.httpd = true
  floor : w.floor = some (tree.db.currentRuntimeEpoch : Int)
  above : ∀ x ∈ w.served, ∀ e ∈ x.epochs, e < tree.db.currentRuntimeEpoch

theorem Site.Opened.memory (h : w.Opened tree floor) (service : Option Nat) (httpd : Bool) :
    ({ w with service, httpd } : Site).Opened tree floor :=
  ⟨h.idle.memory service httpd, h.root, h.floor⟩

/-- The floor is written. -/
theorem Site.Opened.ready (h : w.Opened tree floor) (hservice : w.service = some tree.inode)
    (hhttpd : w.httpd = true) (hepoch : floor < tree.db.currentRuntimeEpoch) :
    (w.writeEpochFloor tree.db.currentRuntimeEpoch).Ready tree := by
  have habove : ∀ x ∈ w.served, ∀ e ∈ x.epochs, e < tree.db.currentRuntimeEpoch := by
    intro x hx e he
    have hbelow := h.idle.fenced.below x hx e he
    rw [h.floor] at hbelow
    omega
  have hbelow : ∀ x ∈ w.served, ∀ e ∈ x.epochs, (e : Int) ≤ tree.db.currentRuntimeEpoch := by
    intro x hx e he
    have hlt := habove x hx e he
    omega
  exact ⟨⟨⟨h.idle.fenced.trees, h.idle.fenced.backups, hbelow, h.idle.fenced.rising,
      fun hserving => absurd hserving (by simp [writeEpochFloor, h.idle.serving])⟩, h.idle.serving⟩,
    h.root, hservice, hhttpd, rfl, habove⟩

/-- The listeners accept requests. -/
theorem Site.Ready.serve (h : w.Ready tree) :
    (w.serve tree.inode tree.db.currentRuntimeEpoch).Fenced := by
  refine ⟨h.idle.fenced.trees, h.idle.fenced.backups, ?_, ?_, fun _ => ?_⟩
  · intro x hx e he
    rw [show (w.serve _ _).floor.getD 0 = (tree.db.currentRuntimeEpoch : Int) by
      simp [Site.serve, h.floor]]
    rcases List.mem_append.mp hx with hx | hx
    · have hlt := h.above x hx e he
      omega
    · obtain rfl := List.mem_singleton.mp hx
      simp only [Served.epochs, List.map_nil, List.mem_singleton] at he
      omega
  · refine List.pairwise_append.mpr ⟨h.idle.fenced.rising, List.pairwise_singleton .., ?_⟩
    intro x hx y hy
    obtain rfl := List.mem_singleton.mp hy
    exact h.above x hx
  · exact ⟨tree, ⟨tree.inode, tree.db.currentRuntimeEpoch, []⟩,
      ⟨h.root, h.service, h.httpd, by simp [Site.serve], rfl, h.floor⟩⟩

theorem startRealm_fenced {phase : Phase} (hi : Inv tree.db) :
    (startRealm phase tree floor boot now).Ensures plan
      (fun w => w.Idle ∧ w.floor.getD 0 = floor) (fun _ => Site.Fenced) Site.Fenced Site.Fenced := by
  refine (ensures_check (fun _ h => h.1.fenced) fun _ h => h.1.fenced).bind fun _ => ?_
  cases hdb : tree.db.beginRuntimeSession boot (some floor) now with
  | error e => exact ensures_raise fun w h => h.1.fenced
  | ok db =>
    have hinv : Inv db := (hi.beginRuntimeSession hdb).inv hi
    have hepoch : floor < db.currentRuntimeEpoch := by
      have hnew := State.beginRuntimeSession_epoch hdb
      simp only [Option.getD_some] at hnew
      omega
    -- the realm of the session, as it is on disk from here on
    let realm : Tree := { tree with db := db }
    refine Ensures.bind (Q := fun _ => Site.Opened realm floor)
      (ensures_step (fun _ w h => ?_) (fun _ _ h => h.1.fenced) fun _ _ h => h.1.fenced) fun _ => ?_
    · exact ⟨h.1.put (by rintro _ ⟨⟩; exact hinv), by simp [Site.put, realm], h.2⟩
    refine (ensures_check (fun _ h => h.idle.fenced) fun _ h => h.idle.fenced).bind fun _ => ?_
    refine Ensures.bind (Q := fun _ w => w.Opened realm floor ∧ w.service = some tree.inode)
      (ensures_update fun w h => ⟨h.memory _ w.httpd, rfl⟩) fun _ => ?_
    refine (ensures_check (fun _ h => h.1.idle.fenced) fun _ h => h.1.idle.fenced).bind fun _ => ?_
    refine Ensures.bind
      (Q := fun _ w => w.Opened realm floor ∧ w.service = some tree.inode ∧ w.httpd = true)
      (ensures_update fun w h => ⟨h.1.memory w.service true, h.2, rfl⟩) fun _ => ?_
    refine Ensures.bind (Q := fun _ => Site.Ready realm)
      (ensures_step (fun _ w h => h.1.ready h.2.1 h.2.2 hepoch) (fun _ _ h => h.1.idle.fenced)
        fun _ _ h => h.1.idle.fenced) fun _ => ?_
    refine (ensures_check (fun _ h => h.idle.fenced) fun _ h => h.idle.fenced).bind fun _ => ?_
    refine Ensures.bind (Q := fun _ => Site.Fenced)
      (ensures_step (fun _ w h => h.serve) (fun _ _ h => h.idle.fenced)
        fun _ _ h => h.idle.fenced) fun _ => ?_
    exact (ensures_check (fun _ => id) fun _ => id).handle ((stop_idle _).ends fun _ h => h.fenced)

/-- `_start` is called when nothing is served. -/
theorem start_fenced {phase : Phase} :
    (start_ phase boot now).Ensures plan Site.Idle (fun _ => Site.Fenced) Site.Fenced
      Site.Fenced := by
  refine ensures_get fun w h => ensures_require (fun hfloor => ?_) fun _ w' hw' => hw' ▸ h.fenced
  cases hroot : w.dir .root with
  | none => exact ensures_raise fun w' hw' => hw' ▸ h.fenced
  | some tree =>
    refine ensures_require (fun _ => ?_) fun _ w' hw' => hw' ▸ h.fenced
    exact (startRealm_fenced (h.fenced.trees _ tree hroot)).pre
      fun w' hw' => by rw [hw']; exact ⟨h, rfl⟩

/-- The superseded realm that is left is removed while the new one is served. -/
theorem keeps_fenced_cleanup : Keeps Site.Fenced cleanupCompletedReplacement :=
  cleanup_elsewhere keeps_fenced_rmtree fun h => h.receipt

theorem keeps_fenced_start : Keeps Site.Fenced (start boot now) := by
  intro plan
  refine ensures_get fun w h => ?_
  by_cases hhttpd : w.httpd = true
  · rw [if_pos hhttpd]
    exact ensures_pure () fun w' hw' => hw' ▸ h
  · rw [if_neg hhttpd]
    refine Ensures.bind ?_ fun _ => keeps_fenced_cleanup plan
    have hidle : w.Idle := h.httpd (by simpa using hhttpd)
    exact start_fenced.pre fun w' hw' => hw' ▸ hidle

/-! ### Replacements -/

section Replacement

variable {r : Replacement} {movedOld movedCandidate : Bool}

theorem keeps_idle_restoreNames :
    Keeps Site.Idle (restoreNames r movedOld movedCandidate) := by
  have hback : Keeps Site.Idle (do
      let w ← get
      if movedOld ∧ (w.dir .root).isNone ∧ (w.dir r.superseded).isSome then
        rename .rollbackRoot r.superseded .root
      check .rollbackSynced) := by
    refine keeps_get fun w => ?_
    split
    · exact keeps_idle_rename.bind fun _ => keeps_check
    · exact keeps_check
  refine keeps_get fun w => ?_
  split
  · exact keeps_idle_rename.bind fun _ => hback
  · exact hback

/-- A procedure that keeps the site idle, as a part of one that may serve. -/
theorem ensures_of_idle {α : Type} {p : Action α} (h : Keeps Site.Idle p) :
    p.Ensures plan Site.Idle (fun _ => Site.Idle) Site.Fenced Site.Fenced :=
  (h plan).fails (fun _ h => h.fenced) fun _ h => h.fenced

theorem keeps_fenced_rollback :
    Keeps Site.Fenced (rollback r movedOld movedCandidate) := by
  intro plan
  refine ((quietly_stop_idle _).fails (fun _ h => h.fenced) fun _ h => h.fenced).bind fun _ => ?_
  have hback : Keeps Site.Idle (handle
      (do
        restoreNames r movedOld movedCandidate
        let w ← get
        writeReplacementState (.receipt .rolledBack) .rolledBack r
          (if (w.dir r.superseded).isSome then some r.superseded else none) false)
      (quietly (writeReplacementState (.receipt .rollbackFailed) .rollbackFailed r
        (some r.superseded) false))) :=
    (keeps_idle_restoreNames.bind fun _ => keeps_get fun _ => keeps_idle_write).handle
      keeps_idle_write.quietly
  refine (ensures_of_idle hback).bind fun _ => ?_
  exact start_fenced.orElse (ensures_pure () fun _ => id)

theorem keeps_fenced_offlineRollback :
    Keeps Site.Fenced (offlineRollback r movedOld movedCandidate) := by
  intro plan
  refine ((quietly_stop_idle _).fails (fun _ h => h.fenced) fun _ h => h.fenced).bind fun _ => ?_
  have hback : Keeps Site.Idle (do
      handle
        (do
          restoreNames r movedOld movedCandidate
          writeReplacementState (.receipt .rolledBack) .rolledBack r none false)
        (quietly (writeReplacementState (.receipt .rollbackFailed) .rollbackFailed r
          (some r.superseded) false))
      let w ← get
      if (w.dir r.candidate).isSome then rmtree .candidate r.candidate) := by
    refine ((keeps_idle_restoreNames.bind fun _ => keeps_idle_write).handle
      keeps_idle_write.quietly).bind fun _ => keeps_get fun w => ?_
    split
    · exact keeps_idle_rmtree
    · exact keeps_pure ()
  exact (hback plan).ends fun _ h => h.fenced

theorem keeps_fenced_completeReplacement : Keeps Site.Fenced (completeReplacement r) := by
  refine keeps_fenced_write.quietly.bind fun _ => ?_
  split
  · exact ((keeps_fenced_rmtree r.superseded_ne).bind fun _ => keeps_fenced_write.quietly).orElse
      keeps_fenced_write.quietly
  · exact keeps_pure ()

/-- The part of a replacement from the first rename on, with its handlers. -/
theorem replacement_fenced {expose publish : Action Unit} {handler : Bool → Bool → Action Unit}
    (hexpose : Keeps Site.Idle expose)
    (hpublish : publish.Ensures plan Site.Idle (fun _ => Site.Fenced) Site.Fenced Site.Fenced)
    (hhandler : ∀ old candidate, Keeps Site.Fenced (handler old candidate)) :
    (do
      handle expose (handler true false)
      handle publish (handler true true)
      completeReplacement r : Action Unit).Ensures plan Site.Idle (fun _ => Site.Fenced)
      Site.Fenced Site.Fenced := by
  refine ((ensures_of_idle hexpose).handle (hhandler true false plan)).bind fun _ => ?_
  refine (hpublish.handle (hhandler true true plan)).bind fun _ => ?_
  exact keeps_fenced_completeReplacement plan

theorem publication_fenced :
    (publication r state).Ensures plan Site.Idle (fun _ => Site.Fenced) Site.Fenced
      Site.Fenced := by
  refine (ensures_of_idle keeps_check).bind fun _ => ?_
  exact (ensures_of_idle keeps_idle_write).bind fun _ => start_fenced

theorem keeps_requireVerified {I : Site → Prop} : Keeps I (requireVerified r) :=
  keeps_get fun _ => keeps_require

theorem prepareActivation_idle :
    (prepareActivation r).Ensures plan Site.Fenced (fun _ => Site.Idle) Site.Fenced
      Site.Fenced := by
  refine (keeps_check plan).bind fun _ => (keeps_check plan).bind fun _ =>
    (keeps_requireVerified plan).bind fun _ => (keeps_fenced_write plan).bind fun _ => ?_
  refine ((stop_idle _).fails (fun _ h => h.fenced) fun _ h => h.fenced).bind fun _ => ?_
  exact ensures_of_idle (keeps_idle_write.bind fun _ => keeps_check.bind fun _ =>
    keeps_requireVerified.bind fun _ => keeps_idle_rename)

theorem keeps_fenced_activateCandidate : Keeps Site.Fenced (activateCandidate r) := by
  refine keeps_get fun w => keeps_require.bind fun _ => keeps_require.bind fun _ =>
    keeps_check.bind fun _ => fun plan => ?_
  refine (prepareActivation_idle.handle (keeps_fenced_rollback plan)).bind fun _ => ?_
  have hexpose : Keeps Site.Idle (exposeActivation r) :=
    keeps_check.bind fun _ => keeps_idle_write.bind fun _ => keeps_idle_rename
  exact replacement_fenced hexpose publication_fenced fun _ _ => keeps_fenced_rollback

theorem keeps_fenced_restoreCandidate {backup : State} {inode : Nat} {accepted : Bool} :
    Keeps Site.Fenced (restoreCandidate n backup inode accepted) := by
  intro plan
  refine ensures_get fun w h => ensures_require (fun hready => ?_) fun _ w' hw' => hw' ▸ h
  have hi : Inv backup := h.backups backup hready.1
  have hmade : Keeps Site.Fenced (restoreBackup n (restored backup inode accepted)) :=
    keeps_restoreBackup_of_put (fun h => h) (fun h => h.put hready.2.1) hi
  exact (hmade plan).pre fun w' hw' => hw' ▸ h

theorem keeps_fenced_replaceFromBackup {backup : State} {inode : Nat} {accepted : Bool} :
    Keeps Site.Fenced (replaceFromBackup r backup inode accepted) := by
  intro plan
  refine ensures_get fun w h => ensures_require (fun hstopped => ?_) fun _ w' hw' => hw' ▸ h
  refine ensures_require (fun hbackup => ?_) fun _ w' hw' => hw' ▸ h
  have hidle : w.Idle := h.httpd hstopped.2
  have hi : Inv backup := h.backups backup hbackup
  have hrestore : Keeps Site.Idle (restoreBackup r.candidate (restored backup inode accepted)) :=
    keeps_restoreBackup_of_put (fun h => h.fenced) (fun h => h.put) hi
  have hprepare : Keeps Site.Idle (prepareOffline r) :=
    keeps_check.bind fun _ => keeps_check.bind fun _ => keeps_requireVerified.bind fun _ =>
      keeps_check.bind fun _ => keeps_idle_write.bind fun _ => keeps_idle_rename
  have hexpose : Keeps Site.Idle (exposeOffline r) :=
    keeps_check.bind fun _ => keeps_idle_rename
  refine Ensures.pre (P := Site.Idle) ?_ fun w' hw' => hw' ▸ hidle
  refine (ensures_of_idle keeps_check).bind fun _ =>
    ensures_require (fun _ => ?_) fun _ _ h => h.fenced
  refine (ensures_of_idle hrestore).bind fun _ => (ensures_of_idle keeps_check).bind fun _ => ?_
  refine ((ensures_of_idle hprepare).handle (keeps_fenced_offlineRollback plan)).bind fun _ => ?_
  exact replacement_fenced hexpose publication_fenced fun _ _ => keeps_fenced_offlineRollback

end Replacement

/-! ## Events -/

/-- However a procedure ends, the invariant holds after it. -/
theorem Site.Fenced.perform (h : w.Fenced) {p : Action Unit} (hp : Keeps Site.Fenced p) :
    (w.perform plan p).Fenced := by
  have hrun := hp plan w h
  unfold Site.perform
  rcases hend : p plan w with ⟨a | _ | _, w'⟩ <;> simp only [hend] at hrun ⊢
  · exact hrun
  · exact hrun
  · exact hrun.reboot

/-- The attempts that a request issues are issued under the epoch of the session, or an earlier
one. -/
theorem newAttempts_le {before after : State} (hi : Inv after) :
    ∀ a ∈ newAttempts before after, a.2 ≤ after.currentRuntimeEpoch := by
  intro a ha
  obtain ⟨e, he, rfl⟩ := List.mem_map.mp ha
  exact (hi.attempt e.1 e.2 (Table.lookup_of_mem_filter he)).1

theorem issueLast_append (served : List Served) (x : Served) (attempts : List (AttemptId × Nat)) :
    issueLast (served ++ [x]) attempts = served ++ [x.issue attempts] := by
  simp [issueLast]

/-- A request is served in the session of the active root, and does not change its epoch. -/
theorem Site.Fenced.request (h : w.Fenced) (r : Request) : (w.request r).Fenced := by
  unfold Site.request
  split
  next => exact h
  next tree hroot =>
    split
    next hserving =>
      obtain ⟨realm, x, hlive⟩ := h.live hserving
      obtain rfl := Option.mem_unique hroot hlive.root
      have hi : Inv (r.command.next r.env tree.db) :=
        (h.trees _ _ hroot).next.inv (h.trees _ _ hroot)
      have hepoch : (r.command.next r.env tree.db).currentRuntimeEpoch = x.epoch :=
        (r.command.sameSession_next r.session).epoch.trans hlive.epoch.symm
      obtain ⟨earlier, hserved⟩ := List.getLast?_eq_some_iff.mp hlive.last
      have hnew : ∀ e ∈ (x.issue (newAttempts tree.db (r.command.next r.env tree.db))).epochs,
          e ∈ x.epochs ∨ e ≤ x.epoch := by
        intro e he
        simp only [Served.epochs, Served.issue, List.map_append, List.mem_cons,
          List.mem_append] at he ⊢
        rcases he with he | he | he
        · exact .inl (.inl he)
        · exact .inl (.inr he)
        · obtain ⟨a, ha, rfl⟩ := List.mem_map.mp he
          exact .inr (hepoch ▸ newAttempts_le hi a ha)
      have hbelow := h.below
      have hrising := h.rising
      rw [hserved] at hbelow hrising
      obtain ⟨hrising, -, hlast⟩ := List.pairwise_append.mp hrising
      refine ⟨Site.trees_put h.trees (by rintro _ ⟨⟩; exact hi), h.backups, ?_, ?_, fun _ => ?_⟩
      · simp only [hserved, issueLast_append]
        intro y hy e he
        rcases List.mem_append.mp hy with hy | hy
        · exact hbelow y (List.mem_append_left _ hy) e he
        · obtain rfl := List.mem_singleton.mp hy
          have hx := hbelow x (by simp)
          rcases hnew e he with he | he
          · exact hx e he
          · have hxe := hx x.epoch (by simp [Served.epochs])
            exact (Int.ofNat_le.mpr he).trans hxe
      · simp only [hserved, issueLast_append]
        refine List.pairwise_append.mpr ⟨hrising, List.pairwise_singleton .., fun y hy z hz => ?_⟩
        obtain rfl := List.mem_singleton.mp hz
        exact hlast y hy x (by simp)
      · refine ⟨{ tree with db := r.command.next r.env tree.db },
          x.issue (newAttempts tree.db (r.command.next r.env tree.db)), ?_⟩
        exact
          { root := by simp [Site.put]
            service := hlive.service
            httpd := hlive.httpd
            last := by simp [hserved, issueLast_append]
            epoch := hepoch.symm
            floor := hlive.floor }
    next => exact h

theorem Site.Fenced.backup (h : w.Fenced) : w.backup.Fenced := by
  refine { h with backups := fun db hdb => ?_, live := fun hserving => ?_ }
  · rcases List.mem_append.mp hdb with hdb | hdb
    · exact h.backups db hdb
    · obtain ⟨tree, htree, rfl⟩ := List.mem_map.mp hdb
      exact h.trees .root tree (by simpa using htree)
  · obtain ⟨tree, x, hlive⟩ := h.live hserving
    exact ⟨tree, x, { hlive with }⟩

/-- The step lemma of a history. -/
theorem Site.Fenced.next (h : w.Fenced) (e : Event) : (w.next e).Fenced := by
  cases e with
  | start boot now plan => exact h.perform keeps_fenced_start
  | stop plan =>
    refine h.perform fun plan => ?_
    exact (stop_idle _).ends fun _ h => h.fenced
  | request r => exact h.request r
  | backup => exact h.backup
  | restore n backup inode accepted plan => exact h.perform keeps_fenced_restoreCandidate
  | activate r plan => exact h.perform keeps_fenced_activateCandidate
  | replace r backup inode accepted plan => exact h.perform keeps_fenced_replaceFromBackup
  | crash => exact h.reboot

/-- The run lemma of a history. -/
theorem Site.Fenced.replay (h : w.Fenced) (history : List Event) :
    (Run.replay Site.next w history).Fenced := by
  induction history generalizing w with
  | nil => exact h
  | cons e history ih => exact ih (h.next e)

/-- **Epochs are not used twice.** In every history of starts, stops, requests, backups, restores,
replacements and crashes, from a site that has served nothing yet: the sessions that served requests
have rising epochs, an attempt that an earlier one issued has an epoch below that of a later one, and
while the daemon serves, the epoch of its last session is the one of the realm at the active root. -/
theorem served_epochs_increase (w : Site) (hserved : w.served = []) (hserving : w.serving = false)
    (htrees : ∀ n tree, w.dir n = some tree → Reachable tree.db)
    (hbackups : ∀ db ∈ w.backups, Reachable db) (history : List Event) :
    ((Run.replay Site.next w history).served.Pairwise fun x y =>
        x.epoch < y.epoch ∧ ∀ a ∈ x.issued, a.2 < y.epoch) ∧
      ((Run.replay Site.next w history).serving = true →
        ∃ tree x, (Run.replay Site.next w history).dir .root = some tree ∧
          (Run.replay Site.next w history).served.getLast? = some x ∧
          tree.db.currentRuntimeEpoch = x.epoch) := by
  have hfenced : w.Fenced :=
    { trees := fun n tree htree => (htrees n tree htree).inv
      backups := fun db hdb => (hbackups db hdb).inv
      below := by simp [hserved]
      rising := by simp [hserved]
      live := by simp [hserving] }
  have hend := hfenced.replay history
  constructor
  · refine hend.rising.imp fun {x y} h => ⟨h x.epoch (by simp [Served.epochs]), fun a ha => ?_⟩
    exact h a.2 (.tail _ (List.mem_map_of_mem ha))
  · intro hserving
    obtain ⟨tree, x, hlive⟩ := hend.live hserving
    exact ⟨tree, x, hlive.root, hlive.last, hlive.epoch.symm⟩

/-- A realm that no session was begun in, and a backup of it. -/
def backedUp : Site where
  dir := fun name => if name = .root then some ⟨1, State.initial, true, false, fun _ => rfl⟩ else none
  floor := none
  receipt := none
  backups := [State.initial]
  served := []
  service := none
  httpd := false
  serving := false

/-- A session, and a session of the realm that the older backup is restored to. -/
def replacedByBackup : List Event :=
  [.start "boot-1" 0 fun _ => .ok, .stop fun _ => .ok,
    .replace
      { candidate := .sibling "candidate", supersededId := "1", retainSuperseded := false
        boot := "boot-2", rollbackBoot := "boot-3", now := 0 }
      State.initial 2 true fun _ => .ok]

theorem served_epochs_increase_replaced :
    (Run.replay Site.next backedUp replacedByBackup).served = [⟨1, 1, []⟩, ⟨2, 2, []⟩] ∧
      (Run.replay Site.next backedUp replacedByBackup).served.Pairwise fun x y =>
        x.epoch < y.epoch ∧ ∀ a ∈ x.issued, a.2 < y.epoch := by
  have htrees : ∀ n tree, backedUp.dir n = some tree → Reachable tree.db := by
    rintro (_ | name) tree ⟨⟩
    exact Reachable.replay []
  have hbackups : ∀ db ∈ backedUp.backups, Reachable db := by
    intro db hdb
    obtain rfl := List.mem_singleton.mp hdb
    exact Reachable.replay []
  exact ⟨by decide +kernel, (served_epochs_increase backedUp rfl rfl htrees hbackups _).1⟩

end WorkspaceRuntime.Daemon
