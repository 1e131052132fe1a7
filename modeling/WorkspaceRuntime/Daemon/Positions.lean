import WorkspaceRuntime.Daemon.Site

/-!
# A replacement and the two realms

At every moment of a replacement the previous realm and the candidate are in one of a few positions:
neither has moved, the previous one is aside and the active root is free, or the candidate is at the
active root. Every procedure of a replacement is followed through these positions, under any plan of
faults. The active root is lost exactly when the process stops, or the way back is barred, while the
previous realm is aside (`Stranded`); nothing that runs later puts a realm back. The previous realm is
never removed before the candidate has served.
-/

namespace WorkspaceRuntime.Daemon

open Proc

/-! ## What a procedure leaves alone -/

/-- What is compared of a directory: its identity, whether it is whole, and whether it verifies. -/
def Tree.shape (tree : Tree) : Nat × Bool × Bool := (tree.inode, tree.whole, tree.verified)

/-- The shape of the directory at a name. -/
def Site.shape (w : Site) (n : Name) : Option (Nat × Bool × Bool) := (w.dir n).map Tree.shape

/-- A condition on the shapes, the receipt and the sessions that have served. -/
def Coarse (I : Site → Prop) : Prop :=
  ∀ ⦃w w' : Site⦄, I w → w'.shape = w.shape → w'.receipt = w.receipt →
    (∀ x ∈ w.served, x ∈ w'.served) → I w'

variable {w : Site} {plan : Plan Step} {n : Name} {l : Step} {P : Site → Prop}
  {Q : Unit → Site → Prop}

section Keeps

variable {I : Site → Prop} {phase : Phase} {boot : String} {now : Time}

theorem Coarse.stop (hI : Coarse I) (point : StopPoint) : Keeps I (stop point) := by
  refine (keeps_update ?_).bind fun _ => (keeps_step ?_).bind fun _ => keeps_step ?_
  all_goals exact fun w h => hI h rfl rfl fun _ => id

/-- A new database in a directory does not change its shape. -/
theorem Site.shape_put_db {tree : Tree} (hroot : w.dir .root = some tree) (db : State) :
    (w.put .root (some { tree with db := db })).shape = w.shape := by
  funext n
  by_cases hn : n = .root
  · subst hn
    simp [Site.shape, Site.put, hroot, Tree.shape]
  · simp [Site.shape, Site.put, hn]

/-- Opening a realm changes no shape; when it returns, the realm has served. -/
theorem Coarse.startRealm (hI : Coarse I) {tree : Tree} {floor : Int} :
    (startRealm phase tree floor boot now).Ensures plan
      (fun w => I w ∧ w.dir .root = some tree)
      (fun _ w => I w ∧ ∃ x ∈ w.served, x.inode = tree.inode) I I := by
  have hquiet : ∀ {w w' : Site}, I w → w'.dir = w.dir → w'.receipt = w.receipt →
      (∀ x ∈ w.served, x ∈ w'.served) → I w' :=
    fun hw hdir => hI hw (by funext n; simp [Site.shape, hdir])
  unfold Daemon.startRealm
  refine Ensures.bind ((keeps_check plan).fails (fun _ h => h.1) fun _ h => h.1) fun _ => ?_
  split
  · exact ensures_raise fun _ h => h.1
  next db hdb =>
    refine Ensures.bind (Q := fun _ => I) (ensures_step
      (fun _ w hw => hI hw.1 (Site.shape_put_db hw.2 db) rfl fun _ => id) (fun _ _ h => h.1)
      fun _ _ h => h.1) fun _ => ?_
    refine (keeps_check plan).bind fun _ => ?_
    refine (keeps_update ?unchanged plan).bind fun _ => ?_
    case unchanged => exact fun w h => hquiet h rfl rfl fun _ => id
    refine (keeps_check plan).bind fun _ => ?_
    refine (keeps_update ?unchanged plan).bind fun _ => ?_
    case unchanged => exact fun w h => hquiet h rfl rfl fun _ => id
    refine (keeps_step ?unchanged plan).bind fun _ => ?_
    case unchanged => exact fun w h => hquiet h rfl rfl fun _ => id
    refine (keeps_check plan).bind fun _ => ?_
    refine Ensures.bind (Q := fun _ w => I w ∧ ∃ x ∈ w.served, x.inode = tree.inode)
      (ensures_step (fun _ w hw => ⟨hquiet hw rfl rfl ?_, ?_⟩) (fun _ _ => id) fun _ _ => id)
      fun _ => ?_
    · exact fun x hx => List.mem_append_left _ hx
    · exact ⟨_, List.mem_append_right _ (List.mem_singleton_self _), rfl⟩
    · exact Ensures.handle ((keeps_check plan).fails (fun _ h => h.1) fun _ h => h.1)
        (hI.stop _ plan)

/-- `_start` changes no shape; when it returns, the realm at the active root has served. -/
theorem Coarse.start_ (hI : Coarse I) {inode : Nat}
    (hinode : ∀ w tree, I w → w.dir .root = some tree → tree.inode = inode) :
    (start_ phase boot now).Ensures plan I (fun _ w => I w ∧ ∃ x ∈ w.served, x.inode = inode) I I := by
  refine ensures_get fun w hw => ?_
  have hsame : ∀ w', w' = w → I w' := fun w' h => h ▸ hw
  refine Ensures.bind ((keeps_require plan).fails hsame hsame) fun _ => ?_
  split
  · exact ensures_raise hsame
  next tree htree =>
    refine Ensures.bind ((keeps_require plan).fails hsame hsame) fun _ => ?_
    refine hI.startRealm.weaken (fun w' h => ⟨hsame w' h, h ▸ htree⟩) ?_ (fun _ => id) fun _ => id
    rintro _ w' ⟨hw', x, hx, hxi⟩
    exact ⟨hw', x, hx, hxi.trans (hinode w tree hw htree)⟩

theorem Coarse.keeps_start_ (hI : Coarse I) :
    Keeps I (Daemon.start_ phase boot now) := by
  intro plan w hw
  -- the identity of the directory is not needed here
  have hcoarse : Coarse fun w' => I w' ∧ w'.shape .root = w.shape .root :=
    fun _ _ h hshape hr hs => ⟨hI h.1 hshape hr hs, (congrFun hshape _).trans h.2⟩
  have hinode : ∀ w' tree, (I w' ∧ w'.shape .root = w.shape .root) → w'.dir .root = some tree →
      tree.inode = ((w.shape .root).map (·.1)).getD 0 := by
    rintro w' tree ⟨-, hshape⟩ htree
    rw [← hshape]
    simp [Site.shape, htree, Tree.shape]
  exact ((hcoarse.start_ hinode).weaken (fun _ => id) (fun _ _ h => h.1.1) (fun _ h => h.1)
    fun _ h => h.1) w ⟨hw, rfl⟩

end Keeps

/-! ## Renames -/

theorem Site.shape_put (w : Site) (n : Name) (tree : Option Tree) :
    (w.put n tree).shape = Function.update w.shape n (tree.map Tree.shape) := by
  funext m
  by_cases hm : m = n
  · subst hm
    simp [Site.shape, Site.put]
  · simp [Site.shape, Site.put, hm]

theorem Site.shape_move (w : Site) (source target : Name) :
    (w.move source target).shape =
      Function.update (Function.update w.shape target (w.shape source)) source none := by
  rw [Site.move, Site.shape_put, Site.shape_put]
  rfl

theorem Site.isSome_dir : (w.dir n).isSome = (w.shape n).isSome := by
  simp [Site.shape]

theorem Site.isNone_dir : (w.dir n).isNone = (w.shape n).isNone := by
  simp [Site.shape]

/-- A rename whose source is there and whose target is free is one step. -/
theorem ensures_rename {source target : Name} {R C : Site → Prop}
    (hready : ∀ w, P w → (w.shape source).isSome ∧ (w.shape target).isNone)
    (hok : plan l = .ok → ∀ w, P w → Q () (w.move source target))
    (hraises : plan l = .raises → ∀ w, P w → R w) (hcrashes : plan l = .crashes → ∀ w, P w → C w) :
    (rename l source target).Ensures plan P Q R C := by
  refine ensures_get fun w hw => ?_
  have hrequire : ((w.dir source).isSome ∧ (w.dir target).isNone) := by
    rw [Site.isSome_dir, Site.isNone_dir]
    exact hready w hw
  simp only [Proc.require, hrequire, and_self, if_true]
  refine (ensures_pure (Q := fun _ w' => w' = w) () fun _ => id).bind fun _ => ?_
  exact ensures_step (fun hl w' h => h ▸ hok hl w hw) (fun hl w' h => h ▸ hraises hl w hw)
    fun hl w' h => h ▸ hcrashes hl w hw

theorem follows_rename {source target : Name} {R C : Site → Prop}
    (hready : ∀ w, P w → (w.shape source).isSome ∧ (w.shape target).isNone)
    (hok : ∀ w, P w → Q () (w.move source target)) (hraises : ∀ w, P w → R w)
    (hcrashes : ∀ w, P w → C w) : (rename l source target).Follows plan [l] P Q R C :=
  ensures_rename hready (fun hl w hw => ⟨by simp [Plan.first, hl], hok w hw⟩)
    (fun hl w hw => ⟨by simp [Plan.first, hl], hraises w hw⟩)
    fun hl w hw => ⟨by simp [Plan.first, hl], hcrashes w hw⟩

/-! ## Positions -/

section Positions

variable (r : Replacement) (prev cand : Nat × Bool × Bool)

/-- The receipt does not allow to remove anything. -/
def Site.NoLeftover (w : Site) : Prop := ∀ rec, w.receipt = some rec → rec.leftover = none

/-- Neither directory has moved. -/
structure Site.Untouched (w : Site) : Prop where
  root : w.shape .root = some prev
  candidate : w.shape r.candidate = some cand
  superseded : w.shape r.superseded = none

/-- The previous realm is aside, and the active root is free. -/
structure Site.Aside (w : Site) : Prop where
  root : w.shape .root = none
  candidate : w.shape r.candidate = some cand
  superseded : w.shape r.superseded = some prev
  receipt : w.NoLeftover

/-- The candidate is at the active root. -/
structure Site.Published (w : Site) : Prop where
  root : w.shape .root = some cand
  candidate : w.shape r.candidate = none
  superseded : w.shape r.superseded = some prev
  receipt : w.NoLeftover

/-- The previous realm is at the active root. -/
def Site.Kept (w : Site) : Prop := w.shape .root = some prev

/-- The candidate is at the active root and has served. -/
structure Site.Finished (w : Site) : Prop where
  root : w.shape .root = some cand
  served : ∃ x ∈ w.served, x.inode = cand.1

variable {r prev cand}

theorem Site.NoLeftover.of_eq {w' : Site} (h : w.NoLeftover) (he : w'.receipt = w.receipt) :
    w'.NoLeftover := fun rec hrec => h rec (he ▸ hrec)

/-- A condition on the positions: it depends neither on the sessions nor on receipts under which
nothing is removed. -/
structure Stable (I : Site → Prop) : Prop where
  coarse : Coarse I
  receipt : ∀ {w : Site} {rec : Receipt}, I w → rec.leftover = none →
    I { w with receipt := some rec }

theorem Stable.untouched : Stable (Site.Untouched r prev cand) where
  coarse _ _ h hs _ _ := ⟨hs ▸ h.root, hs ▸ h.candidate, hs ▸ h.superseded⟩
  receipt h _ := ⟨h.root, h.candidate, h.superseded⟩

theorem Stable.aside : Stable (Site.Aside r prev cand) where
  coarse _ _ h hs hr _ := ⟨hs ▸ h.root, hs ▸ h.candidate, hs ▸ h.superseded, h.receipt.of_eq hr⟩
  receipt h hrec := ⟨h.root, h.candidate, h.superseded, by rintro _ ⟨⟩; exact hrec⟩

theorem Stable.published : Stable (Site.Published r prev cand) where
  coarse _ _ h hs hr _ := ⟨hs ▸ h.root, hs ▸ h.candidate, hs ▸ h.superseded, h.receipt.of_eq hr⟩
  receipt h hrec := ⟨h.root, h.candidate, h.superseded, by rintro _ ⟨⟩; exact hrec⟩

theorem Stable.kept : Stable (Site.Kept prev) where
  coarse _ _ h hs _ _ := (congrFun hs _).trans h
  receipt h _ := h

variable {I : Site → Prop} {write : Action Unit}

/-- A condition that a decision of the plan chooses. -/
theorem Stable.ite {c : Prop} [Decidable c] {J : Site → Prop} (hI : Stable I) (hJ : Stable J) :
    Stable fun w => if c then I w else J w := by
  by_cases hc : c
  · simpa [hc] using hI
  · simpa [hc] using hJ

/-- A condition with a fact that does not depend on the site. -/
theorem Stable.and (hI : Stable I) (c : Prop) : Stable fun w => I w ∧ c where
  coarse _ _ h hs hr hv := ⟨hI.coarse h.1 hs hr hv, h.2⟩
  receipt h hrec := ⟨hI.receipt h.1 hrec, h.2⟩

/-! ## Undoing a replacement -/

variable (r prev cand) (plan : Plan Step)

/-- The position when the way back to the active root has been tried. -/
def Site.RootTried (w : Site) : Prop :=
  if plan .rollbackRoot = .ok then w.Kept prev else w.Aside r prev cand

/-- The position when both ways back have been tried. -/
def Site.BothTried (w : Site) : Prop :=
  if plan .rollbackCandidate = .ok then w.RootTried r prev cand plan else w.Published r prev cand

variable {r prev cand plan}

theorem Stable.rootTried : Stable (Site.RootTried r prev cand plan) := Stable.ite .kept .aside

theorem Stable.bothTried : Stable (Site.BothTried r prev cand plan) :=
  Stable.ite .rootTried .published

theorem Site.Untouched.kept (h : w.Untouched r prev cand) : w.Kept prev := h.root

theorem Site.Kept.rootTried (h : w.Kept prev) (hroot : plan .rollbackRoot = .ok) :
    w.RootTried r prev cand plan := by
  simpa [Site.RootTried, hroot] using h

theorem Site.Kept.bothTried (h : w.Kept prev)
    (hback : plan .rollbackRoot = .ok ∧ plan .rollbackCandidate = .ok) :
    w.BothTried r prev cand plan := by
  simpa [Site.BothTried, hback.2] using h.rootTried hback.1

/-- The names of a replacement are different. -/
structure Replacement.Proper (r : Replacement) : Prop where
  candidate : r.candidate ≠ .root
  superseded : r.candidate ≠ r.superseded

theorem Replacement.superseded_ne (r : Replacement) : r.superseded ≠ .root := by
  simp [Replacement.superseded]

/-- The previous realm goes back. -/
theorem Site.Aside.back (hr : r.Proper) (h : w.Aside r prev cand) :
    (w.move r.superseded .root).Untouched r prev cand where
  root := by simp [Site.shape_move, r.superseded_ne.symm, h.superseded]
  candidate := by simp [Site.shape_move, hr.superseded, hr.candidate, h.candidate]
  superseded := by simp [Site.shape_move]

/-- The candidate goes back. -/
theorem Site.Published.back (hr : r.Proper) (h : w.Published r prev cand) :
    (w.move .root r.candidate).Aside r prev cand where
  root := by simp [Site.shape_move]
  candidate := by simp [Site.shape_move, hr.candidate, h.root]
  superseded := by simp [Site.shape_move, hr.superseded.symm, r.superseded_ne, h.superseded]
  receipt := h.receipt

/-- The second rename of the way back. -/
theorem restoreRoot_ensures (hr : r.Proper) :
    (rename .rollbackRoot r.superseded .root).Ensures plan (Site.Aside r prev cand)
      (fun _ w => w.Untouched r prev cand ∧ plan .rollbackRoot = .ok)
      (Site.RootTried r prev cand plan) (Site.RootTried r prev cand plan) := by
  refine ensures_rename (fun w h => by simp [h.superseded, h.root])
    (fun hl w h => ⟨h.back hr, hl⟩) (fun hl w h => ?_) fun hl w h => ?_
  all_goals simpa [Site.RootTried, hl] using h

/-- What follows the renames of the way back. -/
theorem rollbackSynced_ensures :
    (check .rollbackSynced).Ensures plan
      (fun w => w.Untouched r prev cand ∧ plan .rollbackRoot = .ok)
      (fun _ w => w.Untouched r prev cand ∧ plan .rollbackRoot = .ok)
      (Site.RootTried r prev cand plan) (Site.RootTried r prev cand plan) :=
  (keeps_check plan).fails (fun _ h => h.1.kept.rootTried h.2) fun _ h => h.1.kept.rootTried h.2

/-- The way back from the position in which the active root is free. -/
theorem restoreNames_aside (hr : r.Proper) :
    (restoreNames r true false).Ensures plan (Site.Aside r prev cand)
      (fun _ w => w.Untouched r prev cand ∧ plan .rollbackRoot = .ok)
      (Site.RootTried r prev cand plan) (Site.RootTried r prev cand plan) := by
  refine ensures_get fun w hw => ?_
  simp only [Bool.false_eq_true, false_and, if_false]
  refine ensures_get fun w' hw' => ?_
  obtain rfl : w' = w := hw'
  rw [if_pos (by simp [Site.isNone_dir, Site.isSome_dir, hw.root, hw.superseded])]
  exact ((restoreRoot_ensures hr).pre fun w h => h ▸ hw).bind fun _ => rollbackSynced_ensures

/-- The way back from the position in which the candidate is at the active root. -/
theorem restoreNames_published (hr : r.Proper) :
    (restoreNames r true true).Ensures plan (Site.Published r prev cand)
      (fun _ w => w.Untouched r prev cand ∧ plan .rollbackRoot = .ok ∧ plan .rollbackCandidate = .ok)
      (Site.BothTried r prev cand plan) (Site.BothTried r prev cand plan) := by
  refine ensures_get fun w hw => ?_
  rw [if_pos (by simp [Site.isNone_dir, Site.isSome_dir, hw.root, hw.candidate])]
  refine Ensures.bind (Q := fun _ w => w.Aside r prev cand ∧ plan .rollbackCandidate = .ok)
    (ensures_rename (fun w' h => by simp [h ▸ hw.root, h ▸ hw.candidate])
      (fun hl w' h => ⟨h ▸ hw.back hr, hl⟩) (fun hl w' h => ?_) fun hl w' h => ?_) fun _ => ?_
  iterate 2 simpa [Site.BothTried, hl] using h ▸ hw
  · refine ensures_get fun w₁ hw₁ => ?_
    rw [if_pos (by simp [Site.isNone_dir, Site.isSome_dir, hw₁.1.root, hw₁.1.superseded])]
    have htried : ∀ w, Site.RootTried r prev cand plan w → Site.BothTried r prev cand plan w :=
      fun w h => by simpa [Site.BothTried, hw₁.2] using h
    refine Ensures.bind ((restoreRoot_ensures hr).weaken (fun w h => h ▸ hw₁.1) (fun _ _ => id)
      htried htried) fun _ => ?_
    exact rollbackSynced_ensures.weaken (fun _ => id) (fun _ _ h => ⟨h.1, h.2, hw₁.2⟩) htried htried

/-- Without a rename there is no way back to go. -/
theorem restoreNames_untouched :
    Keeps (Site.Untouched r prev cand) (restoreNames r false false) := by
  refine keeps_get fun w => ?_
  simp only [Bool.false_eq_true, false_and, if_false]
  exact keeps_get fun w' => keeps_check

/-! ## The exception handlers -/

/-- The steps of `stop`. -/
def stopSteps (point : StopPoint) : List Step := [.closeListeners point, .closeService point]

theorem Coarse.follows_stop (hP : Coarse P) (point : StopPoint) :
    (Daemon.stop point).Follows plan (stopSteps point) P (fun _ => P) P P := by
  refine Ensures.bind (Q := fun _ => P) (ensures_update ?_) fun _ => ?_
  · exact fun w h => hP h rfl rfl fun _ => id
  change Follows plan ([.closeListeners point] ++ [.closeService point]) _ _ _ _ _
  refine Follows.bind (Q := fun _ => P) (follows_step ?_ (fun _ => id) fun _ => id) fun _ =>
    follows_step ?_ (fun _ => id) fun _ => id
  all_goals exact fun w h => hP h rfl rfl fun _ => id

/-- The handler stops the daemon first, and goes on unless that crashes. -/
theorem Coarse.quietly_stop (hP : Coarse P) (point : StopPoint) :
    (quietly (Daemon.stop point)).Ensures plan P
      (fun _ w => P w ∧ plan.first (stopSteps point) ≠ .crashes) (fun _ => False)
      (fun w => P w ∧ plan.first (stopSteps point) = .crashes) :=
  Ensures.orElse (T := fun w => plan.first (stopSteps point) = .raises ∧ P w)
    ((hP.follows_stop point).weaken (fun _ => id) (fun _ w h => ⟨h.2, by simp [h.1]⟩) (fun _ => id)
      fun _ h => h.symm)
    (ensures_pure () fun w h => ⟨h.2, by simp [h.1]⟩)

/-- A receipt under which nothing is removed. -/
theorem Stable.keeps_write (hI : Stable I) {state : Stage} {superseded : Option Name}
    {retain : Bool} (hstate : state ≠ .complete ∧ state ≠ .cleanupPending) :
    Keeps I (writeReplacementState l state r superseded retain) :=
  keeps_step fun w h => hI.receipt h (by simp [Receipt.leftover, hstate])

/-- What a handler leaves: the position it found when it could not even stop the daemon, and else
the one at the end of the way back. -/
def Undone (plan : Plan Step) (P J : Site → Prop) (w : Site) : Prop :=
  if plan.first (stopSteps .rollback) = .crashes then P w else J w

/-- The common part of the two handlers. -/
theorem undo_ensures {Q J : Site → Prop} {movedOld movedCandidate : Bool} {tail : Action Unit}
    (hP : Coarse P) (hJ : Stable J) (hQJ : ∀ w, Q w → J w)
    (hnames : (restoreNames r movedOld movedCandidate).Ensures plan P (fun _ => Q) J J)
    (hwrite : Keeps Q write) (htail : tail.Ensures plan Q (fun _ => J) J J) :
    (do
      quietly (stop .rollback)
      handle (do restoreNames r movedOld movedCandidate; write)
        (quietly (writeReplacementState (.receipt .rollbackFailed) .rollbackFailed r
          (some r.superseded) false))
      tail : Action Unit).Ensures plan P (fun _ => Undone plan P J) (Undone plan P J)
      (Undone plan P J) := by
  by_cases hstop : plan.first (stopSteps .rollback) = .crashes
  · have hundone : Undone plan P J = P := by funext w; simp [Undone, hstop]
    rw [hundone]
    exact ((hP.quietly_stop .rollback).weaken (B := fun _ _ => False) (D := P) (fun _ => id)
      (fun _ _ h => h.2 hstop) (fun _ => False.elim) fun _ h => h.1).bind fun _ w => False.elim
  · have hundone : Undone plan P J = J := by funext w; simp [Undone, hstop]
    rw [hundone]
    refine ((hP.quietly_stop .rollback).weaken (B := fun _ => P) (fun _ => id) (fun _ _ h => h.1)
      (fun _ => False.elim) fun _ h => absurd h.2 hstop).bind fun _ => ?_
    refine Ensures.bind (Q := fun _ => Q) (Ensures.handle (T := J) (hnames.bind fun _ =>
      (hwrite plan).fails hQJ hQJ) ?_) fun _ => htail
    exact (hJ.keeps_write (by simp)).quietly plan

/-- A removal elsewhere leaves the active root alone. -/
theorem keeps_rmtree {which : Removal}
    (h : ∀ {w : Site} {tree : Option Tree}, I w → I (w.put n tree)) : Keeps I (rmtree which n) :=
  (keeps_step fun _ hw => h hw).bind fun _ => keeps_step fun _ hw => h hw

theorem Receipt.ne_root_of_leftover {rec : Receipt} (h : rec.leftover = some n) :
    n ≠ .root := by
  rintro rfl
  unfold Receipt.leftover at h
  split at h
  · simp [Option.filter_eq_some_iff, Name.superseded] at h
  · simp at h

/-- What is removed is not at the active root. -/
theorem cleanup_elsewhere (hremove : ∀ {n : Name}, n ≠ .root → Keeps I (rmtree .leftover n))
    (hreceipt : ∀ {w : Site} {rec : Option Receipt}, I w → I { w with receipt := rec }) :
    Keeps I cleanupCompletedReplacement := by
  refine keeps_get fun w => ?_
  split
  · exact keeps_pure ()
  next rec n hsome =>
    have hn : n ≠ .root := by
      obtain ⟨rec', -, hleft⟩ := Option.bind_eq_some_iff.mp hsome
      obtain ⟨n', hn', heq⟩ := Option.map_eq_some_iff.mp hleft
      obtain ⟨rfl, rfl⟩ : rec' = rec ∧ n' = n := by simpa using heq
      exact Receipt.ne_root_of_leftover hn'
    split
    · exact ((hremove hn).bind fun _ => keeps_step fun _ h => hreceipt h).quietly
    · exact keeps_pure ()

theorem Site.Kept.put (h : w.Kept prev) (hn : n ≠ .root) (tree : Option Tree) :
    (w.put n tree).Kept prev := by
  rw [Site.Kept, Site.shape_put, Function.update_of_ne hn.symm]
  exact h

/-- What an exception handler has to do, from each position. -/
structure Handles (r : Replacement) (prev cand : Nat × Bool × Bool) (plan : Plan Step)
    (handler : Bool → Bool → Action Unit) : Prop where
  untouched : (handler false false).Ensures plan (Site.Untouched r prev cand)
    (fun _ => Site.Kept prev) (Site.Kept prev) (Site.Kept prev)
  aside : (handler true false).Ensures plan (Site.Aside r prev cand)
    (fun _ => Undone plan (Site.Aside r prev cand) (Site.RootTried r prev cand plan))
    (Undone plan (Site.Aside r prev cand) (Site.RootTried r prev cand plan))
    (Undone plan (Site.Aside r prev cand) (Site.RootTried r prev cand plan))
  published : (handler true true).Ensures plan (Site.Published r prev cand)
    (fun _ => Undone plan (Site.Published r prev cand) (Site.BothTried r prev cand plan))
    (Undone plan (Site.Published r prev cand) (Site.BothTried r prev cand plan))
    (Undone plan (Site.Published r prev cand) (Site.BothTried r prev cand plan))

/-- A handler that stops the daemon, goes the way back, writes a receipt, and then does something that
leaves the active root alone. -/
theorem Handles.of_undo (hr : r.Proper) {tail : Action Unit}
    (hwrite : ∀ {I : Site → Prop}, Stable I → Keeps I write) (htail : Keeps (Site.Kept prev) tail) :
    Handles r prev cand plan fun movedOld movedCandidate => do
      quietly (stop .rollback)
      handle (do restoreNames r movedOld movedCandidate; write)
        (quietly (writeReplacementState (.receipt .rollbackFailed) .rollbackFailed r
          (some r.superseded) false))
      tail where
  untouched := by
    have hkept : ∀ w, Undone plan (Site.Untouched r prev cand) (Site.Kept prev) w →
        w.Kept prev := by
      intro w hw
      unfold Undone at hw
      split at hw
      · exact hw.kept
      · exact hw
    refine (undo_ensures Stable.untouched.coarse .kept (fun _ h => h.kept)
      ((restoreNames_untouched plan).fails (fun _ h => h.kept) fun _ h => h.kept)
      (hwrite .untouched) ((htail plan).pre fun _ h => h.kept)).ends hkept
  aside := by
    refine undo_ensures Stable.aside.coarse .rootTried (fun _ h => h.1.kept.rootTried h.2)
      (restoreNames_aside hr) (hwrite (Stable.untouched.and _)) (.given fun hroot => ?_)
    exact ((htail plan).pre fun _ h => h.kept).ends fun _ h => h.rootTried hroot
  published := by
    refine undo_ensures Stable.published.coarse .bothTried (fun _ h => h.1.kept.bothTried h.2)
      (restoreNames_published hr) (hwrite (Stable.untouched.and _)) (.given fun hback => ?_)
    exact ((htail plan).pre fun _ h => h.kept).ends fun _ h => h.bothTried hback

/-- The handler of `activate_candidate` starts the realm at the active root again. -/
theorem Handles.rollback (hr : r.Proper) : Handles r prev cand plan (rollback r) :=
  .of_undo hr (fun hI => keeps_get fun _ => hI.keeps_write (by simp))
    Stable.kept.coarse.keeps_start_.quietly

/-- The handler of `replace_from_backup` removes the candidate. -/
theorem Handles.offlineRollback (hr : r.Proper) : Handles r prev cand plan (offlineRollback r) := by
  refine .of_undo hr (fun hI => hI.keeps_write (by simp)) (keeps_get fun w => ?_)
  split
  · exact keeps_rmtree fun h => h.put hr.candidate _
  · exact keeps_pure ()

end Positions

end WorkspaceRuntime.Daemon
