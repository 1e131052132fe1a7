import WorkspaceRuntime.Daemon.Positions

/-!
# Replacing a realm

`activate_candidate` and `replace_from_backup` make the same moves with the same exception handler
around them (`prepare_settles`, `expose_settles`, `publish_settles`). The active root is left without a realm exactly when the call is stranded:
the process stops between the two renames, or the rename that would bring the previous realm back does
not happen. A start of the daemon after that finds no realm and does not look at the receipt.
-/

namespace WorkspaceRuntime.Daemon

open Proc

variable {w : Site} {rest : Action Unit}

section Swap

variable {r : Replacement} {prev cand : Nat × Bool × Bool} {plan : Plan Step}
  {handler : Bool → Bool → Action Unit} {prepare expose publish : Action Unit}
  {before window : List Step} {w₀ w₁ w₂ : Site} {ending : Ending Unit}

/-- After the candidate has served, whatever happens to the rest. -/
theorem completeReplacement_finished : Keeps (Site.Finished cand) (completeReplacement r) := by
  have hwrite : ∀ {l state superseded retain},
      Keeps (Site.Finished cand) (writeReplacementState l state r superseded retain) :=
    keeps_step fun w h => ⟨h.root, h.served⟩
  have hput : ∀ {w : Site} {tree : Option Tree}, w.Finished cand →
      (w.put r.superseded tree).Finished cand := by
    intro w tree h
    refine ⟨?_, h.served⟩
    rw [Site.shape_put, Function.update_of_ne r.superseded_ne.symm]
    exact h.root
  refine hwrite.quietly.bind fun _ => ?_
  split
  · exact ((keeps_rmtree hput).bind fun _ => hwrite.quietly).orElse hwrite.quietly
  · exact keeps_pure ()

/-- The candidate was at the active root and did not start; it was moved away, and the previous realm
was not moved back. -/
def PublicationStrands (plan : Plan Step) (publication : Ending Unit) : Prop :=
  publication = .raised ∧ plan.first (stopSteps .rollback) ≠ .crashes ∧
    plan .rollbackCandidate = .ok ∧ plan .rollbackRoot ≠ .ok

/-- The previous realm is aside, and neither the candidate nor the realm itself is moved to the active
root after that. -/
def WindowStrands (plan : Plan Step) (window : List Step) (publication : Ending Unit) : Prop :=
  match plan.first window with
  | .crashes => True
  | .raises => plan.first (stopSteps .rollback) = .crashes ∨ plan .rollbackRoot ≠ .ok
  | .ok => PublicationStrands plan publication

/-- The active root is lost. -/
def Strands (plan : Plan Step) (before window : List Step) (publication : Ending Unit) : Prop :=
  plan.first before = .ok ∧ WindowStrands plan window publication

open Classical in
/-- Where a replacement ends. -/
def Site.Ends (r : Replacement) (prev cand : Nat × Bool × Bool) (stranded : Prop) (w : Site) : Prop :=
  if stranded then w.Aside r prev cand
  else w.Kept prev ∨ w.Published r prev cand ∨ w.Finished cand

/-- A part of a replacement that ends as the plan decides. -/
abbrev Settles (r : Replacement) (prev cand : Nat × Bool × Bool) (plan : Plan Step) (w₀ : Site)
    (p : Action Unit) (stranded : Prop) : Prop :=
  p.Ensures plan (fun w => w = w₀) (fun _ => Site.Ends r prev cand stranded)
    (Site.Ends r prev cand stranded) (Site.Ends r prev cand stranded)

theorem Site.ends_of_aside {stranded : Prop} (h : stranded) (hw : w.Aside r prev cand) :
    w.Ends r prev cand stranded := by
  rw [Site.Ends, if_pos h]
  exact hw

theorem Site.ends_of_held {stranded : Prop} (h : ¬stranded)
    (hw : w.Kept prev ∨ w.Published r prev cand ∨ w.Finished cand) :
    w.Ends r prev cand stranded := by
  rw [Site.Ends, if_neg h]
  exact hw

/-- From the publication of the candidate on. -/
theorem publish_settles (hh : Handles r prev cand plan handler)
    (hpublish : publish.Ensures plan (fun w => w = w₂)
      (fun _ w => w.Published r prev cand ∧ ∃ x ∈ w.served, x.inode = cand.1)
      (Site.Published r prev cand) (Site.Published r prev cand)) :
    Settles r prev cand plan w₂
      (do
        handle publish (handler true true)
        completeReplacement r)
      (PublicationStrands plan (publish plan w₂).1) := by
  -- how the publication ends is known at this site
  have hending : publish.Ensures plan (fun w => w = w₂)
      (fun _ w => w.Finished cand ∧ (publish plan w₂).1 ≠ .raised)
      (fun w => w.Published r prev cand ∧ (publish plan w₂).1 = .raised)
      (fun w => w.Published r prev cand ∧ (publish plan w₂).1 ≠ .raised) := by
    intro w hw
    have hrun := hpublish w hw
    subst hw
    rcases hp : publish plan w with ⟨a | _ | _, w'⟩ <;> simp only [hp] at hrun ⊢
    · exact ⟨⟨hrun.1.root, hrun.2⟩, by simp⟩
    · exact ⟨hrun, trivial⟩
    · exact ⟨hrun, by simp⟩
  generalize (publish plan w₂).1 = ending at hending ⊢
  have hundone : ∀ w, Undone plan (Site.Published r prev cand) (Site.BothTried r prev cand plan) w →
      ending = .raised → w.Ends r prev cand (PublicationStrands plan ending) := by
    intro w hw hraised
    unfold Undone Site.BothTried Site.RootTried at hw
    split at hw
    next hstop => exact Site.ends_of_held (fun h => h.2.1 hstop) (.inr (.inl hw))
    next hstop =>
      split at hw
      next hcand =>
        split at hw
        next hroot => exact Site.ends_of_held (fun h => h.2.2.2 hroot) (.inl hw)
        next hroot => exact Site.ends_of_aside ⟨hraised, hstop, hcand, hroot⟩ hw
      next hcand => exact Site.ends_of_held (fun h => hcand h.2.2.1) (.inr (.inl hw))
  by_cases hraised : ending = .raised
  · refine Ensures.bind (Q := fun _ _ => False) (Ensures.handle (hending.weaken (fun _ => id)
      (fun _ _ h => h.2 hraised) (fun _ h => h.1) fun _ h => absurd hraised h.2)
      (hh.published.ends fun w h => hundone w h hraised)) fun _ _ => False.elim
  · have hheld : ¬PublicationStrands plan ending := fun h => hraised h.1
    have hfinished : ∀ w : Site, w.Finished cand → w.Ends r prev cand _ :=
      fun w h => Site.ends_of_held hheld (.inr (.inr h))
    refine Ensures.bind (Q := fun _ w => w.Finished cand) (Ensures.handle_of_ne
      (hending.weaken (fun _ => id) (fun _ _ h => h.1) (fun _ h => hraised h.2)
        fun w h => Site.ends_of_held hheld (.inr (.inl h.1)))) fun _ => ?_
    exact (completeReplacement_finished plan).ends hfinished

/-- From the moment on at which the previous realm is aside. -/
theorem expose_settles (hh : Handles r prev cand plan handler)
    (hexpose : expose.Follows plan window (fun w => w = w₁) (fun _ w => w = w₂)
      (Site.Aside r prev cand) (Site.Aside r prev cand))
    (hrest : Settles r prev cand plan w₂ rest (PublicationStrands plan ending)) :
    Settles r prev cand plan w₁
      (do
        handle expose (handler true false)
        rest)
      (WindowStrands plan window ending) := by
  unfold WindowStrands
  cases hwindow : plan.first window with
  | crashes =>
    refine Ensures.bind (Q := fun _ _ => False) (Ensures.handle_of_ne (hexpose.weaken (fun _ => id)
      (fun _ _ h => ?_) (fun _ h => ?_) fun w h => ?_)) fun _ _ => False.elim
    · simp [hwindow] at h
    · simp [hwindow] at h
    · exact Site.ends_of_aside trivial h.2
  | raises =>
    dsimp only
    have hundone : ∀ w, Undone plan (Site.Aside r prev cand) (Site.RootTried r prev cand plan) w →
        w.Ends r prev cand
          (plan.first (stopSteps .rollback) = .crashes ∨ plan .rollbackRoot ≠ .ok) := by
      intro w hw
      unfold Undone Site.RootTried at hw
      split at hw
      next hstop => exact Site.ends_of_aside (.inl hstop) hw
      next hstop =>
        split at hw
        next hroot =>
          exact Site.ends_of_held (fun h => h.elim hstop fun h => h hroot) (.inl hw)
        next hroot => exact Site.ends_of_aside (.inr hroot) hw
    refine Ensures.bind (Q := fun _ _ => False) (Ensures.handle (hexpose.weaken (fun _ => id)
      (fun _ _ h => ?_) (fun _ h => h.2) fun _ h => ?_) (hh.aside.ends hundone))
      fun _ _ => False.elim
    · simp [hwindow] at h
    · simp [hwindow] at h
  | ok =>
    exact (hexpose.of_ok hwindow).handle_of_ne.bind fun _ => hrest

/-- The whole course. -/
theorem prepare_settles (hh : Handles r prev cand plan handler)
    (hprepare : prepare.Follows plan before (fun w => w = w₀) (fun _ w => w = w₁)
      (Site.Untouched r prev cand) (Site.Untouched r prev cand))
    (hrest : Settles r prev cand plan w₁ rest (WindowStrands plan window ending)) :
    Settles r prev cand plan w₀
      (do
        handle prepare (handler false false)
        rest)
      (Strands plan before window ending) := by
  by_cases hbefore : plan.first before = .ok
  · have hstrands : Strands plan before window ending = WindowStrands plan window ending := by
      simp [Strands, hbefore]
    rw [hstrands]
    exact (hprepare.of_ok hbefore).handle_of_ne.bind fun _ => hrest
  · have hkept : ∀ w : Site, w.Kept prev → w.Ends r prev cand (Strands plan before window ending) :=
      fun w hw => Site.ends_of_held (fun h => hbefore h.1) (.inl hw)
    exact Ensures.bind (Q := fun _ _ => False) (Ensures.handle (hprepare.weaken (fun _ => id)
      (fun _ _ h => hbefore h.1) (fun _ h => h.2) fun w h => hkept w h.2.kept)
      (hh.untouched.ends hkept)) fun _ _ => False.elim

end Swap

/-! ## The two replacements -/

section Calls

variable {r : Replacement} {prev cand : Nat × Bool × Bool} {plan : Plan Step} {w₀ w₁ w₂ : Site}
  {state : Stage}

/-- The site with a receipt of this replacement. -/
def Site.receive (w : Site) (r : Replacement) (state : Stage) : Site :=
  { w with receipt := some ⟨state, r.candidate, some r.superseded, r.retainSuperseded⟩ }

/-- The site with a daemon that has stopped. -/
def Site.halted (w : Site) : Site := { w with serving := false, httpd := false, service := none }

/-- The previous realm goes aside. -/
theorem Site.Untouched.quarantine (hr : r.Proper) (h : w.Untouched r prev cand)
    (hreceipt : w.NoLeftover) : (w.move .root r.superseded).Aside r prev cand where
  root := by simp [Site.shape_move]
  candidate := by simp [Site.shape_move, hr.candidate, hr.superseded, h.candidate]
  superseded := by simp [Site.shape_move, r.superseded_ne, h.root]
  receipt := hreceipt

/-- The candidate goes to the active root. -/
theorem Site.Aside.publish (hr : r.Proper) (h : w.Aside r prev cand) :
    (w.move r.candidate .root).Published r prev cand where
  root := by simp [Site.shape_move, hr.candidate.symm, h.candidate]
  candidate := by simp [Site.shape_move]
  superseded := by
    simp [Site.shape_move, hr.superseded.symm, r.superseded_ne, h.superseded]
  receipt := h.receipt

theorem Site.noLeftover_receive (hstate : state ≠ .complete ∧ state ≠ .cleanupPending) :
    (w.receive r state).NoLeftover := by
  rintro _ ⟨⟩
  simp [Receipt.leftover, hstate]

section Exact

variable {a : Site} {R : Site → Prop}

theorem follows_check {l : Step} (hR : R a) :
    (check l).Follows plan [l] (fun w => w = a) (fun _ w => w = a) R R :=
  follows_step (fun _ => id) (fun _ h => h ▸ hR) fun _ h => h ▸ hR

theorem follows_writeStage (hR : R a) :
    (writeStage r state).Follows plan [.receipt state] (fun w => w = a)
      (fun _ w => w = a.receive r state) R R :=
  follows_step (fun _ h => h ▸ rfl) (fun _ h => h ▸ hR) fun _ h => h ▸ hR

theorem follows_requireVerified (hverified : (a.dir r.candidate).any (·.verified) = true) :
    (requireVerified r).Follows plan [] (fun w => w = a) (fun _ w => w = a) R R := by
  refine ensures_get fun w hw => ?_
  subst hw
  rw [Proc.require, if_pos hverified]
  exact follows_pure () fun _ => id

theorem follows_stop {point : StopPoint} (hR : ∀ w, w.dir = a.dir → R w) :
    (stop point).Follows plan (stopSteps point) (fun w => w = a) (fun _ w => w = a.halted) R R := by
  refine Ensures.bind (Q := fun _ w => w = { a with serving := false })
    (ensures_update fun _ h => h ▸ rfl) fun _ => ?_
  change Follows plan ([.closeListeners point] ++ [.closeService point]) _ _ _ _ _
  refine Follows.bind (Q := fun _ w => w = { a with serving := false, httpd := false })
    (follows_step (fun _ h => h ▸ rfl) (fun _ h => hR _ (h ▸ rfl)) fun _ h => hR _ (h ▸ rfl))
    fun _ => follows_step (fun _ h => h ▸ rfl) (fun _ h => hR _ (h ▸ rfl)) fun _ h => hR _ (h ▸ rfl)

theorem follows_move {l : Step} {source target : Name}
    (hready : (a.shape source).isSome ∧ (a.shape target).isNone) (hR : R a) :
    (rename l source target).Follows plan [l] (fun w => w = a)
      (fun _ w => w = a.move source target) R R :=
  follows_rename (fun _ h => h ▸ hready) (fun _ h => h ▸ rfl) (fun _ h => h ▸ hR) fun _ h => h ▸ hR

end Exact

theorem publication_ensures (hstate : state ≠ .complete ∧ state ≠ .cleanupPending)
    (h : w₂.Published r prev cand) :
    (publication r state).Ensures plan (fun w => w = w₂)
      (fun _ w => w.Published r prev cand ∧ ∃ x ∈ w.served, x.inode = cand.1)
      (Site.Published r prev cand) (Site.Published r prev cand) := by
  refine Ensures.pre (P := Site.Published r prev cand) ?_ fun _ h' => h' ▸ h
  refine (keeps_check plan).bind fun _ => (Stable.published.keeps_write hstate plan).bind fun _ => ?_
  refine Stable.published.coarse.start_ fun w tree hw htree => ?_
  have hroot := hw.root
  rw [Site.shape, htree] at hroot
  exact congrArg Prod.fst (Option.some.inj hroot)

/-- The steps of `activate_candidate` up to the first rename. -/
def activationSteps : List Step :=
  [.fences, .verification, .receipt .verified, .closeListeners .replacement,
    .closeService .replacement, .receipt .ownerStopped, .secondVerification, .quarantine]

/-- The steps of `activate_candidate` while the active root is free. -/
def activationWindow : List Step := [.quarantineSynced, .receipt .oldQuarantined, .publish]

/-- The site when `activate_candidate` has moved the previous realm aside. -/
def Site.quarantined (w : Site) (r : Replacement) : Site :=
  (w.halted.receive r .ownerStopped).move .root r.superseded

/-- The site when `activate_candidate` has moved the candidate to the active root. -/
def Site.activated (w : Site) (r : Replacement) : Site :=
  ((w.quarantined r).receive r .oldQuarantined).move r.candidate .root

theorem prepareActivation_follows (h : w₀.Untouched r prev cand)
    (hverified : (w₀.dir r.candidate).any (·.verified) = true) :
    (prepareActivation r).Follows plan activationSteps (fun w => w = w₀)
      (fun _ w => w = w₀.quarantined r) (Site.Untouched r prev cand) (Site.Untouched r prev cand) := by
  have hsame : ∀ w : Site, w.dir = w₀.dir → w.Untouched r prev cand := by
    intro w hdir
    have hshape : w.shape = w₀.shape := by funext n; simp [Site.shape, hdir]
    exact ⟨hshape ▸ h.root, hshape ▸ h.candidate, hshape ▸ h.superseded⟩
  have hstopped : (w₀.receive r .verified).halted.Untouched r prev cand := hsame _ rfl
  have hwritten : ((w₀.receive r .verified).halted.receive r .ownerStopped).Untouched r prev cand :=
    hsame _ rfl
  have hready : (w₀.shape .root).isSome ∧ (w₀.shape r.superseded).isNone := by
    simp [h.root, h.superseded]
  change Follows plan ([.fences] ++ ([.verification] ++ ([] ++ ([.receipt .verified] ++
    (stopSteps .replacement ++ ([.receipt .ownerStopped] ++ ([.secondVerification] ++
      ([] ++ [.quarantine])))))))) _ _ _ _ _
  exact (follows_check h).bind fun _ => (follows_check h).bind fun _ =>
    (follows_requireVerified hverified).bind fun _ => (follows_writeStage h).bind fun _ =>
    (follows_stop (a := w₀.receive r .verified) hsame).bind fun _ =>
    (follows_writeStage hstopped).bind fun _ => (follows_check hwritten).bind fun _ =>
    (follows_requireVerified (a := (w₀.receive r .verified).halted.receive r .ownerStopped)
      hverified).bind fun _ => follows_move hready hwritten

/-- The `try` block of `activate_candidate`. -/
theorem activation_settles (hr : r.Proper) (h : w₀.Untouched r prev cand)
    (hverified : (w₀.dir r.candidate).any (·.verified) = true) :
    Settles r prev cand plan w₀
      (do
        handle (prepareActivation r) (rollback r false false)
        handle (exposeActivation r) (rollback r true false)
        handle (publication r .candidatePublished) (rollback r true true)
        completeReplacement r)
      (Strands plan activationSteps activationWindow
        (publication r .candidatePublished plan (w₀.activated r)).1) := by
  have haside : (w₀.quarantined r).Aside r prev cand :=
    Site.Untouched.quarantine hr ⟨h.root, h.candidate, h.superseded⟩
      (Site.noLeftover_receive (by simp))
  have haside' : ((w₀.quarantined r).receive r .oldQuarantined).Aside r prev cand :=
    Stable.aside.receipt haside (by simp [Receipt.leftover])
  have hready : (((w₀.quarantined r).receive r .oldQuarantined).shape r.candidate).isSome ∧
      (((w₀.quarantined r).receive r .oldQuarantined).shape .root).isNone := by
    simp [haside'.candidate, haside'.root]
  refine prepare_settles (.rollback hr) (prepareActivation_follows h hverified)
    (expose_settles (.rollback hr) ?_
      (publish_settles (.rollback hr) (publication_ensures (by simp) (haside'.publish hr))))
  change Follows plan ([.quarantineSynced] ++ ([.receipt .oldQuarantined] ++ [.publish])) _ _ _ _ _
  exact (follows_check haside).bind fun _ => (follows_writeStage haside).bind fun _ =>
    follows_move hready haside'

/-- The steps of `replace_from_backup` from the restored candidate up to the first rename. -/
def offlineSteps : List Step :=
  [.fences, .verification, .custody, .receipt .offlineVerified, .quarantine]

/-- The steps of `replace_from_backup` while the active root is free. -/
def offlineWindow : List Step := [.quarantineSynced, .publish]

/-- The site when `replace_from_backup` has moved the previous realm aside. -/
def Site.quarantinedOffline (w : Site) (r : Replacement) : Site :=
  (w.receive r .offlineVerified).move .root r.superseded

/-- The site when `replace_from_backup` has moved the candidate to the active root. -/
def Site.replaced (w : Site) (r : Replacement) : Site :=
  (w.quarantinedOffline r).move r.candidate .root

theorem prepareOffline_follows (h : w₀.Untouched r prev cand)
    (hverified : (w₀.dir r.candidate).any (·.verified) = true) :
    (prepareOffline r).Follows plan offlineSteps (fun w => w = w₀)
      (fun _ w => w = w₀.quarantinedOffline r) (Site.Untouched r prev cand)
      (Site.Untouched r prev cand) := by
  have hwritten : (w₀.receive r .offlineVerified).Untouched r prev cand :=
    ⟨h.root, h.candidate, h.superseded⟩
  have hready : ((w₀.receive r .offlineVerified).shape .root).isSome ∧
      ((w₀.receive r .offlineVerified).shape r.superseded).isNone := by
    simp [hwritten.root, hwritten.superseded]
  change Follows plan ([.fences] ++ ([.verification] ++ ([] ++ ([.custody] ++
    ([.receipt .offlineVerified] ++ [.quarantine]))))) _ _ _ _ _
  exact (follows_check h).bind fun _ => (follows_check h).bind fun _ =>
    (follows_requireVerified hverified).bind fun _ => (follows_check h).bind fun _ =>
    (follows_writeStage h).bind fun _ => follows_move hready hwritten

/-- The `try` block of `replace_from_backup`. -/
theorem offline_settles (hr : r.Proper) (h : w₀.Untouched r prev cand)
    (hverified : (w₀.dir r.candidate).any (·.verified) = true) :
    Settles r prev cand plan w₀
      (do
        handle (prepareOffline r) (offlineRollback r false false)
        handle (exposeOffline r) (offlineRollback r true false)
        handle (publication r .offlineCandidatePublished) (offlineRollback r true true)
        completeReplacement r)
      (Strands plan offlineSteps offlineWindow
        (publication r .offlineCandidatePublished plan (w₀.replaced r)).1) := by
  have haside : (w₀.quarantinedOffline r).Aside r prev cand :=
    Site.Untouched.quarantine hr ⟨h.root, h.candidate, h.superseded⟩
      (Site.noLeftover_receive (by simp))
  have hready : ((w₀.quarantinedOffline r).shape r.candidate).isSome ∧
      ((w₀.quarantinedOffline r).shape .root).isNone := by
    simp [haside.candidate, haside.root]
  refine prepare_settles (.offlineRollback hr) (prepareOffline_follows h hverified)
    (expose_settles (.offlineRollback hr) ?_
      (publish_settles (.offlineRollback hr) (publication_ensures (by simp) (haside.publish hr))))
  change Follows plan ([.quarantineSynced] ++ [.publish]) _ _ _ _ _
  exact (follows_check haside).bind fun _ => follows_move hready haside

/-- A candidate that does not verify is not moved. -/
theorem unverified_kept {handler : Bool → Bool → Action Unit}
    (hh : Handles r prev cand plan handler) (h : w₀.Untouched r prev cand)
    (hverified : (w₀.dir r.candidate).any (·.verified) = false) {prepare : Action Unit} :
    (do
      handle
        (do
          check .fences
          check .verification
          requireVerified r
          prepare)
        (handler false false)
      rest : Action Unit).Ensures plan (fun w => w = w₀) (fun _ => Site.Kept prev)
      (Site.Kept prev) (Site.Kept prev) := by
  have hcheck : ∀ l, (check l).Ensures plan (fun w => w = w₀) (fun _ w => w = w₀)
      (Site.Untouched r prev cand) (Site.Kept prev) := fun l =>
    (keeps_check plan).fails (fun _ he => he ▸ h) fun _ he => he ▸ h.kept
  refine Ensures.bind (Q := fun _ _ => False) (Ensures.handle (T := Site.Untouched r prev cand)
    ((hcheck _).bind fun _ => (hcheck _).bind fun _ => ?_) hh.untouched) fun _ _ => False.elim
  refine Ensures.bind (Q := fun _ _ => False) (ensures_get fun w hw => ?_) fun _ _ => False.elim
  subst hw
  rw [Proc.require, if_neg (by simp [hverified])]
  exact ensures_raise fun _ he => he ▸ h

end Calls

/-! ## Calls -/

/-- A call that replaces the active realm. -/
inductive Call where
  | activate (r : Replacement)
  | offline (r : Replacement) (backup : State) (inode : Nat) (accepted : Bool)

namespace Call

/-- The arguments of the call. -/
def request : Call → Replacement
  | activate r | offline r _ _ _ => r

/-- The procedure of the call. -/
def action : Call → Action Unit
  | activate r => activateCandidate r
  | offline r backup inode accepted => replaceFromBackup r backup inode accepted

/-- The candidate of the call. -/
def candidate (w : Site) : Call → Option Tree
  | activate r => w.dir r.candidate
  | offline _ backup inode accepted => some (restored backup inode accepted)

/-- The call goes as far as to move the previous realm aside, and the active root stays free. -/
def Stranded (plan : Plan Step) (w : Site) : Call → Prop
  | activate r =>
    (w.service.isSome ∧ w.httpd = true) ∧ (r.candidate ≠ .root ∧ (w.dir r.candidate).isSome) ∧
      (w.dir r.candidate).any (·.verified) = true ∧ plan .capture = .ok ∧
      Strands plan activationSteps activationWindow
        (publication r .candidatePublished plan (w.activated r)).1
  | offline r backup inode accepted =>
    (w.service = none ∧ w.httpd = false) ∧ backup ∈ w.backups ∧
      ((w.dir .root).isSome ∧ r.candidate ≠ .root ∧ r.candidate.superseded = false ∧
        (w.dir r.candidate).isNone) ∧
      accepted = true ∧
      plan.first [.verifyBackup, .restoreBegin, .restoreFinish, .capture] = .ok ∧
      Strands plan offlineSteps offlineWindow
        (publication r .offlineCandidatePublished plan
          ((w.put r.candidate (some (restored backup inode accepted))).replaced r)).1

end Call

/-- The active root holds the previous realm or the verified candidate, complete. -/
def Site.Holds (w : Site) (prev : Tree) (cand : Option Tree) : Prop :=
  ∃ tree, w.dir .root = some tree ∧ tree.whole = true ∧
    (tree.inode = prev.inode ∨ ∃ c, cand = some c ∧ c.verified = true ∧ tree.inode = c.inode)

/-- The previous realm is there, complete, or the candidate has served. -/
def Site.Retains (w : Site) (prev : Tree) (cand : Option Tree) : Prop :=
  (∃ n tree, w.dir n = some tree ∧ tree.whole = true ∧ tree.inode = prev.inode) ∨
    ∃ c, cand = some c ∧ ∃ x ∈ w.served, x.inode = c.inode

section Main

variable {call : Call} {plan : Plan Step} {w w' : Site} {prev : Tree} {I : Site → Prop}

/-- Where a call ends: the previous realm was not moved, or the course of the replacement decides. -/
def Call.Ended (call : Call) (plan : Plan Step) (w : Site) (prev : Tree) (w' : Site) : Prop :=
  (w'.Kept prev.shape ∧ ¬call.Stranded plan w) ∨
    ∃ c, call.candidate w = some c ∧ c.verified = true ∧
      w'.Ends call.request prev.shape c.shape (call.Stranded plan w)

theorem superseded_superseded (r : Replacement) : r.superseded.superseded = true := by
  simp [Replacement.superseded, Name.superseded]

/-- The previous realm is where it was, and the call is not stranded. -/
theorem Call.ended_of_kept (hnot : ¬call.Stranded plan w) (h : w'.Kept prev.shape) :
    call.Ended plan w prev w' := .inl ⟨h, hnot⟩

theorem activate_ended {r : Replacement} (hroot : w.dir .root = some prev)
    (hfresh : w.dir r.superseded = none) :
    (activateCandidate r).Ensures plan (fun w' => w' = w)
      (fun _ => (Call.activate r).Ended plan w prev) ((Call.activate r).Ended plan w prev)
      ((Call.activate r).Ended plan w prev) := by
  have hkept : ∀ w', w' = w → w'.Kept prev.shape := by
    rintro _ rfl
    simp [Site.Kept, Site.shape, hroot]
  refine ensures_get fun w' hw' => ?_
  rw [hw']
  refine ensures_require (fun hrunning => ?_) fun hrunning w' hw' =>
    Call.ended_of_kept (fun h => hrunning h.1) (hkept w' hw')
  refine ensures_require (fun hcandidate => ?_) fun hcandidate w' hw' =>
    Call.ended_of_kept (fun h => hcandidate h.2.1) (hkept w' hw')
  obtain ⟨c, hc⟩ := Option.isSome_iff_exists.mp hcandidate.2
  have hr : r.Proper := ⟨hcandidate.1, fun heq => by simp [← heq, hc] at hfresh⟩
  have huntouched : w.Untouched r prev.shape c.shape :=
    ⟨by simp [Site.shape, hroot], by simp [Site.shape, hc], by simp [Site.shape, hfresh]⟩
  refine Ensures.bind (Q := fun _ w' => w' = w ∧ plan .capture = .ok)
    (ensures_step (fun hl _ h => ⟨h, hl⟩) (fun hl w' h => ?_) fun hl w' h => ?_) fun _ =>
    .given fun hcapture => ?_
  iterate 2 exact Call.ended_of_kept (fun hs => by simp [hs.2.2.2.1] at hl) (hkept w' h)
  by_cases hverified : (w.dir r.candidate).any (·.verified) = true
  · have hstranded : (Call.activate r).Stranded plan w ↔ Strands plan activationSteps
        activationWindow (publication r .candidatePublished plan (w.activated r)).1 := by
      simp [Call.Stranded, hrunning, hcandidate.1, hcandidate.2, hverified, hcapture]
    have hsettles := @activation_settles r prev.shape c.shape plan w hr huntouched hverified
    rw [← hstranded] at hsettles
    exact hsettles.ends fun w' h => .inr ⟨c, hc, by simpa [hc] using hverified, h⟩
  · exact (unverified_kept (.rollback hr) huntouched (by simpa using hverified)).ends
      fun w' => Call.ended_of_kept fun hs => hverified hs.2.2.1

/-- `restore_backup` makes the candidate, or leaves the active root alone. -/
theorem restoreBackup_ensures {n : Name} {tree : Tree} (hn : n ≠ .root)
    (hroot : w.dir .root = some prev) :
    (restoreBackup n tree).Ensures plan (fun w' => w' = w)
      (fun _ w' => w' = w.put n (some tree) ∧ plan.first [.restoreBegin, .restoreFinish] = .ok)
      (fun w' => w'.Kept prev.shape ∧ plan.first [.restoreBegin, .restoreFinish] ≠ .ok)
      (fun w' => w'.Kept prev.shape ∧ plan.first [.restoreBegin, .restoreFinish] ≠ .ok) := by
  have hkept : w.Kept prev.shape := by simp [Site.Kept, Site.shape, hroot]
  have hbody : (do
      step .restoreBegin (·.put n (some tree.damaged))
      step .restoreFinish (·.put n (some tree)) : Action Unit).Follows plan
      ([.restoreBegin] ++ [.restoreFinish]) (fun w' => w' = w)
      (fun _ w' => w' = w.put n (some tree)) (Site.Kept prev.shape) (Site.Kept prev.shape) := by
    refine Follows.bind (Q := fun _ w' => w' = w.put n (some tree.damaged))
      (follows_step (fun _ h => h ▸ rfl) (fun _ h => h ▸ hkept) fun _ h => h ▸ hkept) fun _ =>
      follows_step ?_ (fun _ h => h ▸ hkept.put hn _) fun _ h => h ▸ hkept.put hn _
    rintro _ rfl
    simp [Site.put]
  have hremove : Keeps
      (fun w' : Site => w'.Kept prev.shape ∧ plan.first [.restoreBegin, .restoreFinish] ≠ .ok)
      (rmtree .candidate n) := keeps_rmtree fun h => ⟨h.1.put hn _, h.2⟩
  refine Ensures.handle (hbody.weaken (fun _ => id) (fun _ _ => And.symm) (fun w' h => ⟨h.2, ?_⟩)
    fun w' h => ⟨h.2, ?_⟩) (hremove.quietly plan)
  · exact fun hok => by simp [hok] at h
  · exact fun hok => by simp [hok] at h

theorem offline_ended {r : Replacement} {backup : State} {inode : Nat} {accepted : Bool}
    (hroot : w.dir .root = some prev) (hfresh : w.dir r.superseded = none) :
    (replaceFromBackup r backup inode accepted).Ensures plan (fun w' => w' = w)
      (fun _ => (Call.offline r backup inode accepted).Ended plan w prev)
      ((Call.offline r backup inode accepted).Ended plan w prev)
      ((Call.offline r backup inode accepted).Ended plan w prev) := by
  have hkept : ∀ w', w' = w → w'.Kept prev.shape := by
    rintro _ rfl
    simp [Site.Kept, Site.shape, hroot]
  refine ensures_get fun w' hw' => ?_
  rw [hw']
  refine ensures_require (fun hstopped => ?_) fun hstopped w' hw' =>
    Call.ended_of_kept (fun h => hstopped h.1) (hkept w' hw')
  refine ensures_require (fun hbackup => ?_) fun hbackup w' hw' =>
    Call.ended_of_kept (fun h => hbackup h.2.1) (hkept w' hw')
  have hearly : plan.first [.verifyBackup, .restoreBegin, .restoreFinish, .capture] ≠ .ok →
      ∀ w' : Site, w'.Kept prev.shape → (Call.offline r backup inode accepted).Ended plan w prev w' :=
    fun h w' hw' => Call.ended_of_kept (fun hs => h hs.2.2.2.2.1) hw'
  have hcheck : ∀ {l : Step} {a : Site}, a.Kept prev.shape →
      l ∈ [Step.verifyBackup, .restoreBegin, .restoreFinish, .capture] →
      (check l).Ensures plan (fun w' => w' = a) (fun _ w' => w' = a ∧ plan l = .ok)
        ((Call.offline r backup inode accepted).Ended plan w prev)
        ((Call.offline r backup inode accepted).Ended plan w prev) := by
    intro l a ha hmem
    refine ensures_step (fun hl _ h => ⟨h, hl⟩) (fun hl w' h => ?_) fun hl w' h => ?_
    all_goals
      refine hearly (fun hok => ?_) w' (h ▸ ha)
      simpa [hl] using Plan.first_eq_ok.mp hok l hmem
  refine (hcheck (hkept w rfl) (by simp)).bind fun _ => .given fun hverify => ?_
  refine ensures_require (fun hnames => ?_) fun hnames w' hw' =>
    Call.ended_of_kept (fun h => hnames h.2.2.1) (hkept w' hw')
  have hr : r.Proper := by
    refine ⟨hnames.2.1, fun heq => ?_⟩
    simpa [heq, superseded_superseded] using hnames.2.2.1
  -- the candidate is restored
  have hunrestored : plan.first [.restoreBegin, .restoreFinish] ≠ .ok →
      plan.first [.verifyBackup, .restoreBegin, .restoreFinish, .capture] ≠ .ok := by
    rw [ne_eq, ne_eq, Plan.first_eq_ok, Plan.first_eq_ok]
    exact fun h hall => h fun l hl => hall l (by simp at hl ⊢; tauto)
  refine ((restoreBackup_ensures hnames.2.1 hroot).fails
    (fun w' h => hearly (hunrestored h.2) w' h.1)
    fun w' h => hearly (hunrestored h.2) w' h.1).bind fun _ => .given fun hrestored => ?_
  have hkept' : (w.put r.candidate (some (restored backup inode accepted))).Kept prev.shape :=
    (hkept w rfl).put hnames.2.1 _
  refine (hcheck hkept' (by simp)).bind fun _ => .given fun hcapture => ?_
  have huntouched : (w.put r.candidate (some (restored backup inode accepted))).Untouched r
      prev.shape (restored backup inode accepted).shape :=
    ⟨hkept', by simp [Site.shape_put], by
      rw [Site.shape_put, Function.update_of_ne hr.superseded.symm, Site.shape, hfresh]
      rfl⟩
  have hdir : (w.put r.candidate (some (restored backup inode accepted))).dir r.candidate =
      some (restored backup inode accepted) := by simp [Site.put]
  by_cases haccepted : accepted = true
  · have hsteps : plan.first [.verifyBackup, .restoreBegin, .restoreFinish, .capture] = .ok := by
      rw [Plan.first_eq_ok] at hrestored ⊢
      simpa [hverify, hcapture] using hrestored
    have hstranded : (Call.offline r backup inode accepted).Stranded plan w ↔
        Strands plan offlineSteps offlineWindow (publication r .offlineCandidatePublished plan
          ((w.put r.candidate (some (restored backup inode accepted))).replaced r)).1 := by
      simp [Call.Stranded, hstopped, hbackup, hnames, haccepted, hsteps]
    have hsettles := @offline_settles r prev.shape (restored backup inode accepted).shape plan _ hr
      huntouched (by rw [hdir]; exact haccepted)
    rw [← hstranded] at hsettles
    exact hsettles.ends fun w' h => .inr ⟨_, rfl, haccepted, h⟩
  · exact (unverified_kept (.offlineRollback hr) huntouched
      (by rw [hdir]; simpa [restored] using haccepted)).ends
      fun w' => Call.ended_of_kept fun hs => haccepted hs.2.2.2.1

/-! ### The next start -/

/-- Without a receipt that allows it, nothing is removed. -/
theorem cleanup_noLeftover (hI : ∀ w, I w → w.NoLeftover) :
    Keeps I cleanupCompletedReplacement := by
  intro plan
  refine ensures_get fun w hw => ?_
  have hnone : (w.receipt.bind fun r => r.leftover.map fun n => (r, n)) = none := by
    cases hrec : w.receipt with
    | none => rfl
    | some rec => simp [hI w hw rec hrec]
  rw [hnone]
  exact ensures_pure () fun _ h => h ▸ hw

theorem Coarse.keeps_start (hI : Coarse I) (hclean : Keeps I cleanupCompletedReplacement)
    {boot : String} {now : Time} :
    Keeps I (start boot now) := by
  refine keeps_get fun w => ?_
  split
  · exact keeps_pure ()
  · exact hI.keeps_start_.bind fun _ => hclean

/-- The site after the next start of the daemon. -/
def Site.restarted (w : Site) (plan : Plan Step) (boot : String) (now : Time) : Site :=
  (start boot now plan w.reboot).2

theorem Coarse.restarted (hI : Coarse I) (hclean : Keeps I cleanupCompletedReplacement) (hw : I w)
    (plan : Plan Step) (boot : String) (now : Time) : I (w.restarted plan boot now) :=
  (hI.keeps_start hclean).final (hI hw rfl rfl fun _ => id)

theorem Call.Ended.restarted (h : call.Ended plan w prev w') (plan' : Plan Step) (boot : String)
    (now : Time) : call.Ended plan w prev (w'.restarted plan' boot now) := by
  have hkept : ∀ {shape}, w'.Kept shape → (w'.restarted plan' boot now).Kept shape := fun h =>
    Stable.kept.coarse.restarted (cleanup_elsewhere
      (fun hn => keeps_rmtree fun h => h.put hn _) fun h => h) h ..
  rcases h with ⟨hw', hnot⟩ | ⟨c, hc, hverified, hends⟩
  · exact .inl ⟨hkept hw', hnot⟩
  refine .inr ⟨c, hc, hverified, ?_⟩
  unfold Site.Ends at hends ⊢
  split at hends
  next hs =>
    rw [if_pos hs]
    exact Stable.aside.coarse.restarted (cleanup_noLeftover fun _ h => h.receipt) hends ..
  next hs =>
    rw [if_neg hs]
    rcases hends with hends | hends | hends
    · exact .inl (hkept hends)
    · exact .inr (.inl (Stable.published.coarse.restarted
        (cleanup_noLeftover fun _ h => h.receipt) hends ..))
    · refine .inr (.inr (Coarse.restarted ?_ (cleanup_elsewhere ?_ fun h => ⟨h.root, h.served⟩)
        hends ..))
      · intro w₁ w₂ h hs _ hserved
        obtain ⟨x, hx, hxi⟩ := h.served
        exact ⟨(congrFun hs _).trans h.root, x, hserved x hx, hxi⟩
      · exact fun hn => keeps_rmtree fun h => ⟨Site.Kept.put h.root hn _, h.served⟩

/-! ### The theorem -/

theorem Site.dir_of_shape {n : Name} {tree : Tree} (h : w.shape n = some tree.shape) :
    ∃ t, w.dir n = some t ∧ t.inode = tree.inode ∧ t.whole = tree.whole := by
  obtain ⟨t, ht, hshape⟩ := Option.map_eq_some_iff.mp h
  exact ⟨t, ht, congrArg Prod.fst hshape, congrArg (fun x => x.2.1) hshape⟩

/-- The active root holds a realm exactly when the call is not stranded. -/
theorem Call.Ended.holds_iff (hwhole : prev.whole = true) (h : call.Ended plan w prev w') :
    w'.Holds prev (call.candidate w) ↔ ¬call.Stranded plan w := by
  have hkept : w'.Kept prev.shape → w'.Holds prev (call.candidate w) := by
    intro hk
    obtain ⟨t, ht, hinode, hw⟩ := Site.dir_of_shape hk
    exact ⟨t, ht, hw.trans hwhole, .inl hinode⟩
  rcases h with ⟨hw', hnot⟩ | ⟨c, hc, hverified, hends⟩
  · exact iff_of_true (hkept hw') hnot
  have hcand : w'.shape .root = some c.shape → w'.Holds prev (call.candidate w) := by
    intro hroot
    obtain ⟨t, ht, hinode, hw⟩ := Site.dir_of_shape hroot
    exact ⟨t, ht, hw.trans (c.complete hverified), .inr ⟨c, hc, hverified, hinode⟩⟩
  unfold Site.Ends at hends
  split at hends
  next hs =>
    refine iff_of_false ?_ (not_not.mpr hs)
    rintro ⟨t, ht, -⟩
    simpa [Site.shape, ht] using hends.root
  next hs =>
    refine iff_of_true ?_ hs
    rcases hends with hends | hends | hends
    · exact hkept hends
    · exact hcand hends.root
    · exact hcand hends.root

/-- The previous realm is kept until the candidate has served. -/
theorem Call.Ended.retains (hwhole : prev.whole = true) (h : call.Ended plan w prev w') :
    w'.Retains prev (call.candidate w) := by
  have hat : ∀ {n}, w'.shape n = some prev.shape → w'.Retains prev (call.candidate w) := by
    intro n hn
    obtain ⟨t, ht, hinode, hw⟩ := Site.dir_of_shape hn
    exact .inl ⟨n, t, ht, hw.trans hwhole, hinode⟩
  rcases h with ⟨hw', -⟩ | ⟨c, hc, -, hends⟩
  · exact hat hw'
  unfold Site.Ends at hends
  split at hends
  · exact hat hends.superseded
  · rcases hends with hends | hends | hends
    · exact hat hends
    · exact hat hends.superseded
    · exact .inr ⟨c, hc, hends.served⟩

/-- **Realm replacement.** After a call that replaces a complete realm, under any plan of faults, the
active root holds the previous realm or the verified candidate exactly when the call is not stranded,
and a later start of the daemon does not change that. The previous realm is not removed before the
candidate has served. -/
theorem replacement_holds_iff (call : Call) (plan plan' : Plan Step) (w : Site) {prev : Tree}
    (hroot : w.dir .root = some prev) (hwhole : prev.whole = true)
    (hfresh : w.dir call.request.superseded = none) (boot : String) (now : Time) :
    ((call.action plan w).2.Holds prev (call.candidate w) ↔ ¬call.Stranded plan w) ∧
      (((call.action plan w).2.restarted plan' boot now).Holds prev (call.candidate w) ↔
        ¬call.Stranded plan w) ∧
      (call.action plan w).2.Retains prev (call.candidate w) ∧
      ((call.action plan w).2.restarted plan' boot now).Retains prev (call.candidate w) := by
  have hended : call.Ended plan w prev (call.action plan w).2 := by
    cases call with
    | activate r => exact (activate_ended hroot hfresh).final rfl
    | offline r backup inode accepted => exact (offline_ended hroot hfresh).final rfl
  have hrestarted := hended.restarted plan' boot now
  exact ⟨hended.holds_iff hwhole, hrestarted.holds_iff hwhole, hended.retains hwhole,
    hrestarted.retains hwhole⟩

/-! ### A site -/

/-- A request to activate a directory beside the active root. -/
def exampleRequest : Replacement where
  candidate := .sibling "candidate"
  supersededId := "1"
  retainSuperseded := false
  boot := "boot-2"
  rollbackBoot := "boot-3"
  now := 0

/-- The realm that is served. -/
def exampleRealm : Tree := ⟨1, State.initial, true, false, by simp⟩

/-- A daemon that serves a realm beside which there is a verified candidate. -/
def exampleSite : Site where
  dir
    | .root => some exampleRealm
    | .sibling name =>
      if name = "candidate" then some (restored State.initial 2 true) else none
  floor := some 0
  receipt := none
  backups := []
  served := []
  service := some 1
  httpd := true
  serving := true

/-- Every step takes effect but one. -/
def onlyAt (l : Step) (o : Outcome) : Plan Step := fun l' => if l' = l then o else .ok

theorem replacement_holds_iff_activated :
    ((Call.activate exampleRequest).action (fun _ => .ok) exampleSite).2.Holds exampleRealm
      ((Call.activate exampleRequest).candidate exampleSite) := by
  refine (replacement_holds_iff (.activate exampleRequest) (fun _ => .ok) (fun _ => .ok) exampleSite
    rfl rfl (by decide) "boot-4" 0).1.mpr ?_
  rintro ⟨-, -, -, -, -, hraised, -⟩
  revert hraised
  decide +kernel

/-- A crash between the two renames leaves no realm at the active root, and the next start does not
find one either; so does a failed rename on the way back. -/
theorem active_root_lost :
    ¬((Call.activate exampleRequest).action (onlyAt .publish .crashes) exampleSite).2.Holds
        exampleRealm ((Call.activate exampleRequest).candidate exampleSite) ∧
      ¬(((Call.activate exampleRequest).action (onlyAt .publish .crashes) exampleSite).2.restarted
        (fun _ => .ok) "boot-4" 0).Holds exampleRealm
        ((Call.activate exampleRequest).candidate exampleSite) ∧
      ¬((Call.activate exampleRequest).action
        (fun l => if l = .publish ∨ l = .rollbackRoot then .raises else .ok) exampleSite).2.Holds
        exampleRealm ((Call.activate exampleRequest).candidate exampleSite) := by
  have hlost : ∀ {w : Site}, w.dir .root = none →
      ¬w.Holds exampleRealm ((Call.activate exampleRequest).candidate exampleSite) := by
    rintro w hnone ⟨tree, htree, -⟩
    simp [hnone] at htree
  exact ⟨hlost rfl, hlost rfl, hlost rfl⟩

end Main

end WorkspaceRuntime.Daemon
