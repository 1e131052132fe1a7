import WorkspaceRuntime.Timeline.History

/-!
# The versions of shots and references

A writer of a shot or a reference names the version it has read, and the write advances the version.
So a write is refused when the item was changed since, as long as versions only grow. Creations and
writes keep that (`Versioned.Kept`). A save or a recovery of the timeline removes all its items and
inserts them at version 1; it keeps that only for items that are at version 1, not archived, and
listed with the content they have.
-/

namespace WorkspaceRuntime.Timeline

open Fallible Timeline.State

variable {env : Env} {s s' : State} {t : TimelineId} {row : Row} {answer : Answer}
  {key : Option String} {body : Json} {call : Env × Command}

/-! ## What is asked of a run -/

/-- Every shot and reference of a timeline is at version 1 and not archived, and the listing has it
with its content. -/
def State.Untouched (s : State) (t : TimelineId) (listing : Listing) : Prop :=
  s.shots.Untouched t listing.shots ∧ s.references.Untouched t listing.references

/-- A save or a recovery of a timeline finds its items untouched and lists them as they are. -/
def Command.Retains (env : Env) (s : State) : Command → Prop
  | .updateTimeline t body _ => ∀ fields ∈ body.asObj, ∀ shots references,
      s.namedShots env.numerals t fields = .ok shots →
      s.namedReferences env.numerals t fields = .ok references →
      s.Untouched t { shots, references }
  | .recoverTimeline t body _ => ∀ fields ∈ body.asObj, ∀ target row listing,
      targetVersion fields = .ok target → s.timelines.lookup t = some row →
      s.timelineRevision t row target = .ok listing → s.Untouched t listing
  | .createTimeline .. | .createTimelineDocument .. | .archiveTimeline .. | .createShot ..
  | .createReference .. | .updateShot .. | .updateReference .. => True

/-- The call is one on a timeline as a whole. -/
def Command.onTimeline : Command → Bool
  | .updateTimeline .. | .archiveTimeline .. | .recoverTimeline .. => true
  | _ => false

section Run

variable {γ : Type} (items : State → Versioned String TimelineId γ)
  (write : State → Env → String → Json → Action → Option String → Except Err (State × Answer))
  (start : State) (run : List (Env × Command))

/-- What a run keeps of the shots, or of the references. -/
structure RefusesStaleWriters : Prop where
  /-- An item is as it was at any earlier point, or at a higher version. -/
  versions : ∀ before rest, run = before ++ rest →
    (items (Run.replay next start before)).Kept (items (Run.replay next start run))
  /-- A call on the timeline leaves every item as it is. -/
  timelines : ∀ before call rest, run = before ++ call :: rest → call.2.onTimeline = true →
    ∀ i e, (items (Run.replay next start before)).entry i = some e →
      (items (Run.replay next start (before ++ [call]))).entry i = some e
  /-- A write that is executed names the version of an item that nothing has changed since. -/
  writers : ∀ before between rest, run = before ++ between ++ rest →
    ∀ i e, (items (Run.replay next start before)).entry i = some e →
    ∀ env body action key s' answer,
      write (Run.replay next start run) env i body action key = .ok (s', answer) →
      s' ≠ Run.replay next start run →
      body.get? "expected_version" = some (.int e.2.version) →
      (items (Run.replay next start (before ++ between))).entry i = some e

end Run

/-! ## One call -/

/-- The end of a command leaves the items. -/
theorem items_finish {kind : Kind} {aggregate : String} {request : Json} {result : Answer}
    {now : Time} (h : s.finish t row kind aggregate key request result now = .ok (s', answer)) :
    s'.shots = s.shots ∧ s'.references = s.references := by
  simp only [finish, bind_eq_ok, return_ok, Prod.mk.injEq] at h
  obtain ⟨ledger, -, rfl, -⟩ := h
  exact ⟨rfl, rfl⟩

/-- Every shot and every reference is as it was. -/
def State.SameItems (s s' : State) : Prop :=
  (∀ i e, s.shots.entry i = some e → s'.shots.entry i = some e) ∧
    ∀ i e, s.references.entry i = some e → s'.references.entry i = some e

theorem State.SameItems.of_eq (h : s'.shots = s.shots ∧ s'.references = s.references) :
    s.SameItems s' :=
  ⟨fun _ _ he => h.1 ▸ he, fun _ _ he => h.2 ▸ he⟩

/-- Every shot and every reference is as it was, or at a higher version. -/
def State.KeptItems (s s' : State) : Prop :=
  s.shots.Kept s'.shots ∧ s.references.Kept s'.references

theorem State.KeptItems.refl (s : State) : s.KeptItems s := ⟨.refl _, .refl _⟩

theorem State.SameItems.kept (h : s.SameItems s') : s.KeptItems s' :=
  ⟨fun i e he => ⟨e, h.1 i e he, .inl rfl⟩, fun i e he => ⟨e, h.2 i e he, .inl rfl⟩⟩

theorem sameItems_createTimeline {project : String} {id : Json} {name : Option Json}
    (h : s.createTimeline env project id name key = .ok (s', answer)) :
    s.SameItems s' := by
  simp only [createTimeline, bind_eq_ok] at h
  obtain ⟨t, -, -, -, name, -, projectId, -, found, -, h⟩ := h
  cases found with
  | some result => cases h; exact .of_eq ⟨rfl, rfl⟩
  | none =>
    simp only [insertTimeline, bind_eq_ok, return_ok] at h
    obtain ⟨_, ⟨_, -, rfl⟩, h⟩ := h
    have hitems := items_finish h
    exact .of_eq hitems

theorem sameItems_createTimelineDocument {project : String}
    (h : s.createTimelineDocument env project body key = .ok (s', answer)) : s.SameItems s' := by
  simp only [createTimelineDocument, bind_eq_ok] at h
  obtain ⟨fields, -, projectId, -, -, -, -, -, found, -, h⟩ := h
  cases found with
  | some result => cases h; exact .of_eq ⟨rfl, rfl⟩
  | none =>
    simp only [insertTimeline, bind_eq_ok, return_ok] at h
    obtain ⟨-, -, -, -, name, -, _, ⟨_, -, rfl⟩, h⟩ := h
    have hitems := items_finish h
    exact .of_eq hitems

/-- Items that are untouched and listed again are as they were. -/
theorem sameItems_replaceItems {listing : Listing} (h : s.replaceItems t listing = .ok s')
    (hu : s.Untouched t listing) : s.SameItems s' := by
  simp only [replaceItems, bind_eq_ok, orThrow_eq_ok, return_ok] at h
  obtain ⟨shots, hshots, references, hreferences, rfl⟩ := h
  exact ⟨fun _ _ => Versioned.entry_replaceAll hshots hu.1,
    fun _ _ => Versioned.entry_replaceAll hreferences hu.2⟩

theorem State.SameItems.trans_eq {s₁ : State} (h : s.SameItems s₁)
    (heq : s'.shots = s₁.shots ∧ s'.references = s₁.references) : s.SameItems s' :=
  ⟨fun i e he => heq.1 ▸ h.1 i e he, fun i e he => heq.2 ▸ h.2 i e he⟩

theorem sameItems_updateTimeline (hretains : (Command.updateTimeline t body key).Retains env s)
    (h : s.updateTimeline env t body key = .ok (s', answer)) : s.SameItems s' := by
  simp only [updateTimeline, bind_eq_ok] at h
  obtain ⟨fields, hfields, expected, -, old, -, found, -, h⟩ := h
  cases found with
  | some result => cases h; exact .of_eq ⟨rfl, rfl⟩
  | none =>
    simp only [bind_eq_ok] at h
    obtain ⟨-, -, shots, hshots, references, hreferences, replaced, hreplaced, h⟩ := h
    have hu := hretains fields (orThrow_eq_ok.mp hfields) shots references hshots hreferences
    have hitems := items_finish h
    exact (sameItems_replaceItems hreplaced hu).trans_eq hitems

theorem sameItems_archiveTimeline (h : s.archiveTimeline env t body key = .ok (s', answer)) :
    s.SameItems s' := by
  simp only [archiveTimeline, bind_eq_ok] at h
  obtain ⟨fields, -, expected, -, old, -, found, -, h⟩ := h
  cases found with
  | some result => cases h; exact .of_eq ⟨rfl, rfl⟩
  | none =>
    obtain ⟨-, -, h⟩ := bind_eq_ok.mp h
    have hitems := items_finish h
    exact .of_eq hitems

theorem sameItems_recoverTimeline (hretains : (Command.recoverTimeline t body key).Retains env s)
    (h : s.recoverTimeline env t body key = .ok (s', answer)) : s.SameItems s' := by
  simp only [recoverTimeline, bind_eq_ok, timelineRow, orThrow_eq_ok] at h
  obtain ⟨fields, hfields, expected, -, target, htarget, old, hold, found, -, h⟩ := h
  cases found with
  | some result => cases h; exact .of_eq ⟨rfl, rfl⟩
  | none =>
    simp only [bind_eq_ok] at h
    obtain ⟨-, -, listing, hlisting, replaced, hreplaced, h⟩ := h
    have hu := hretains fields (orThrow_eq_ok.mp hfields) target old listing htarget hold hlisting
    have hitems := items_finish h
    exact (sameItems_replaceItems hreplaced hu).trans_eq hitems

theorem keptItems_createShot (h : s.createShot env t body key = .ok (s', answer)) :
    s.KeptItems s' := by
  simp only [createShot, bind_eq_ok] at h
  obtain ⟨fields, -, id, -, _, -, -, -, _, -, -, -, -, -, row, -, found, -, h⟩ := h
  cases found with
  | some result => cases h; exact .refl s
  | none =>
    simp only [bind_eq_ok, orThrow_eq_ok] at h
    obtain ⟨-, -, _, -, _, -, shots, hcreate, h⟩ := h
    obtain ⟨hshots, hreferences⟩ := items_finish h
    exact ⟨hshots ▸ .create hcreate, hreferences ▸ .refl _⟩

theorem keptItems_createReference (h : s.createReference env t body key = .ok (s', answer)) :
    s.KeptItems s' := by
  simp only [createReference, bind_eq_ok] at h
  obtain ⟨fields, -, id, -, _, -, row, -, found, -, h⟩ := h
  cases found with
  | some result => cases h; exact .refl s
  | none =>
    simp only [bind_eq_ok, orThrow_eq_ok] at h
    obtain ⟨_, -, references, hcreate, h⟩ := h
    obtain ⟨hshots, hreferences⟩ := items_finish h
    exact ⟨hshots ▸ .refl _, hreferences ▸ .create hcreate⟩

/-- A write of a shot that is executed names its version, and advances it. -/
theorem updateShotState_eq_ok {id : ShotId} {action : Action}
    (h : s.updateShotState env id body action key = .ok (s', answer)) :
    s' = s ∨ (∃ fields, itemBody body = .ok fields ∧
      expectedVersion fields = .ok (s.shots.stampOf id).version) ∧ s.KeptItems s' := by
  simp only [updateShotState, bind_eq_ok] at h
  obtain ⟨fields, hfields, expected, hexpected, item, -, found, -, h⟩ := h
  cases found with
  | some result => cases h; exact .inl rfl
  | none =>
    simp only [bind_eq_ok] at h
    obtain ⟨shots, hchange, entry, -, row, -, h⟩ := h
    obtain ⟨rfl, c, archivedAt, rfl, -⟩ := changeItem_eq_ok hchange
    obtain ⟨hshots, hreferences⟩ := items_finish h
    exact .inr ⟨⟨fields, hfields, hexpected⟩, hshots ▸ .change s.shots id c archivedAt,
      hreferences ▸ .refl _⟩

/-- A write of a reference that is executed names its version, and advances it. -/
theorem updateReferenceState_eq_ok {id : ReferenceId} {action : Action}
    (h : s.updateReferenceState env id body action key = .ok (s', answer)) :
    s' = s ∨ (∃ fields, itemBody body = .ok fields ∧
      expectedVersion fields = .ok (s.references.stampOf id).version) ∧ s.KeptItems s' := by
  simp only [updateReferenceState, bind_eq_ok] at h
  obtain ⟨fields, hfields, expected, hexpected, item, -, found, -, h⟩ := h
  cases found with
  | some result => cases h; exact .inl rfl
  | none =>
    simp only [bind_eq_ok] at h
    obtain ⟨references, hchange, entry, -, row, -, h⟩ := h
    obtain ⟨rfl, c, archivedAt, rfl, -⟩ := changeItem_eq_ok hchange
    obtain ⟨hshots, hreferences⟩ := items_finish h
    exact .inr ⟨⟨fields, hfields, hexpected⟩, hshots ▸ .refl _,
      hreferences ▸ .change s.references id c archivedAt⟩

/-- A call on a timeline that retains the items leaves them. -/
theorem sameItems_next (hretains : call.2.Retains call.1 s) (htimeline : call.2.onTimeline = true) :
    s.SameItems (s.next call) := by
  obtain ⟨env, c⟩ := call
  unfold next
  split
  next s' answer h =>
    cases c with
    | updateTimeline => exact sameItems_updateTimeline hretains h
    | archiveTimeline => exact sameItems_archiveTimeline h
    | recoverTimeline => exact sameItems_recoverTimeline hretains h
    | _ => simp [Command.onTimeline] at htimeline
  next => exact .of_eq ⟨rfl, rfl⟩

theorem keptItems_next (hretains : call.2.Retains call.1 s) :
    s.KeptItems (s.next call) := by
  by_cases htimeline : call.2.onTimeline = true
  · exact (sameItems_next hretains htimeline).kept
  · obtain ⟨env, c⟩ := call
    unfold next
    split
    next s' answer h =>
      cases c with
      | createTimeline => exact (sameItems_createTimeline h).kept
      | createTimelineDocument => exact (sameItems_createTimelineDocument h).kept
      | createShot => exact keptItems_createShot h
      | createReference => exact keptItems_createReference h
      | updateShot =>
        rcases updateShotState_eq_ok h with rfl | ⟨-, hkept⟩
        · exact .refl s'
        · exact hkept
      | updateReference =>
        rcases updateReferenceState_eq_ok h with rfl | ⟨-, hkept⟩
        · exact .refl s'
        · exact hkept
      | _ => simp [Command.onTimeline] at htimeline
    next => exact .refl s

/-! ## Runs -/

theorem keptItems_replay {run : List (Env × Command)}
    (h : Run.Meets next (fun s call => call.2.Retains call.1 s) s run) :
    s.KeptItems (Run.replay next s run) :=
  Run.Meets.preserves h (I := fun s' => s.KeptItems s')
    (fun hretains hkept => ⟨hkept.1.trans (keptItems_next hretains).1,
      hkept.2.trans (keptItems_next hretains).2⟩) (.refl s)

/-- The version that a body names. -/
theorem version_of_expected {fields : Json.Fields} {n v : Nat}
    (hfields : itemBody body = .ok fields) (hexpected : expectedVersion fields = .ok n)
    (hbody : body.get? "expected_version" = some (.int v)) : n = v := by
  rw [← itemBody_eq_ok hfields] at hbody
  simp only [expectedVersion, hbody, bind_eq_ok, return_ok] at hexpected
  obtain ⟨-, -, rfl⟩ := hexpected
  exact Int.toNat_natCast v

/-- In a run whose saves and recoveries of timelines retain their shots and references, the version of
a shot or a reference grows with every change of it, commands on the timeline leave it, and a writer
is refused unless it has read the item as it is. -/
theorem stale_item_writers_refused {start : State} {run : List (Env × Command)}
    (h : Run.Meets next (fun s call => call.2.Retains call.1 s) start run) :
    RefusesStaleWriters shots updateShotState start run ∧
      RefusesStaleWriters references updateReferenceState start run := by
  have hkept : ∀ before rest, run = before ++ rest →
      (Run.replay next start before).KeptItems (Run.replay next start run) := by
    rintro before rest rfl
    rw [Run.replay_append]
    exact keptItems_replay ((Run.meets_append before rest).mp h).2
  have hsame : ∀ before call rest, run = before ++ call :: rest → call.2.onTimeline = true →
      (Run.replay next start before).SameItems
        (Run.replay next start (before ++ [call])) := by
    rintro before call rest rfl htimeline
    rw [Run.replay_append]
    exact sameItems_next ((Run.meets_append before (call :: rest)).mp h).2.1 htimeline
  have hbetween : ∀ before between rest, run = before ++ between ++ rest →
      (Run.replay next start before).KeptItems
        (Run.replay next start (before ++ between)) := by
    rintro before between rest rfl
    rw [Run.replay_append]
    exact keptItems_replay ((Run.meets_append before between).mp ((Run.meets_append _ rest).mp h).1).2
  constructor
  · refine ⟨fun before rest hrun => (hkept before rest hrun).1,
      fun before call rest hrun htimeline => (hsame before call rest hrun htimeline).1, ?_⟩
    intro before between rest hrun i e he env body action key s' answer hwrite hne hbody
    rcases updateShotState_eq_ok hwrite with heq | ⟨⟨fields, hfields, hexpected⟩, -⟩
    · exact absurd heq hne
    · exact (hbetween before between rest hrun).1.entry_between
        (hkept (before ++ between) rest hrun).1 he (version_of_expected hfields hexpected hbody)
  · refine ⟨fun before rest hrun => (hkept before rest hrun).2,
      fun before call rest hrun htimeline => (hsame before call rest hrun htimeline).2, ?_⟩
    intro before between rest hrun i e he env body action key s' answer hwrite hne hbody
    rcases updateReferenceState_eq_ok hwrite with heq | ⟨⟨fields, hfields, hexpected⟩, -⟩
    · exact absurd heq hne
    · exact (hbetween before between rest hrun).2.entry_between
        (hkept (before ++ between) rest hrun).2 he (version_of_expected hfields hexpected hbody)

/-- A writer moves the shot. -/
def movesShot (version start : Int) (key : String) : Env × Command :=
  (⟨4, {}⟩, .updateShot "a" (.obj [("expected_version", .int version), ("start_ms", .int start)])
    .update (some key))

theorem stale_item_writers_refused_moved :
    RefusesStaleWriters shots updateShotState emptyRealm
      [createsTimeline, createsShot, movesShot 1 7 "move"] ∧
    ((Run.replay next emptyRealm
      [createsTimeline, createsShot, movesShot 1 7 "move"]).shots.entry "a").map (·.2.version) =
        some 2 := by
  have hmeets : Run.Meets next (fun s call => call.2.Retains call.1 s) emptyRealm
      [createsTimeline, createsShot, movesShot 1 7 "move"] := ⟨trivial, trivial, trivial, trivial⟩
  exact ⟨(stale_item_writers_refused hmeets).1, by decide +kernel⟩

/-- A save of the timeline that names no shot takes the shot back to version 1, so that a writer that
has read the shot before it was moved is not refused. -/
theorem stale_writer_after_save :
    let moved := Run.replay next emptyRealm
      [createsTimeline, createsShot, movesShot 1 7 "move"]
    let saved := moved.next (savesTimeline 1 none)
    (moved.shots.entry "a").map (fun e => (e.1.content.startMs, e.2.version)) = some (7, 2) ∧
      (saved.shots.entry "a").map (fun e => (e.1.content.startMs, e.2.version)) = some (7, 1) ∧
      ((saved.next (movesShot 1 9 "stale")).shots.entry "a").map (·.1.content.startMs) = some 9 := by
  decide +kernel

end WorkspaceRuntime.Timeline
