import WorkspaceRuntime.Credentials.Store
import WorkspaceRuntime.Lib.Run

/-!
# Credential generations

A generation of an actor is a token and the metadata published with it. `Session` adds to the store
the ledger of the generations published so far. What a command does to the files of its actor, cut
after any number of file operations, is one function (`Command.rewrite`). From it follow the
invariant of the store (`Inv`), that a pair of files which can still be accepted is a generation of
the ledger, and that a token whose generation was revoked or replaced is not accepted again. Both
need that two windows in the middle of a command are not hit by a crash, because files without
commit marker are taken for a store of the older format.
-/

namespace WorkspaceRuntime.Credentials

open Fallible

/-! ## Publications -/

/-- A token, as it is read back, and the metadata that were published with it. -/
structure Generation where
  actor : String
  token : String
  metadata : Json
  deriving DecidableEq

/-- The generation that a command publishes. -/
def issued (py : Python) (d : Directory) : Command → Option Generation
  | .provision r =>
    match r.expected with
    | .ok expected =>
      match r.kept py (d r.actor) expected with
      | none => some ⟨r.actor, py.strip r.fresh, expected⟩
      | some _ => none
    | .error _ => none
  | .provisionStatic actor token scopes =>
    match checkStatic actor token with
    | .ok () => some ⟨actor, py.strip token, identityOf actor scopes []⟩
    | .error _ => none
  | .disableActor _ | .enableActor _ | .revoke _ => none

/-- The actor that a command revokes. -/
def Command.revokes : Command → Option String
  | .revoke actor => if checkActor actor = .ok () then some actor else none
  | _ => none

/-- The store, and the generations published so far. -/
structure Session where
  disk : Directory
  disabled : Disabled
  ledger : List Generation

/-- The store before its first use. -/
def Session.initial : Session := ⟨fun _ => .absent, [], []⟩

/-- The command of an event that gets at least to its first file operation. -/
def started (e : Event) : Option Command :=
  if 1 ≤ e.writes 3 then e.command else none

/-- The generation whose publication an event begins. -/
def Session.published (py : Python) (s : Session) (e : Event) : Option Generation :=
  (started e).bind (issued py s.disk)

/-- The session after an event. -/
def Session.next (py : Python) (s : Session) (e : Event) : Session :=
  let after := (machine py).next (s.disk, s.disabled) e
  ⟨after.1, after.2, s.ledger ++ (s.published py e).toList⟩

/-- An event ends the generations of an actor: the first file operation of a revocation or of the
publication of another generation. -/
def Session.Retires (py : Python) (s : Session) (e : Event) (actor : String) : Prop :=
  (started e).bind Command.revokes = some actor ∨ (s.published py e).map (·.actor) = some actor

instance (py : Python) (s : Session) (e : Event) (actor : String) :
    Decidable (s.Retires py e actor) :=
  inferInstanceAs (Decidable (_ ∨ _))

/-! ## What a command leaves of the files of its actor -/

/-- The files after at most `n` operations of `_publish`. -/
def publishedFiles (token : String) (value : Json) : Nat → Files → Files
  | 0, f => f
  | 1, f => { f with token := some token }
  | 2, f => { f with token := some token, metadata := some value }
  | _ + 3, _ => ⟨some token, some value, some ⟨token, value⟩⟩

/-- The files after at most `n` operations of `revoke`. -/
def revokedFiles : Nat → Files → Files
  | 0, f => f
  | 1, f => { f with commit := none }
  | 2, f => { f with metadata := none, commit := none }
  | _ + 3, _ => .absent

/-- The files after at most `n` operations of a `provision` that keeps the token. -/
def adoptedFiles : Nat → Files → Files
  | 0, f => f
  | _ + 1, f => if f.commit = none then { f with commit := f.commitValue } else f

/-- The actor of a command. -/
def Command.actor : Command → String
  | .provision r => r.actor
  | .provisionStatic actor _ _ | .disableActor actor | .enableActor actor | .revoke actor => actor

/-- The files of its actor after at most `n` operations of a command. -/
def Command.rewrite (py : Python) (n : Nat) (f : Files) : Command → Files
  | .provision r =>
    match r.expected with
    | .ok expected =>
      match r.kept py f expected with
      | none => publishedFiles r.fresh expected n f
      | some _ => adoptedFiles n f
    | .error _ => f
  | .provisionStatic actor token scopes =>
    match checkStatic actor token with
    | .ok () => publishedFiles token (identityOf actor scopes []) n f
    | .error _ => f
  | .disableActor _ | .enableActor _ => f
  | .revoke actor => if checkActor actor = .ok () then revokedFiles n f else f

variable {a token : String} {c : Command} {py : Python} {f : Files} {metadata : Json}
  {pair : String × Json} {k : Commit}

section Modify

variable (d : Directory) (actor : String) (f g : Files → Files)

@[simp] theorem modify_self : d.modify actor f actor = f (d actor) := by
  simp [Directory.modify]

theorem modify_of_ne (h : a ≠ actor) : d.modify actor f a = d a := by
  simp [Directory.modify, h]

@[simp] theorem modify_modify : (d.modify actor f).modify actor g = d.modify actor (g ∘ f) := by
  simp [Directory.modify]

theorem modify_of_eq (h : f (d actor) = d actor) : d.modify actor f = d := by
  simp [Directory.modify, h]

end Modify

/-- What `_publish` leaves, before a rest of the program that writes nothing. -/
theorem cut_publish (actor token : String) (value : Json) (enabled : Bool) (answer : Answer)
    (n : Nat) (d : Directory) (m : Disabled) :
    (do publish actor token value; setEnabled actor enabled; return answer : Action Answer).cut
      n d m = d.modify actor (publishedFiles token value n) := by
  simp only [publish, replace, setEnabled, Prog.store_bind, Prog.write_bind, Prog.remember_bind]
  rcases n with _ | _ | _ | n
  · exact (modify_of_eq d actor _ rfl).symm
  · rfl
  all_goals
    simp only [Prog.cut, modify_modify]
    rfl

/-- What a `provision` that keeps the token leaves. -/
theorem cut_adopt (actor : String) (enabled : Bool) (answer : Answer) (n : Nat) (d : Directory)
    (m : Disabled) :
    (do
      if (d actor).commit = none then
        replace actor fun f => { f with commit := f.commitValue }
      setEnabled actor enabled
      return answer : Action Answer).cut n d m = d.modify actor (adoptedFiles n) := by
  by_cases hc : (d actor).commit = none
  · simp only [hc, if_true, replace, setEnabled, Prog.store_bind, Prog.remember_bind]
    cases n with
    | zero => exact (modify_of_eq d actor _ rfl).symm
    | succ n => simp [Prog.cut, Directory.modify, adoptedFiles, hc]
  · have hkeep : adoptedFiles n (d actor) = d actor := by cases n <;> simp [adoptedFiles, hc]
    rw [modify_of_eq d actor _ hkeep]
    simp [hc, setEnabled, Prog.cut]

/-- What a command leaves, cut after any number of file operations. -/
theorem prog_cut (py : Python) (c : Command) (n : Nat) (d : Directory) (m : Disabled) :
    ((machine py).prog c).cut n d m = d.modify c.actor fun f => c.rewrite py n f := by
  have hnone : ∀ a, d = d.modify a fun f => f := fun a => (modify_of_eq d a _ rfl).symm
  cases c with
  | provision r =>
    simp only [machine, provision, Command.actor, Command.rewrite]
    cases r.expected with
    | error e => exact hnone _
    | ok expected =>
      simp only [Prog.disk_bind, Prog.cut]
      cases hk : r.kept py (d r.actor) expected with
      | none => simp only [cut_publish, Directory.modify, hk]
      | some token =>
        simp only [cut_adopt, Directory.modify, hk]
  | provisionStatic actor token scopes =>
    simp only [machine, provisionStatic, Command.actor, Command.rewrite]
    cases checkStatic actor token with
    | error e => exact hnone _
    | ok => exact cut_publish ..
  | disableActor actor =>
    simp only [machine, disableActor, Command.actor, Command.rewrite]
    cases checkActor actor <;> exact hnone _
  | enableActor actor =>
    simp only [machine, enableActor, Command.actor, Command.rewrite]
    cases checkActor actor with
    | error e => exact hnone _
    | ok =>
      simp only [Prog.disk_bind, Prog.cut]
      cases readActor py (d actor) <;> exact hnone _
  | revoke actor =>
    simp only [machine, revoke, Command.actor, Command.rewrite]
    cases checkActor actor with
    | error e => simpa [Prog.cut] using hnone actor
    | ok =>
      simp only [replace, setEnabled, Prog.store_bind, Prog.remember_bind, if_true]
      rcases n with _ | _ | _ | n
      · exact hnone _
      · rfl
      all_goals
        simp only [Prog.cut, modify_modify]
        rfl

/-- No command has more than three file operations. -/
theorem prog_writes_le (py : Python) (c : Command) (d : Directory) (m : Disabled) :
    ((machine py).prog c).writes d m ≤ 3 := by
  cases c with
  | provision r =>
    simp only [machine, provision]
    cases r.expected with
    | error e => exact Nat.zero_le _
    | ok expected =>
      simp only [Prog.disk_bind, Prog.writes]
      cases r.kept py (d r.actor) expected with
      | none => exact le_rfl
      | some token =>
        by_cases hc : (d r.actor).commit = none <;>
          simp [hc, replace, setEnabled, Prog.writes]
  | provisionStatic actor token scopes =>
    simp only [machine, provisionStatic]
    cases checkStatic actor token with
    | error e => exact Nat.zero_le _
    | ok => exact le_rfl
  | disableActor actor =>
    simp only [machine, disableActor]
    cases checkActor actor <;> exact Nat.zero_le _
  | enableActor actor =>
    simp only [machine, enableActor]
    cases checkActor actor with
    | error e => exact Nat.zero_le _
    | ok =>
      simp only [Prog.disk_bind, Prog.writes]
      cases readActor py (d actor) <;> exact Nat.zero_le _
  | revoke actor =>
    simp only [machine, revoke]
    cases checkActor actor with
    | error e => exact Nat.zero_le _
    | ok => exact le_rfl

/-- The directory after an event that executes a command. -/
theorem disk_next (py : Python) (s : Session) {e : Event} (hc : e.command = some c) :
    (s.next py e).disk = s.disk.modify c.actor fun f => c.rewrite py (e.writes 3) f := by
  rw [← prog_cut py c (e.writes 3) s.disk s.disabled]
  exact (machine py).next_eq_cut hc (prog_writes_le py c _ _)

theorem disk_restart (py : Python) (s : Session) {e : Event} (hc : e.command = none) :
    (s.next py e).disk = s.disk := by
  cases e <;> simp [Machine.Event.command] at hc
  rfl

/-! ## Pairs that can be accepted -/

/-- `_read_actor` succeeds on a complete generation whose marker matches both files. -/
theorem readActor_eq_ok :
    readActor py f = .ok (token, metadata) ↔
      ∃ text, f = ⟨some text, some metadata, some ⟨text, metadata⟩⟩ ∧ py.strip text = token ∧
        token ≠ "" ∧ metadata.asObj.isSome := by
  constructor
  · intro h
    simp only [readActor, bind_eq_ok, orThrow_eq_ok, require_eq_ok] at h
    obtain ⟨_, htext, _, hvalue, ⟨text, value⟩, hcommit, -, ⟨hne, hobj, rfl, rfl⟩, heq⟩ := h
    obtain ⟨rfl, rfl⟩ : py.strip text = token ∧ value = metadata := by
      simpa [Pure.pure, Except.pure] using heq
    refine ⟨text, ?_, rfl, hne, hobj⟩
    cases f
    simp_all
  · rintro ⟨text, rfl, rfl, hne, hobj⟩
    simp only [readActor, bind_eq_ok, orThrow_eq_ok, require_eq_ok]
    exact ⟨text, rfl, metadata, rfl, _, rfl, (), ⟨hne, hobj, rfl, rfl⟩, rfl⟩

/-- A pair can be accepted, now or after an adoption, when no marker contradicts it. -/
theorem current_eq_some :
    current py f = some (token, metadata) ↔
      ∃ text, f.token = some text ∧ f.metadata = some metadata ∧
        (f.commit = none ∨ f.commit = some ⟨text, metadata⟩) ∧ py.strip text = token ∧
        token ≠ "" ∧ metadata.asObj.isSome := by
  unfold current
  split
  next pair hread =>
    obtain ⟨token', metadata'⟩ := pair
    obtain ⟨text, rfl, rfl, hne, hobj⟩ := readActor_eq_ok.mp hread
    constructor
    · intro h
      obtain ⟨rfl, rfl⟩ : py.strip text = token ∧ metadata' = metadata := by simpa using h
      exact ⟨text, rfl, rfl, .inr rfl, rfl, hne, hobj⟩
    · rintro ⟨text', htext, hmeta, -, rfl, -, -⟩
      simp_all
  next hread =>
    unfold legacyPair
    constructor
    · intro h
      split at h
      next text value htext hvalue hcommit =>
        obtain ⟨⟨hne, hobj⟩, rfl, rfl⟩ : (py.strip text ≠ "" ∧ value.asObj.isSome) ∧
            py.strip text = token ∧ value = metadata := by simpa using h
        exact ⟨text, htext, hvalue, .inl hcommit, rfl, hne, hobj⟩
      next => simp at h
    · rintro ⟨text, htext, hmeta, hcommit, rfl, hne, hobj⟩
      rcases hcommit with hcommit | hcommit
      · simp [htext, hmeta, hcommit, hne, hobj]
      · -- a matching marker would have been read
        have hok : readActor py f = .ok (py.strip text, metadata) := by
          refine readActor_eq_ok.mpr ⟨text, ?_, rfl, hne, hobj⟩
          cases f
          simp_all
        rw [hok] at hread
        simp at hread

theorem current_of_readActor (h : readActor py f = .ok pair) : current py f = some pair := by
  simp [current, h]

/-- What `load` accepts is the committed generation of some actor. -/
theorem load_eq_ok {listing : List String} {d : Directory} {disabled : Disabled} {identity : Json}
    (h : load py listing d disabled token = .ok identity) :
    ∃ actor ∈ listing, readActor py (d actor) = .ok (token, identity) := by
  obtain ⟨-, -, hloop⟩ := bind_eq_ok.mp h
  clear h
  induction listing with
  | nil => simp [loadFrom] at hloop
  | cons actor listing ih =>
    have hlater : loadFrom py d disabled token listing = .ok identity →
        ∃ a ∈ actor :: listing, readActor py (d a) = .ok (token, identity) := by
      intro hrest
      obtain ⟨a, ha, hread⟩ := ih hrest
      exact ⟨a, .tail _ ha, hread⟩
    unfold loadFrom at hloop
    split at hloop
    next => exact hlater hloop
    next =>
      split at hloop
      next expected metadata hread =>
        split at hloop
        next heq =>
          obtain rfl : metadata = identity := by simpa using hloop
          exact ⟨actor, List.mem_cons_self, heq ▸ hread⟩
        next => exact hlater hloop
      next => exact hlater hloop

/-! ## One event -/

/-- The windows that must not be hit, and tokens that were not published before. -/
structure Session.Orderly (py : Python) (s : Session) (e : Event) : Prop where
  /-- A token from the generator or from the caller is new. -/
  fresh : ∀ g, s.published py e = some g → g.token ∉ s.ledger.map (·.token)
  /-- A publication that stops right after it replaced the token does not leave the metadata of
  another generation without a commit marker. -/
  publication : ∀ c g, e = .crash c 1 → s.published py e = some g →
    (s.disk g.actor).metadata = none ∨ (s.disk g.actor).commit ≠ none
  /-- A revocation that stops right after it removed the commit marker leaves no pair of files. -/
  revocation : ∀ actor, e = .crash (.revoke actor) 1 →
    (s.disk actor).token = none ∨ (s.disk actor).metadata = none

/-- After the first operation of `_publish`, only its own pair can be accepted. -/
theorem current_publishedFiles {text : String} {value : Json} {n : Nat} (hn : 1 ≤ n)
    (hnew : ∀ k, f.commit = some k → k.tokenSha256 ≠ text)
    (hwindow : n = 1 → f.metadata = none ∨ f.commit ≠ none)
    (h : current py (publishedFiles text value n f) = some (token, metadata)) :
    token = py.strip text ∧ metadata = value := by
  obtain ⟨text', htext, hmeta, hcommit, rfl, -, -⟩ := current_eq_some.mp h
  match n with
  | 0 => omega
  | 1 =>
    -- the marker of the generation before is missing or belongs to another token
    obtain rfl : text = text' := by simpa [publishedFiles] using htext
    rcases hcommit with hnone | hsome
    · rcases hwindow rfl with hw | hw
      · simp [publishedFiles, hw] at hmeta
      · exact absurd hnone hw
    · exact absurd rfl (hnew _ hsome)
  | 2 | n + 3 =>
    obtain rfl : text = text' := by simpa [publishedFiles] using htext
    exact ⟨rfl, by simpa [publishedFiles] using hmeta.symm⟩

/-- After the first operation of `revoke`, no pair can be accepted. -/
theorem current_revokedFiles {n : Nat} (hn : 1 ≤ n)
    (hwindow : n = 1 → f.token = none ∨ f.metadata = none) :
    current py (revokedFiles n f) = none := by
  rw [Option.eq_none_iff_forall_ne_some]
  rintro ⟨token, metadata⟩ h
  obtain ⟨text, htext, hmeta, -⟩ := current_eq_some.mp h
  match n with
  | 0 => omega
  | 1 =>
    rcases hwindow rfl with hw | hw
    · simp [revokedFiles, hw] at htext
    · simp [revokedFiles, hw] at hmeta
  | 2 => simp [revokedFiles] at hmeta
  | n + 3 => simp [revokedFiles, Files.absent] at hmeta

/-- The marker that an adoption writes is that of the pair it found. -/
theorem commit_adoptedFiles {n : Nat} (h : current py f = some pair)
    (hk : (adoptedFiles n f).commit = some k) :
    f.commit = some k ∨ py.strip k.tokenSha256 = pair.1 := by
  obtain ⟨token, metadata⟩ := pair
  obtain ⟨text, htext, hmeta, -, rfl, -, -⟩ := current_eq_some.mp h
  cases n with
  | zero => exact .inl hk
  | succ n =>
    rw [adoptedFiles] at hk
    split at hk
    next =>
      obtain rfl : (⟨text, metadata⟩ : Commit) = k := by
        simpa [Files.commitValue, htext, hmeta] using hk
      exact .inr rfl
    next => exact .inl hk

/-- An adoption does not change which pair can be accepted. -/
theorem current_adoptedFiles (n : Nat) (h : current py f = some pair) :
    current py (adoptedFiles n f) = some pair := by
  obtain ⟨token, metadata⟩ := pair
  obtain ⟨text, htext, hmeta, hcommit, hrest⟩ := current_eq_some.mp h
  cases n with
  | zero => exact h
  | succ n =>
    rw [adoptedFiles]
    split
    next =>
      have hvalue : f.commitValue = some ⟨text, metadata⟩ := by
        simp [Files.commitValue, htext, hmeta]
      exact current_eq_some.mpr ⟨text, htext, hmeta, .inr hvalue, hrest⟩
    next => exact h

/-- What a command does to the files of its actor. -/
inductive Command.Kind (py : Python) (d : Directory) (c : Command) : Prop where
  | publishes (g : Generation) (text : String) (issues : issued py d c = some g)
      (spares : c.revokes = none) (actor : g.actor = c.actor) (strip : py.strip text = g.token)
      (files : ∀ n, c.rewrite py n (d c.actor) = publishedFiles text g.metadata n (d c.actor))
  | revokes (issues : issued py d c = none) (revokes : c.revokes = some c.actor)
      (isRevoke : c = .revoke c.actor)
      (files : ∀ n, c.rewrite py n (d c.actor) = revokedFiles n (d c.actor))
  | adopts (pair : String × Json) (issues : issued py d c = none) (spares : c.revokes = none)
      (found : current py (d c.actor) = some pair)
      (files : ∀ n, c.rewrite py n (d c.actor) = adoptedFiles n (d c.actor))
  | keeps (issues : issued py d c = none) (spares : c.revokes = none)
      (files : ∀ n, c.rewrite py n (d c.actor) = d c.actor)

/-- The token that `provision` keeps is that of the pair it found. -/
theorem Provision.current_of_kept {r : Provision} {expected : Json}
    (h : r.kept py f expected = some token) :
    ∃ pair, current py f = some pair := by
  unfold Provision.kept at h
  split at h
  next => simp at h
  next =>
    obtain ⟨pair, hpair, -⟩ := Option.map_eq_some_iff.mp h
    exact ⟨pair, (Option.filter_eq_some_iff.mp hpair).1⟩

theorem Command.kind (py : Python) (d : Directory) (c : Command) : c.Kind py d := by
  cases c with
  | provision r =>
    cases hexp : r.expected with
    | error e => exact .keeps (by simp [issued, hexp]) rfl fun n => by simp [rewrite, hexp]
    | ok expected =>
      cases hk : r.kept py (d r.actor) expected with
      | none =>
        exact .publishes ⟨r.actor, py.strip r.fresh, expected⟩ r.fresh (by simp [issued, hexp, hk])
          rfl rfl rfl fun n => by simp [rewrite, Command.actor, hexp, hk]
      | some token =>
        obtain ⟨pair, hpair⟩ := Provision.current_of_kept hk
        exact .adopts pair (by simp [issued, hexp, hk]) rfl hpair fun n => by
          simp [rewrite, Command.actor, hexp, hk]
  | provisionStatic actor token scopes =>
    cases hcheck : checkStatic actor token with
    | error e => exact .keeps (by simp [issued, hcheck]) rfl fun n => by simp [rewrite, hcheck]
    | ok =>
      exact .publishes ⟨actor, py.strip token, identityOf actor scopes []⟩ token
        (by simp [issued, hcheck]) rfl rfl rfl fun n => by simp [rewrite, Command.actor, hcheck]
  | disableActor actor | enableActor actor => exact .keeps rfl rfl fun n => rfl
  | revoke actor =>
    by_cases hcheck : checkActor actor = .ok ()
    · exact .revokes rfl (by simp [Command.revokes, Command.actor, hcheck]) rfl fun n => by
        simp [rewrite, hcheck]
    · exact .keeps rfl (by simp [Command.revokes, hcheck]) fun n => by simp [rewrite, hcheck]

/-- Every pair that can be accepted is a generation of the ledger, tokens are not shared, and every
commit marker names a token of the ledger. -/
structure Session.Inv (py : Python) (s : Session) : Prop where
  nodup : (s.ledger.map (·.token)).Nodup
  current : ∀ {a t m}, current py (s.disk a) = some (t, m) → ⟨a, t, m⟩ ∈ s.ledger
  commit : ∀ {a k}, (s.disk a).commit = some k → py.strip k.tokenSha256 ∈ s.ledger.map (·.token)

section Event

variable {py : Python} {s : Session} {e : Event}

theorem started_eq_some :
    started e = some c ↔ 1 ≤ e.writes 3 ∧ e.command = some c := by
  unfold started
  split <;> simp_all

/-- Only the actor of a command that was started can be retired. -/
theorem Session.Retires.started (h : s.Retires py e a) :
    ∃ c, started e = some c ∧ a = c.actor ∧ (issued py s.disk c = none → c.revokes ≠ none) := by
  rcases h with h | h
  · obtain ⟨c, hc, h⟩ := Option.bind_eq_some_iff.mp h
    refine ⟨c, hc, ?_, fun _ hnone => by simp [hnone] at h⟩
    cases c <;> simp [Command.revokes] at h
    exact h.2.symm
  · obtain ⟨g, hg, rfl⟩ := Option.map_eq_some_iff.mp h
    obtain ⟨c, hc, hg⟩ := Option.bind_eq_some_iff.mp hg
    refine ⟨c, hc, ?_, fun hnone => by simp [hnone] at hg⟩
    cases c.kind py s.disk with
    | publishes g' text issues spares actor strip files =>
      obtain rfl : g = g' := by simpa [hg] using issues
      exact actor
    | revokes issues | adopts pair issues | keeps issues => simp [issues] at hg

/-- An event that does nothing to the files of an actor does not retire it. -/
theorem Session.not_retires_of_ne (hc : e.command = some c)
    (h : a ≠ c.actor ∨ e.writes 3 = 0 ∨ issued py s.disk c = none ∧ c.revokes = none) :
    ¬s.Retires py e a := by
  intro hretires
  obtain ⟨c', hstarted, hactor, hkind⟩ := hretires.started
  obtain ⟨hn, hc'⟩ := started_eq_some.mp hstarted
  obtain rfl : c = c' := by simpa [hc] using hc'
  rcases h with h | h | ⟨hissues, hspares⟩
  · exact h hactor
  · omega
  · exact hkind hissues hspares

theorem Command.rewrite_zero (c : Command) (d : Directory) :
    c.rewrite py 0 (d c.actor) = d c.actor := by
  cases c.kind py d with
  | publishes g text issues spares actor strip files | revokes issues revokes isRevoke files
  | adopts pair issues spares found files => rw [files]; rfl
  | keeps issues spares files => rw [files]

variable {g : Generation}

/-- A marker of the store does not belong to a token that is being published. -/
theorem Session.Inv.commit_ne (hI : s.Inv py) (ho : s.Orderly py e) (hg : s.published py e = some g)
    {text : String} (hstrip : py.strip text = g.token) (hk : (s.disk a).commit = some k) :
    k.tokenSha256 ≠ text := by
  rintro rfl
  exact ho.fresh g hg (hstrip ▸ hI.commit hk)

theorem crash_of_writes (hc : e.command = some c) (h : e.writes 3 = 1) :
    e = .crash c 1 := by
  cases e <;> simp_all [Machine.Event.command, Machine.Event.writes]

/-- A pair that can be accepted after an event was there before, and was not retired, or is the one
that the event publishes. -/
theorem Session.Inv.current_next (hI : s.Inv py) (ho : s.Orderly py e) {t : String} {m : Json}
    (h : Credentials.current py ((s.next py e).disk a) = some (t, m)) :
    (Credentials.current py (s.disk a) = some (t, m) ∧ ¬s.Retires py e a) ∨
      s.published py e = some ⟨a, t, m⟩ := by
  cases hc : e.command with
  | none =>
    rw [disk_restart py s hc] at h
    exact .inl ⟨h, by simp [Session.Retires, Session.published, started, hc]⟩
  | some c =>
    rw [disk_next py s hc] at h
    by_cases ha : a = c.actor
    swap
    · rw [modify_of_ne _ _ _ ha] at h
      exact .inl ⟨h, not_retires_of_ne hc (.inl ha)⟩
    subst ha
    rw [modify_self] at h
    rcases Nat.eq_zero_or_pos (e.writes 3) with hn | hn
    · rw [hn, Command.rewrite_zero] at h
      exact .inl ⟨h, not_retires_of_ne hc (.inr (.inl hn))⟩
    have hstarted : started e = some c := started_eq_some.mpr ⟨hn, hc⟩
    cases c.kind py s.disk with
    | publishes g text issues spares actor strip files =>
      have hg : s.published py e = some g := by rw [published, hstarted]; exact issues
      rw [files] at h
      obtain ⟨rfl, rfl⟩ := current_publishedFiles hn (fun k hk => hI.commit_ne ho hg strip hk)
        (fun h1 => actor ▸ ho.publication c g (crash_of_writes hc h1) hg) h
      refine .inr (hg.trans ?_)
      rw [strip, ← actor]
    | revokes issues revokes isRevoke files =>
      rw [files, current_revokedFiles hn] at h
      · simp at h
      · intro h1
        exact ho.revocation c.actor (isRevoke ▸ crash_of_writes hc h1)
    | adopts pair issues spares found files =>
      rw [files, current_adoptedFiles _ found] at h
      exact .inl ⟨found.trans h, not_retires_of_ne hc (.inr (.inr ⟨issues, spares⟩))⟩
    | keeps issues spares files =>
      rw [files] at h
      exact .inl ⟨h, not_retires_of_ne hc (.inr (.inr ⟨issues, spares⟩))⟩

theorem Session.mem_ledger_of_published (hg : s.published py e = some g) :
    g ∈ (s.next py e).ledger := by
  simp [next, hg]

theorem Session.mem_ledger_next (h : g ∈ s.ledger) : g ∈ (s.next py e).ledger :=
  List.mem_append_left _ h

/-- A commit marker after an event names a token of the ledger. -/
theorem Session.Inv.commit_next (hI : s.Inv py) (h : ((s.next py e).disk a).commit = some k) :
    py.strip k.tokenSha256 ∈ (s.next py e).ledger.map (·.token) := by
  have hkept : (s.disk a).commit = some k →
      py.strip k.tokenSha256 ∈ (s.next py e).ledger.map (·.token) := by
    intro hk
    obtain ⟨g, hg, heq⟩ := List.mem_map.mp (hI.commit hk)
    exact List.mem_map.mpr ⟨g, mem_ledger_next hg, heq⟩
  cases hc : e.command with
  | none => exact hkept (by rwa [disk_restart py s hc] at h)
  | some c =>
    rw [disk_next py s hc] at h
    by_cases ha : a = c.actor
    swap
    · exact hkept (by rwa [modify_of_ne _ _ _ ha] at h)
    subst ha
    rw [modify_self] at h
    cases c.kind py s.disk with
    | publishes g text issues spares actor strip files =>
      rw [files] at h
      match hn : e.writes 3 with
      | 0 | 1 | 2 => exact hkept (by simpa [hn, publishedFiles] using h)
      | n + 3 =>
        have hg : s.published py e = some g := by
          rw [published, started_eq_some.mpr ⟨by omega, hc⟩]
          exact issues
        obtain rfl : (⟨text, g.metadata⟩ : Commit) = k := by
          simpa [hn, publishedFiles] using h
        exact List.mem_map.mpr ⟨g, mem_ledger_of_published hg, strip.symm⟩
    | revokes issues revokes isRevoke files =>
      rw [files] at h
      match hn : e.writes 3 with
      | 0 => exact hkept (by simpa [hn, revokedFiles] using h)
      | 1 | 2 | n + 3 => simp [hn, revokedFiles, Files.absent] at h
    | adopts pair issues spares found files =>
      rw [files] at h
      rcases commit_adoptedFiles found h with hold | hnew
      · exact hkept hold
      · exact List.mem_map.mpr ⟨_, mem_ledger_next (hI.current found), hnew.symm⟩
    | keeps issues spares files => exact hkept (by rwa [files] at h)

/-- One event keeps the invariant. -/
theorem Session.Inv.next (hI : s.Inv py) (ho : s.Orderly py e) : (s.next py e).Inv py where
  nodup := by
    rw [Session.next, List.map_append, List.nodup_append]
    refine ⟨hI.nodup, ?_, ?_⟩
    · cases s.published py e <;> simp
    · intro t ht t' ht' heq
      subst heq
      obtain ⟨g, hg, rfl⟩ := List.mem_map.mp ht'
      exact ho.fresh g (by simpa using hg) ht
  current := by
    intro a t m h
    rcases hI.current_next ho h with ⟨hold, -⟩ | hnew
    · exact mem_ledger_next (hI.current hold)
    · exact mem_ledger_of_published hnew
  commit := hI.commit_next

/-! ## Runs -/

/-- A token that cannot be accepted, and that no later publication may use. -/
structure Session.Spent (py : Python) (s : Session) (token : String) : Prop where
  mem : token ∈ s.ledger.map (·.token)
  current : ∀ {a m}, Credentials.current py (s.disk a) ≠ some (token, m)

/-- A spent token stays spent. -/
theorem Session.Spent.next (hI : s.Inv py) (ho : s.Orderly py e) (h : s.Spent py token) :
    (s.next py e).Spent py token where
  mem := by
    obtain ⟨g, hg, rfl⟩ := List.mem_map.mp h.mem
    exact List.mem_map_of_mem (mem_ledger_next hg)
  current := by
    intro a m hcur
    rcases hI.current_next ho hcur with ⟨hold, -⟩ | hnew
    · exact h.current hold
    · exact ho.fresh _ hnew h.mem

/-- The tokens of an actor that an event retires are spent after it. -/
theorem Session.Inv.spent (hI : s.Inv py) (ho : s.Orderly py e) (hg : g ∈ s.ledger)
    (hretires : s.Retires py e g.actor) : (s.next py e).Spent py g.token where
  mem := List.mem_map_of_mem (mem_ledger_next hg)
  current := by
    intro a m hcur
    rcases hI.current_next ho hcur with ⟨hold, hnot⟩ | hnew
    · -- a token of the ledger has one generation
      have hsame : (⟨a, g.token, m⟩ : Generation) = g :=
        List.inj_on_of_nodup_map hI.nodup (hI.current hold) hg rfl
      exact hnot (by rwa [← hsame] at hretires)
    · exact ho.fresh _ hnew (List.mem_map.mpr ⟨g, hg, rfl⟩)

end Event

/-- A store as completed commands or an earlier release leave it: no files, a token and its metadata
without marker, or a committed generation. -/
structure Session.Settled (py : Python) (s : Session) : Prop where
  nodup : (s.ledger.map (·.token)).Nodup
  files : ∀ a, s.disk a = .absent ∨ ∃ text metadata, ⟨a, py.strip text, metadata⟩ ∈ s.ledger ∧
    (s.disk a = ⟨some text, some metadata, none⟩ ∨
      s.disk a = ⟨some text, some metadata, some ⟨text, metadata⟩⟩)

theorem Session.Settled.inv {s : Session} (h : s.Settled py) : s.Inv py where
  nodup := h.nodup
  current := by
    intro a t m hcur
    obtain ⟨text, htext, hmeta, -, rfl, -, -⟩ := current_eq_some.mp hcur
    rcases h.files a with hf | ⟨text', metadata, hmem, hf | hf⟩
    · simp [hf, Files.absent] at htext
    all_goals
      obtain rfl : text' = text := by simpa [hf] using htext
      obtain rfl : metadata = m := by simpa [hf] using hmeta
      exact hmem
  commit := by
    intro a k hk
    rcases h.files a with hf | ⟨text, metadata, hmem, hf | hf⟩
    · simp [hf, Files.absent] at hk
    · simp [hf] at hk
    · obtain rfl : (⟨text, metadata⟩ : Commit) = k := by simpa [hf] using hk
      exact List.mem_map_of_mem hmem

/-- **Credential generations.** In a run whose events are all orderly, a token is accepted only with
the metadata it was published with, and not after its actor was revoked or given another
generation. -/
theorem accepted_generation_live (py : Python) {s : Session} (h : s.Settled py) {run : List Event}
    (hrun : Run.Meets (Session.next py) (Session.Orderly py) s run) {listing : List String}
    {token : String} {identity : Json}
    (hload : load py listing (Run.replay (Session.next py) s run).disk
      (Run.replay (Session.next py) s run).disabled token = .ok identity) :
    (∃ actor ∈ listing, ⟨actor, token, identity⟩ ∈ (Run.replay (Session.next py) s run).ledger) ∧
      ∀ before e after actor, run = before ++ e :: after →
        (Run.replay (Session.next py) s before).Retires py e actor →
        ∀ g ∈ (Run.replay (Session.next py) s before).ledger, g.actor = actor →
          g.token ≠ token := by
  obtain ⟨actor, hactor, hread⟩ := load_eq_ok hload
  have hcur := current_of_readActor hread
  constructor
  · have hI := hrun.preserves (fun ho hI => Session.Inv.next hI ho) h.inv
    exact ⟨actor, hactor, hI.current hcur⟩
  · rintro before e after _ rfl hretires g hg rfl rfl
    obtain ⟨hbefore, ho, hafter⟩ := (Run.meets_append before (e :: after)).mp hrun
    have hI := hbefore.preserves (fun ho hI => Session.Inv.next hI ho) h.inv
    -- from the retirement on, the token is spent
    have hspent := hafter.preserves (I := fun s => s.Inv py ∧ s.Spent py g.token)
      (fun ho hs => ⟨hs.1.next ho, hs.2.next hs.1 ho⟩) ⟨hI.next ho, hI.spent ho hg hretires⟩
    rw [Run.replay_append, Run.replay_cons] at hcur
    exact hspent.2.current hcur

/-! ### Runs of the store -/

/-- Text without surrounding blanks, and values that are equal when they are the same. -/
def plain : Python := ⟨id, fun a b => decide (a = b)⟩

/-- `provision("owner", scopes)` with the next token of the generator. -/
def ownerRequest (scopes : List String) (fresh : String) (rotate : Bool) : Command :=
  .provision ⟨"owner", scopes, .null, rotate, true, fresh⟩

/-- The session after a run on an empty store. -/
def Session.after (run : List Event) : Session := Run.replay (Session.next plain) .initial run

/-- A first token, and its rotation. -/
def rotation : List Event :=
  [.call (ownerRequest ["admin"] "t1" false), .call (ownerRequest ["admin"] "t2" true)]

theorem accepted_generation_live_rotation :
    load plain ["owner"] (Session.after rotation).disk (Session.after rotation).disabled "t2" =
        .ok (identityOf "owner" ["admin"] []) ∧
      ∃ actor ∈ ["owner"],
        ⟨actor, "t2", identityOf "owner" ["admin"] []⟩ ∈ (Session.after rotation).ledger := by
  have hload : load plain ["owner"] (Session.after rotation).disk
      (Session.after rotation).disabled "t2" = .ok (identityOf "owner" ["admin"] []) := by
    decide +kernel
  have hcall : ∀ (s : Session) (c : Command),
      (∀ g ∈ s.published plain (.call c), g.token ∉ s.ledger.map (·.token)) →
      s.Orderly plain (.call c) := fun s c hfresh => ⟨hfresh, by simp, by simp⟩
  have hinitial : Session.initial.Settled plain := ⟨by decide, fun a => .inl rfl⟩
  have hrun : Run.Meets (Session.next plain) (Session.Orderly plain) .initial rotation :=
    ⟨hcall _ _ (by decide +kernel), hcall _ _ (by decide +kernel), trivial⟩
  exact ⟨hload, (accepted_generation_live plain hinitial hrun hload).1⟩

/-- A revocation that is interrupted after it removed the commit marker, and the next start. -/
def interruptedRevocation : List Event :=
  [.call (ownerRequest ["admin"] "t1" false), .crash (.revoke "owner") 1,
    .call (ownerRequest ["admin"] "t2" false)]

/-- Two interrupted publications, and a `provision` that finds the token of one with the metadata of
the other. -/
def interruptedPublications : List Event :=
  [.crash (ownerRequest ["read"] "t1" false) 2, .crash (ownerRequest ["admin"] "t2" false) 1,
    .call (ownerRequest ["read"] "t3" false)]

/-- A caller installs a token again that was revoked. -/
def reinstallation : List Event :=
  [.call (.provisionStatic "owner" "t1" ["admin"]), .call (.revoke "owner"),
    .call (.provisionStatic "owner" "t1" ["admin"])]

/-- A revoked token is accepted again after an interrupted revocation, and when a caller installs it
again; and a token is accepted with metadata that were never published with it. -/
theorem retired_token_accepted :
    ((Session.after (interruptedRevocation.take 1)).Retires plain (.crash (.revoke "owner") 1)
          "owner" ∧
        ⟨"owner", "t1", identityOf "owner" ["admin"] []⟩ ∈
          (Session.after (interruptedRevocation.take 1)).ledger ∧
        load plain ["owner"] (Session.after interruptedRevocation).disk
            (Session.after interruptedRevocation).disabled "t1" =
          .ok (identityOf "owner" ["admin"] [])) ∧
      (load plain ["owner"] (Session.after interruptedPublications).disk
            (Session.after interruptedPublications).disabled "t2" =
          .ok (identityOf "owner" ["read"] []) ∧
        ∀ g ∈ (Session.after interruptedPublications).ledger, g.token = "t2" →
          g.metadata ≠ identityOf "owner" ["read"] []) ∧
      ((Session.after (reinstallation.take 1)).Retires plain (.call (.revoke "owner")) "owner" ∧
        load plain ["owner"] (Session.after reinstallation).disk
            (Session.after reinstallation).disabled "t1" =
          .ok (identityOf "owner" ["admin"] [])) := by
  decide +kernel

end WorkspaceRuntime.Credentials
