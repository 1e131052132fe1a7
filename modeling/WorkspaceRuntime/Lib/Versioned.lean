import WorkspaceRuntime.Lib.Table

/-!
# Versioned items

Items that belong to owners. An item has a content and a stamp: the version that a writer must name
to change it, and the time it was archived. Items and stamps are two tables with the same keys; an
item without a stamp is at version 1. `Versioned.entry` is an item with its stamp.

The contents of one owner are its `listing`, in insertion order. `create` and `change` act on one
item. `replaceAll` acts on an owner: it removes all items of the owner with their stamps and inserts
the given ones anew. So `Versioned.Kept`, by which an item is as it was or at a higher version, holds
of `create` and `change` always, and of `replaceAll` when the items it removes are at version 1, not
archived, and listed again (`Versioned.Untouched`).
-/

/-- An item of an owner. -/
structure Versioned.Item (ω γ : Type) where
  owner : ω
  content : γ
  deriving DecidableEq, Repr

/-- The version of an item and the time it was archived. -/
structure Versioned.Stamp where
  version : Nat
  archivedAt : Option Int
  deriving DecidableEq, Repr

/-- The stamp of a new item. -/
def Versioned.Stamp.fresh : Versioned.Stamp := ⟨1, none⟩

/-- Items `ι` of owners `ω` with contents `γ`. -/
structure Versioned (ι ω γ : Type) where
  items : Table ι (Versioned.Item ω γ) := .empty
  stamps : Table ι Versioned.Stamp := .empty
  deriving DecidableEq

namespace Versioned

open Table

variable {ι ω γ : Type} {v v' : Versioned ι ω γ} {w u : ω} {i j : ι} {c : γ} {list : List (ι × γ)}

/-- The items of an owner, in insertion order. -/
def listing [DecidableEq ω] (v : Versioned ι ω γ) (w : ω) : List (ι × γ) :=
  (v.items.entries.filter fun e => e.2.owner = w).map fun e => (e.1, e.2.content)

variable [DecidableEq ι]

/-- The stamp of an item. -/
def stampOf (v : Versioned ι ω γ) (i : ι) : Stamp := (v.stamps.lookup i).getD .fresh

/-- An item and its stamp. -/
def entry (v : Versioned ι ω γ) (i : ι) : Option (Item ω γ × Stamp) :=
  (v.items.lookup i).map fun item => (item, v.stampOf i)

/-- Remove the items of an owner, and their stamps. -/
def clear [DecidableEq ω] (v : Versioned ι ω γ) (w : ω) : Versioned ι ω γ where
  items := v.items.filter fun _ item => item.owner ≠ w
  stamps := v.stamps.filter fun i _ => (v.items.lookup i).all fun item => item.owner ≠ w

/-- Insert an item. -/
def create (v : Versioned ι ω γ) (w : ω) (i : ι) (c : γ) : Option (Versioned ι ω γ) := do
  let items ← v.items.insertNew i ⟨w, c⟩
  let stamps ← v.stamps.insertNew i .fresh
  return { items, stamps }

/-- Insert items of one owner. -/
def createAll (v : Versioned ι ω γ) (w : ω) (list : List (ι × γ)) : Option (Versioned ι ω γ) :=
  list.foldlM (fun v e => v.create w e.1 e.2) v

/-- The items of an owner become the given ones. -/
def replaceAll [DecidableEq ω] (v : Versioned ι ω γ) (w : ω) (list : List (ι × γ)) :
    Option (Versioned ι ω γ) :=
  (v.clear w).createAll w list

/-- Give an item a content and an archival time, at the next version. -/
def change (v : Versioned ι ω γ) (i : ι) (c : γ) (archivedAt : Option Int) : Versioned ι ω γ where
  items := v.items.modify i fun item => { item with content := c }
  stamps := v.stamps.upsert i ⟨(v.stampOf i).version + 1, archivedAt⟩

/-! ## Entries -/

theorem create_eq_some (h : v.create w i c = some v') :
    v.items.insertNew i ⟨w, c⟩ = some v'.items ∧ v.stamps.insertNew i .fresh = some v'.stamps := by
  simp only [create, Option.bind_eq_bind, Option.bind_eq_some_iff, Option.pure_def,
    Option.some.injEq] at h
  obtain ⟨items, hitems, stamps, hstamps, rfl⟩ := h
  exact ⟨hitems, hstamps⟩

variable {item : Item ω γ}

theorem entry_eq_some {stamp : Stamp} :
    v.entry i = some (item, stamp) ↔ v.items.lookup i = some item ∧ v.stampOf i = stamp := by
  simp [entry]

theorem entry_create (h : v.create w i c = some v') (j : ι) :
    v'.entry j = if j = i then some (⟨w, c⟩, .fresh) else v.entry j := by
  obtain ⟨hitems, hstamps⟩ := create_eq_some h
  unfold entry stampOf
  rw [lookup_insertNew hitems, lookup_insertNew hstamps]
  by_cases hj : j = i <;> simp [hj]

/-- An inserted key was not there. -/
theorem entry_of_create (h : v.create w i c = some v') : v.entry i = none := by
  have hnew : v.items.lookup i = none :=
    insertNew_eq_some_iff.mp ⟨v'.items, (create_eq_some h).1⟩
  rw [entry, hnew, Option.map_none]

variable {e : Item ω γ × Stamp}

theorem createAll_cons {x : ι × γ} : v.createAll w (x :: list) = some v' ↔
    ∃ v₁, v.create w x.1 x.2 = some v₁ ∧ v₁.createAll w list = some v' :=
  Option.bind_eq_some_iff

/-- Insertions keep what is there. -/
theorem entry_createAll_of_some (h : v.createAll w list = some v') (he : v.entry i = some e) :
    v'.entry i = some e := by
  induction list generalizing v with
  | nil => exact Option.some.inj h ▸ he
  | cons x list ih =>
    obtain ⟨v₁, h₁, hrest⟩ := createAll_cons.mp h
    apply ih hrest
    have hne : i ≠ x.1 := by
      rintro rfl
      simp [entry_of_create h₁] at he
    rw [entry_create h₁, if_neg hne, he]

theorem entry_createAll_of_mem (h : v.createAll w list = some v') (hmem : (i, c) ∈ list) :
    v'.entry i = some (⟨w, c⟩, .fresh) := by
  induction list generalizing v with
  | nil => cases hmem
  | cons x list ih =>
    obtain ⟨v₁, h₁, hrest⟩ := createAll_cons.mp h
    rcases List.mem_cons.mp hmem with rfl | hmem
    · exact entry_createAll_of_some hrest (by rw [entry_create h₁, if_pos rfl])
    · exact ih hrest hmem

theorem entry_change (v : Versioned ι ω γ) (i : ι) (c : γ) (archivedAt : Option Int) (j : ι) :
    (v.change i c archivedAt).entry j =
      if j = i then (v.entry i).map fun e => (⟨e.1.owner, c⟩, ⟨e.2.version + 1, archivedAt⟩)
      else v.entry j := by
  unfold entry change
  rw [lookup_modify]
  unfold stampOf
  rw [lookup_upsert]
  by_cases hj : j = i
  · subst hj
    cases v.items.lookup j <;> simp
  · simp [hj]

/-! ## What writers keep -/

/-- Every item is as it was, or at a higher version. -/
def Kept (v v' : Versioned ι ω γ) : Prop :=
  ∀ i e, v.entry i = some e → ∃ e', v'.entry i = some e' ∧ (e' = e ∨ e.2.version < e'.2.version)

theorem Kept.refl (v : Versioned ι ω γ) : v.Kept v := fun _ e he => ⟨e, he, .inl rfl⟩

variable {v'' : Versioned ι ω γ}

theorem Kept.trans (h : v.Kept v') (h' : v'.Kept v'') : v.Kept v'' := by
  intro i e he
  obtain ⟨e', he', hle⟩ := h i e he
  obtain ⟨e'', he'', hle'⟩ := h' i e' he'
  refine ⟨e'', he'', ?_⟩
  rcases hle with rfl | hlt
  · exact hle'
  · rcases hle' with rfl | hlt'
    · exact .inr hlt
    · exact .inr (Nat.lt_trans hlt hlt')

theorem Kept.create (h : v.create w i c = some v') : v.Kept v' := by
  intro j e he
  have hne : j ≠ i := by
    rintro rfl
    simp [entry_of_create h] at he
  exact ⟨e, by rw [entry_create h, if_neg hne, he], .inl rfl⟩

theorem Kept.change (v : Versioned ι ω γ) (i : ι) (c : γ) (archivedAt : Option Int) :
    v.Kept (v.change i c archivedAt) := by
  intro j e he
  rw [entry_change]
  by_cases hj : j = i
  · subst hj
    rw [if_pos rfl, he]
    exact ⟨_, rfl, .inr (Nat.lt_succ_self _)⟩
  · exact ⟨e, by rw [if_neg hj, he], .inl rfl⟩

/-- An item whose version is the one it had was not changed in between. -/
theorem Kept.entry_between (h : v.Kept v') (h' : v'.Kept v'') (he : v.entry i = some e)
    (hversion : (v''.stampOf i).version = e.2.version) :
    v'.entry i = some e := by
  obtain ⟨e', he', heq | hlt⟩ := h i e he
  · rw [he', heq]
  · obtain ⟨⟨item, stamp⟩, hlast, hle⟩ := h' i e' he'
    have hstamp : v''.stampOf i = stamp := (entry_eq_some.mp hlast).2
    rw [hstamp] at hversion
    rcases hle with rfl | hlt'
    · exact absurd hversion (Nat.ne_of_gt hlt)
    · exact absurd hversion (Nat.ne_of_gt (Nat.lt_trans hlt hlt'))

section Owners

variable [DecidableEq ω]

/-! ## Listings -/

theorem listing_clear (v : Versioned ι ω γ) (w u : ω) :
    (v.clear w).listing u = if u = w then [] else v.listing u := by
  unfold listing clear filter
  rw [List.filter_filter]
  split
  next h =>
    rw [h, List.filter_eq_nil_iff.mpr]
    · rfl
    · intro e _
      simp
  next h =>
    congr 1
    apply List.filter_congr
    intro e _
    by_cases he : e.2.owner = u <;> simp [he, h]

theorem listing_create (h : v.create w i c = some v') (u : ω) :
    v'.listing u = if u = w then v.listing u ++ [(i, c)] else v.listing u := by
  obtain ⟨hitems, -⟩ := create_eq_some h
  rw [listing, entries_insertNew hitems, List.filter_append, List.map_append]
  by_cases hu : u = w
  · simp [hu, listing]
  · simp [hu, Ne.symm hu, listing]

theorem listing_createAll (h : v.createAll w list = some v') (u : ω) :
    v'.listing u = if u = w then v.listing u ++ list else v.listing u := by
  induction list generalizing v with
  | nil =>
    cases h
    simp
  | cons e list ih =>
    obtain ⟨v₁, h₁, hrest⟩ := createAll_cons.mp h
    rw [ih hrest, listing_create h₁]
    by_cases hu : u = w <;> simp [hu]

/-- The listing of the owner becomes the given one; other owners keep theirs. -/
theorem listing_replaceAll (h : v.replaceAll w list = some v') (u : ω) :
    v'.listing u = if u = w then list else v.listing u := by
  rw [listing_createAll h, listing_clear]
  by_cases hu : u = w <;> simp [hu]

theorem mem_listing {e : ι × γ} : e ∈ v.listing u ↔ v.items.lookup e.1 = some ⟨u, e.2⟩ := by
  rw [lookup_eq_some_iff, listing, List.mem_map]
  constructor
  · rintro ⟨⟨i, item⟩, hmem, rfl⟩
    obtain ⟨hmem, howner⟩ := List.mem_filter.mp hmem
    have howner : item.owner = u := of_decide_eq_true howner
    exact howner ▸ hmem
  · intro hmem
    exact ⟨(e.1, ⟨u, e.2⟩), List.mem_filter.mpr ⟨hmem, by simp⟩, rfl⟩

/-- A change replaces the content in the listing. -/
theorem listing_change (v : Versioned ι ω γ) (i : ι) (c : γ) (archivedAt : Option Int) (u : ω) :
    (v.change i c archivedAt).listing u = (v.listing u).map fun e => if e.1 = i then (i, c) else e := by
  unfold listing change Table.modify Table.mapRows
  rw [List.filter_map, List.map_map, List.map_map]
  -- The owner of an item does not change, so the filter selects the same items.
  have howner : ∀ e ∈ v.items.entries, ((fun e => decide (e.2.owner = u)) ∘ fun e : ι × Item ω γ =>
      (e.1, if e.1 = i then { e.2 with content := c } else e.2)) e = decide (e.2.owner = u) := by
    intro e _
    dsimp only [Function.comp]
    split <;> rfl
  rw [List.filter_congr howner]
  apply List.map_congr_left
  intro e _
  by_cases hi : e.1 = i <;> simp [hi]

variable {archivedAt : Option Int}

/-- A change of an item is a change of its owner's listing only. -/
theorem listing_change_of_ne (hitem : v.items.lookup i = some item) (hu : u ≠ item.owner) :
    (v.change i c archivedAt).listing u = v.listing u := by
  rw [listing_change]
  refine (List.map_congr_left fun e he => ?_).trans (List.map_id _)
  have hne : e.1 ≠ i := by
    rintro rfl
    obtain rfl := Option.mem_unique hitem (mem_listing.mp he)
    exact hu rfl
  rw [if_neg hne, id]

/-- A change that keeps the content keeps the listings. -/
theorem listing_change_self (hitem : v.items.lookup i = some item) (u : ω) :
    (v.change i item.content archivedAt).listing u = v.listing u := by
  rw [listing_change]
  refine (List.map_congr_left fun e he => ?_).trans (List.map_id _)
  by_cases hi : e.1 = i
  · obtain rfl := Option.mem_unique hitem (hi ▸ mem_listing.mp he)
    rw [if_pos hi, ← hi, id]
  · rw [if_neg hi, id]

/-! ## Replacing the items of an owner -/

theorem entry_clear (v : Versioned ι ω γ) (w : ω) (i : ι) :
    (v.clear w).entry i = (v.entry i).filter fun e => e.1.owner ≠ w := by
  unfold entry stampOf clear
  rw [lookup_filter, lookup_filter]
  cases hitem : v.items.lookup i with
  | none => rfl
  | some item =>
    by_cases hw : item.owner = w
    · simp [hw, Option.filter_some]
    · cases v.stamps.lookup i <;> simp [hw, Option.filter_some]

/-- Every item of the owner has never been changed, and is listed with its content. -/
def Untouched (v : Versioned ι ω γ) (w : ω) (list : List (ι × γ)) : Prop :=
  ∀ e ∈ v.listing w, v.stampOf e.1 = .fresh ∧ e ∈ list

/-- Items that were never changed and are listed again stay as they are. -/
theorem entry_replaceAll (h : v.replaceAll w list = some v') (hw : v.Untouched w list)
    (he : v.entry i = some e) :
    v'.entry i = some e := by
  obtain ⟨item, stamp⟩ := e
  obtain ⟨hitem, hstamp⟩ := entry_eq_some.mp he
  by_cases howner : item.owner = w
  · -- The item is removed and inserted again, at version 1.
    subst howner
    obtain ⟨hfresh, hlisted⟩ := hw (i, item.content) (mem_listing.mpr hitem)
    rw [entry_createAll_of_mem h hlisted, ← hfresh, hstamp]
  · apply entry_createAll_of_some h
    rw [entry_clear, he]
    simp [howner]

end Owners

end Versioned
