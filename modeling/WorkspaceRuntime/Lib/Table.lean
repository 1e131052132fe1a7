import Mathlib.Data.List.Nodup

/-!
# Keyed tables

A `Table κ α` is a table of rows `α` with primary key `κ`: a list of entries in insertion order that
carries the uniqueness of its keys. Rows do not contain their key, so that an update cannot move a
row to another key. The operations are those of SQL: `INSERT` (`insertNew`), `INSERT OR IGNORE`
(`insertIgnore`), `INSERT … ON CONFLICT DO UPDATE` (`upsert`), `UPDATE … WHERE` (`mapRows`, and
`modify` for one key) and `DELETE … WHERE NOT` (`filter`). Each has one lemma that gives `lookup`
after it. A table whose rows are keys only is a list of them.
-/

universe u v

/-- Rows with a primary key, in insertion order. -/
structure Table (κ : Type u) (α : Type v) where
  entries : List (κ × α)
  nodup : (entries.map Prod.fst).Nodup

namespace Table

variable {κ : Type u} {α : Type v}

variable {t t' : Table κ α} {k : κ} {a : α}

@[ext] theorem ext (h : t.entries = t'.entries) : t = t' := by
  cases t; cases t'; simp_all

instance [DecidableEq κ] [DecidableEq α] : DecidableEq (Table κ α) := fun t t' =>
  decidable_of_iff (t.entries = t'.entries) ⟨ext, fun h => h ▸ rfl⟩

/-- The table without rows. -/
def empty : Table κ α := ⟨[], List.nodup_nil⟩

instance : Inhabited (Table κ α) := ⟨empty⟩

/-- The keys, in insertion order. -/
def keys (t : Table κ α) : List κ := t.entries.map Prod.fst

/-- The row stored under `k`. -/
def lookup [DecidableEq κ] (t : Table κ α) (k : κ) : Option α :=
  (t.entries.find? (fun e => e.1 = k)).map Prod.snd

/-- `UPDATE`: replace every row by `g` of its key and itself. -/
def mapRows (t : Table κ α) (g : κ → α → α) : Table κ α where
  entries := t.entries.map fun e => (e.1, g e.1 e.2)
  nodup := by simpa [Function.comp_def] using t.nodup

/-- `UPDATE … WHERE key = k`. -/
def modify [DecidableEq κ] (t : Table κ α) (k : κ) (f : α → α) : Table κ α :=
  t.mapRows fun k' a => if k' = k then f a else a

/-- Append a row under a key the table does not have. -/
def push (t : Table κ α) (k : κ) (a : α) (h : k ∉ t.keys) : Table κ α where
  entries := t.entries ++ [(k, a)]
  nodup := by
    rw [List.map_append, List.map_singleton, List.nodup_append]
    refine ⟨t.nodup, List.nodup_singleton k, ?_⟩
    intro x hx y hy hxy
    have hxk : x = k := hxy.trans (List.mem_singleton.mp hy)
    exact h (hxk ▸ hx)

/-- `INSERT`: fails on an existing key. -/
def insertNew [DecidableEq κ] (t : Table κ α) (k : κ) (a : α) : Option (Table κ α) :=
  if h : k ∈ t.keys then none else some (t.push k a h)

/-- `INSERT OR IGNORE`. -/
def insertIgnore [DecidableEq κ] (t : Table κ α) (k : κ) (a : α) : Table κ α :=
  if h : k ∈ t.keys then t else t.push k a h

/-- `INSERT … ON CONFLICT DO UPDATE`: an existing row keeps its place. -/
def upsert [DecidableEq κ] (t : Table κ α) (k : κ) (a : α) : Table κ α :=
  if h : k ∈ t.keys then t.modify k fun _ => a else t.push k a h

/-- One row under each of the keys. -/
def upsertAll [DecidableEq κ] (t : Table κ α) (ks : List κ) (a : α) : Table κ α :=
  ks.foldl (fun t k => t.upsert k a) t

/-- Keep the rows that satisfy `p`. -/
def filter (t : Table κ α) (p : κ → α → Bool) : Table κ α where
  entries := t.entries.filter fun e => p e.1 e.2
  nodup := t.nodup.sublist (List.filter_sublist.map Prod.fst)

/-! ## Membership and lookup -/

section Lookup

variable [DecidableEq κ]

private theorem find_of_mem : ∀ {l : List (κ × α)} {k : κ} {a : α},
    (l.map Prod.fst).Nodup → (k, a) ∈ l → l.find? (fun e => e.1 = k) = some (k, a)
  | e :: l, k, a, hnd, hmem => by
    rw [List.map_cons, List.nodup_cons] at hnd
    rcases List.mem_cons.mp hmem with rfl | hmem
    · simp
    · have hne : e.1 ≠ k := fun h => hnd.1 (h ▸ List.mem_map_of_mem hmem)
      rw [List.find?_cons_of_neg (by simpa using hne)]
      exact find_of_mem hnd.2 hmem

theorem lookup_eq_some_iff : t.lookup k = some a ↔ (k, a) ∈ t.entries := by
  constructor
  · intro h
    obtain ⟨⟨k', a'⟩, hfind, rfl⟩ := Option.map_eq_some_iff.mp h
    have hk : k' = k := by simpa using List.find?_some hfind
    exact hk ▸ List.mem_of_find?_eq_some hfind
  · intro h
    simp [lookup, find_of_mem t.nodup h]

theorem lookup_of_mem_filter {f : κ × α → Bool} {e : κ × α} (h : e ∈ t.entries.filter f) :
    t.lookup e.1 = some e.2 :=
  lookup_eq_some_iff.mpr (List.mem_filter.mp h).1

theorem mem_keys_iff : k ∈ t.keys ↔ ∃ a, t.lookup k = some a := by
  simp [keys, lookup_eq_some_iff]

theorem lookup_eq_none_iff : t.lookup k = none ↔ k ∉ t.keys := by
  rw [mem_keys_iff, Option.eq_none_iff_forall_ne_some, not_exists]

@[simp] theorem lookup_empty (k : κ) : (empty : Table κ α).lookup k = none := rfl

@[simp] theorem lookup_mapRows (t : Table κ α) (g : κ → α → α) (k : κ) :
    (t.mapRows g).lookup k = (t.lookup k).map (g k) := by
  ext a
  simp only [lookup_eq_some_iff, mapRows, List.mem_map, Prod.exists, Prod.mk.injEq,
    Option.map_eq_some_iff]
  constructor
  · rintro ⟨k', a', hmem, rfl, rfl⟩
    exact ⟨a', hmem, rfl⟩
  · rintro ⟨a', hmem, rfl⟩
    exact ⟨k, a', hmem, rfl, rfl⟩

theorem lookup_modify (t : Table κ α) (k : κ) (f : α → α) (k' : κ) :
    (t.modify k f).lookup k' = if k' = k then (t.lookup k').map f else t.lookup k' := by
  rw [modify, lookup_mapRows]
  split
  · rfl
  · simp

@[simp] theorem lookup_modify_self (t : Table κ α) (k : κ) (f : α → α) :
    (t.modify k f).lookup k = (t.lookup k).map f := by
  simp [lookup_modify]

theorem lookup_modify_of_ne (t : Table κ α) {k' : κ} (f : α → α) (h : k' ≠ k) :
    (t.modify k f).lookup k' = t.lookup k' := by
  simp [lookup_modify, h]

theorem lookup_push (t : Table κ α) (k : κ) (a : α) (h : k ∉ t.keys) (k' : κ) :
    (t.push k a h).lookup k' = if k' = k then some a else t.lookup k' := by
  ext a'
  simp only [lookup_eq_some_iff, push, List.mem_append, List.mem_singleton, Prod.mk.injEq]
  split
  next hk =>
    subst hk
    have hnot : (k', a') ∉ t.entries := fun hmem => h (List.mem_map_of_mem hmem)
    simp [hnot, eq_comm]
  next hk => simp [hk, lookup_eq_some_iff]

theorem lookup_insertNew (h : t.insertNew k a = some t')
    (k' : κ) : t'.lookup k' = if k' = k then some a else t.lookup k' := by
  unfold insertNew at h
  split at h
  · cases h
  next hk =>
    cases h
    exact lookup_push t k a hk k'

theorem entries_insertNew (h : t.insertNew k a = some t') : t'.entries = t.entries ++ [(k, a)] := by
  unfold insertNew at h
  split at h <;> cases h
  rfl

theorem insertNew_eq_some_iff : (∃ t', t.insertNew k a = some t') ↔ t.lookup k = none := by
  rw [lookup_eq_none_iff, insertNew]
  split <;> simp_all

theorem lookup_of_insertNew {k' : κ} {b : α} (h : t.insertNew k a = some t')
    (hb : t.lookup k' = some b) : t'.lookup k' = some b := by
  have hnew : t.lookup k = none := insertNew_eq_some_iff.mp ⟨t', h⟩
  have hne : k' ≠ k := by
    rintro rfl
    simp [hnew] at hb
  rw [lookup_insertNew h, if_neg hne, hb]

theorem lookup_insertIgnore (t : Table κ α) (k : κ) (a : α) (k' : κ) :
    (t.insertIgnore k a).lookup k' =
      if k' = k then some ((t.lookup k).getD a) else t.lookup k' := by
  unfold insertIgnore
  split
  next hk =>
    obtain ⟨b, hb⟩ := mem_keys_iff.mp hk
    split
    next hk' => simp [hk', hb]
    next => rfl
  next hk =>
    have hnone : t.lookup k = none := lookup_eq_none_iff.mpr hk
    simp [lookup_push, hnone]

theorem lookup_upsert (t : Table κ α) (k : κ) (a : α) (k' : κ) :
    (t.upsert k a).lookup k' = if k' = k then some a else t.lookup k' := by
  unfold upsert
  split
  next hk =>
    obtain ⟨b, hb⟩ := mem_keys_iff.mp hk
    rw [lookup_modify]
    split
    next hk' => simp [hk', hb]
    next => rfl
  next hk => exact lookup_push t k a hk k'

/-- Two tests that agree where both hold are made in either order. -/
theorem ite_ite_swap {p q : Prop} [Decidable p] [Decidable q] {b c : α} (h : p → q → a = b) :
    (if p then a else if q then b else c) = if q then b else if p then a else c := by
  by_cases hp : p <;> by_cases hq : q
  · rw [if_pos hp, if_pos hq, h hp hq]
  all_goals simp [hp, hq]

theorem lookup_upsertAll (t : Table κ α) (ks : List κ) (a : α) (k : κ) :
    (t.upsertAll ks a).lookup k = if k ∈ ks then some a else t.lookup k := by
  induction ks generalizing t with
  | nil => rfl
  | cons k' ks ih =>
    rw [upsertAll, List.foldl_cons, ← upsertAll, ih, lookup_upsert]
    by_cases hk : k = k' <;> by_cases hks : k ∈ ks <;> simp [hk, hks]

theorem lookup_filter (t : Table κ α) (p : κ → α → Bool) (k : κ) :
    (t.filter p).lookup k = (t.lookup k).filter (p k) := by
  ext a
  simp [lookup_eq_some_iff, filter, Option.filter_eq_some_iff]

/-- The row of a key that a query asks for. -/
theorem lookup_filter_key {p : κ → Bool} (hk : p k = true) :
    (t.filter fun k _ => p k).lookup k = t.lookup k := by
  rw [lookup_filter, hk]
  cases t.lookup k <;> rfl

/-! ## Tables with the same rows -/

/-- The tables have the same rows, in whatever order. -/
def SameRows (t t' : Table κ α) : Prop := ∀ k, t.lookup k = t'.lookup k

theorem SameRows.refl (t : Table κ α) : t.SameRows t := fun _ => rfl

theorem SameRows.trans {t'' : Table κ α} (h : t.SameRows t') (h' : t'.SameRows t'') :
    t.SameRows t'' :=
  fun k => (h k).trans (h' k)

/-- The entries of such tables are the same, up to their order. -/
theorem SameRows.perm (h : t.SameRows t') : t.entries.Perm t'.entries := by
  refine (List.perm_ext_iff_of_nodup t.nodup.of_map t'.nodup.of_map).mpr ?_
  rintro ⟨k, a⟩
  rw [← lookup_eq_some_iff, ← lookup_eq_some_iff, h k]

end Lookup

end Table

/-! ## Tables of keys -/

section Keys

variable {κ : Type u} [DecidableEq κ]

/-- `INSERT OR IGNORE` into a table whose rows are keys only. -/
def insertMissing (keys new : List κ) : List κ := keys ++ (new.filter (· ∉ keys)).eraseDups

theorem mem_insertMissing_left {keys new : List κ} {k : κ} (h : k ∈ keys) :
    k ∈ insertMissing keys new :=
  List.mem_append_left _ h

/-- Nothing is inserted exactly when every key is there. -/
theorem insertMissing_eq_self_iff {keys new : List κ} :
    insertMissing keys new = keys ↔ ∀ k ∈ new, k ∈ keys := by
  have hnil : new.filter (· ∉ keys) = [] ↔ ∀ k ∈ new, k ∈ keys := by simp
  rw [← hnil, insertMissing, List.append_right_eq_self]
  cases new.filter (· ∉ keys) with
  | nil => simp
  | cons k rest => simp [List.eraseDups_cons]

end Keys
