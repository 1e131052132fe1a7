import WorkspaceRuntime.Paging.Page

/-!
# Walks over a collection

The pages that `_page_rows` cuts are those of the keyset library, as long as the keys of the rows can
be compared. If the test that skips rows is the order of the query, following the cursors gives every
row once and in order exactly when no two rows have the same key.
-/

namespace WorkspaceRuntime.Paging.Query

open Fallible

variable {ρ : Type} {q : Query ρ} {codec : Codec} {cursor : Option Key}

/-- The test of `_page_rows` is the order of the query. -/
structure Agrees (q : Query ρ) : Prop where
  nonempty : ∀ row, q.key row ≠ []
  length : ∀ a b, (q.key a).length = (q.key b).length
  skip_eq : ∀ a b, q.skip (q.key a) (q.key b) = some (sqlLE q.order a b)
  self : ∀ k, q.skip k k ≠ some false
  trans : ∀ k l m, q.skip k l = some false → q.skip l m = some false → q.skip k m = some false
  antisymm : ∀ a b, sqlLE q.order a b = true → sqlLE q.order b a = true → q.key a = q.key b

/-- A query by ascending columns, whose keys list the values of the columns. -/
theorem Agrees.ascending {q : Query ρ} (hkey : ∀ row, q.key row = q.order.map (·.value row))
    (hskip : q.skip = keyLE) (horder : q.order ≠ []) (htyped : ∀ c ∈ q.order, c.Typed)
    (hascending : ∀ c ∈ q.order, c.descending = false) : q.Agrees where
  nonempty row := by simpa [hkey] using horder
  length a b := by simp [hkey]
  skip_eq a b := by rw [hskip, hkey, hkey, keyLE_columns htyped hascending]
  self k := by simp [hskip, keyLE_refl]
  trans k l m := by simpa only [hskip] using keyLE_trans
  antisymm a b h h' := by rw [hkey, hkey, sqlLE_antisymm h h']

/-- A query by descending columns, whose keys list the values of the columns. -/
theorem Agrees.descending {q : Query ρ} (hkey : ∀ row, q.key row = q.order.map (·.value row))
    (hskip : q.skip = keyGE) (horder : q.order ≠ []) (htyped : ∀ c ∈ q.order, c.Typed)
    (hdescending : ∀ c ∈ q.order, c.descending = true) : q.Agrees where
  nonempty row := by simpa [hkey] using horder
  length a b := by simp [hkey]
  skip_eq a b := by rw [hskip, hkey, hkey, keyGE_columns htyped hdescending]
  self k := by simp [hskip, keyGE, keyLE_refl]
  trans k l m h h' := by
    rw [hskip] at h h' ⊢
    exact keyLE_trans h' h
  antisymm a b h h' := by rw [hkey, hkey, sqlLE_antisymm h h']

/-! ## Pages -/

/-- How a query cuts its rows into pages. -/
def cut (q : Query ρ) : Keyset.Cut ρ Key where
  key := q.key
  beyond k after := q.skip k after = some false

theorem ordered_perm : q.ordered.Perm q.rows := List.perm_insertionSort _ _

theorem ordered_cut (h : q.Agrees) : q.cut.Ordered q.ordered where
  trans k l m hkl hlm := by
    simp only [cut, decide_eq_true_eq] at hkl hlm ⊢
    exact h.trans k l m hkl hlm
  irrefl k := by simpa [cut] using h.self k
  sorted := by
    have : Std.Total fun a b : ρ => sqlLE q.order a b = true := ⟨sqlLE_total q.order⟩
    have : IsTrans ρ fun a b => sqlLE q.order a b = true := ⟨fun _ _ _ => sqlLE_trans⟩
    refine (List.pairwise_insertionSort (fun a b => sqlLE q.order a b = true) q.rows).imp ?_
    intro a b hab
    simp [cut, h.skip_eq, hab]

theorem skips_row (h : q.Agrees) (row b : ρ) :
    q.skips row (some (q.key b)) = .ok (sqlLE q.order row b) := by
  simp only [skips, h.skip_eq, require_of _ (h.length row b)]
  rfl

/-- The loop of a page selects the first rows that are left. -/
theorem select_eq (h : q.Agrees) (after : Option Key) (hafter : ∀ k ∈ after, ∃ b, k = q.key b)
    (n : Nat) (rows : List ρ) :
    q.select after n rows = .ok ((q.cut.rest rows after).take n) := by
  induction rows generalizing n with
  | nil => cases after <;> cases n <;> rfl
  | cons row rows ih =>
    cases n with
    | zero => simp [select]
    | succ n =>
      cases after with
      | none =>
        rw [select, skips, Fallible.ok_bind, if_neg Bool.false_ne_true, ih n]
        rfl
      | some k =>
        obtain ⟨b, rfl⟩ := hafter k rfl
        rw [select, skips_row h, Fallible.ok_bind]
        cases hle : sqlLE q.order row b with
        | true =>
          rw [if_pos rfl, ih (n + 1)]
          simp [Keyset.Cut.rest, cut, h.skip_eq, hle]
        | false =>
          rw [if_neg Bool.false_ne_true, ih n]
          simp [Keyset.Cut.rest, cut, h.skip_eq, hle]

/-- The text of the cursor of a key. -/
def token (q : Query ρ) (codec : Codec) (key : Key) : codec.Token := pageCursor codec q.scope key false

theorem pageArgs_token (h : q.Agrees) (hcursor : ∀ k ∈ cursor, ∃ b, k = q.key b) {limit : Nat}
    (hlimit : 1 ≤ limit ∧ limit ≤ 200) :
    pageArgs codec (cursor.map (q.token codec)) (some limit) =
      .ok (limit, cursor.map fun key => { scope := q.scope, key }) := by
  have hkey : ∀ value ∈ cursor.map fun key => ({ scope := q.scope, key } : Cursor),
      value.key ≠ [] := by
    intro value hvalue
    obtain ⟨key, hmem, rfl⟩ := Option.map_eq_some_iff.mp hvalue
    obtain ⟨b, rfl⟩ := hcursor key hmem
    exact h.nonempty b
  rw [← pageArgs_encode hkey hlimit, Option.map_map]
  rfl

/-- A page of a collection is the page of its rows. -/
theorem page_eq (h : q.Agrees) (hcursor : ∀ k ∈ cursor, ∃ b, k = q.key b) {limit : Nat}
    (hlimit : 1 ≤ limit ∧ limit ≤ 200) :
    q.page codec (cursor.map (q.token codec)) (some limit) =
      .ok ⟨(q.cut.page q.ordered limit cursor).items,
        (q.cut.page q.ordered limit cursor).next.map (q.token codec)⟩ := by
  have hscope : ∀ value ∈ cursor.map fun key => ({ scope := q.scope, key } : Cursor),
      value.scope = q.scope := by simp
  have hkeys : (cursor.map fun key => ({ scope := q.scope, key } : Cursor)).map Cursor.key = cursor := by
    cases cursor <;> rfl
  rw [page, pageArgs_token h hcursor hlimit, Fallible.ok_bind]
  dsimp only
  rw [require_of _ hscope, Fallible.ok_bind, hkeys, select_eq h cursor hcursor, Fallible.ok_bind]
  have htake : ((q.cut.rest q.ordered cursor).take (limit + 1)).take limit =
      (q.cut.rest q.ordered cursor).take limit := by
    rw [List.take_take, Nat.min_eq_left (Nat.le_succ limit)]
  have hmore : limit < ((q.cut.rest q.ordered cursor).take (limit + 1)).length ↔
      limit < (q.cut.rest q.ordered cursor).length := by
    rw [List.length_take]
    omega
  rw [htake]
  unfold Keyset.Cut.page
  dsimp only
  by_cases hlt : limit < (q.cut.rest q.ordered cursor).length
  · rw [if_pos (hmore.mpr hlt), if_pos hlt, Option.map_map]
    rfl
  · rw [if_neg fun h => hlt (hmore.mp h), if_neg hlt]
    rfl

/-! ## Walks -/

/-- The pages of a collection are the pages of its rows. -/
theorem walk_eq (h : q.Agrees) {limits : Nat → Nat} (hlimits : ∀ i, 1 ≤ limits i ∧ limits i ≤ 200)
    (fuel : Nat) :
    q.walk codec limits fuel = Keyset.walk (q.cut.fetch q.ordered limits) fuel 0 none := by
  have hissued : ∀ i cursor page, q.cut.fetch q.ordered limits i cursor = some page →
      ∀ k ∈ page.next, ∃ b, k = q.key b := by
    rintro i cursor _ ⟨⟩ k hk
    obtain ⟨-, b, -, rfl⟩ := Keyset.Cut.page_next_some hk
    exact ⟨b, rfl⟩
  rw [walk, ← Option.map_none (f := q.token codec),
    Keyset.walk_congr id (q.token codec) hissued _ fuel 0 none (by simp)]
  · simp
  · intro i cursor hcursor
    rw [fetch, page_eq h hcursor (hlimits i)]
    simp [Keyset.Cut.fetch, Except.toOption]

/-- Following the cursors gives all rows for every sequence of limits exactly when the keys of the
rows differ. -/
theorem walk_complete_iff (h : q.Agrees) :
    (∀ limits : Nat → Nat, (∀ i, 1 ≤ limits i ∧ limits i ≤ 200) →
        q.walk codec limits (q.ordered.length + 1) = some q.ordered) ↔
      (q.rows.map q.key).Nodup := by
  have hordered := ordered_cut h
  have hstrict : (q.ordered.Pairwise fun a b => q.cut.beyond (q.cut.key b) (q.cut.key a) = true) ↔
      (q.rows.map q.key).Nodup := by
    rw [← (ordered_perm.map q.key).nodup_iff, List.Nodup, List.pairwise_map]
    refine ⟨fun hpairs => hpairs.imp ?_, fun hpairs => ?_⟩
    · intro a b hbeyond heq
      have hself := hordered.irrefl (q.cut.key b)
      rw [show q.cut.key a = q.cut.key b from heq] at hbeyond
      rw [hself] at hbeyond
      cases hbeyond
    · refine (hpairs.and hordered.sorted).imp ?_
      rintro a b ⟨hne, hle⟩
      simp only [cut, h.skip_eq, decide_eq_true_eq, decide_eq_false_iff_not, Option.some.injEq,
        Bool.not_eq_false] at hle ⊢
      rw [← Bool.not_eq_true]
      intro hge
      exact hne (h.antisymm a b hle hge)
  rw [← hstrict]
  constructor
  · intro hall
    have hsingles := hall (fun _ => 1) fun _ => ⟨Nat.le_refl 1, by decide⟩
    rw [walk_eq h fun _ => ⟨Nat.le_refl 1, by decide⟩] at hsingles
    exact Keyset.Cut.pairwise_of_walk_singles hordered hsingles
  · intro hpairs limits hlimits
    rw [walk_eq h hlimits]
    exact Keyset.Cut.walk_eq_rows hordered (fun i => (hlimits i).1) hpairs

end WorkspaceRuntime.Paging.Query
