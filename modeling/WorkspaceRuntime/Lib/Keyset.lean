import Mathlib.Data.List.Basic
import Mathlib.Data.List.Pairwise

/-!
# Keyset pages

A list of rows is read page by page. A page starts after a cursor, which is the key of the last row
of the page before, and selects the rows that stand `beyond` it. `walk` follows the cursors until a
page has none.

The pages of a walk are the rows of the list, each once and in order, exactly when every row that
follows the last row of a page stands beyond it (`walk_eq_rows_iff`). This is `Cuts`. It holds for
all limits if every row stands beyond all rows before it (`walk_eq_rows`), and with pages of one row
it holds in no other case (`pairwise_of_walk_singles`).
-/

namespace Keyset

variable {ρ κ : Type}

/-- The key of a row, and whether a row of the first key stands beyond a cursor of the second. -/
structure Cut (ρ κ : Type) where
  key : ρ → κ
  beyond : κ → κ → Bool

/-- A page, and the cursor of the page after it. -/
structure Page (ρ κ : Type) where
  items : List ρ
  next : Option κ
  deriving DecidableEq

/-! ## Walks -/

/-- The rows of all pages from the `i`th request on, if they end within `fuel` pages. -/
def walk {γ : Type} (fetch : Nat → Option γ → Option (Page ρ γ)) :
    (fuel i : Nat) → Option γ → Option (List ρ)
  | 0, _, _ => none
  | fuel + 1, i, cursor =>
    match fetch i cursor with
    | none => none
    | some ⟨items, none⟩ => some items
    | some ⟨items, some next⟩ => (walk fetch fuel (i + 1) (some next)).map (items ++ ·)

/-- Two ways to fetch the same pages under different names of their rows and cursors give the same
rows. The names of the cursors need to agree on those that pages have. -/
theorem walk_congr {σ γ δ : Type} {fetch : Nat → Option γ → Option (Page ρ γ)}
    {fetch' : Nat → Option δ → Option (Page σ δ)} (item : ρ → σ) (name : γ → δ) {Issued : γ → Prop}
    (hissued : ∀ i cursor page, fetch i cursor = some page → ∀ c ∈ page.next, Issued c)
    (h : ∀ i cursor, (∀ c ∈ cursor, Issued c) → fetch' i (cursor.map name) =
      (fetch i cursor).map fun page => ⟨page.items.map item, page.next.map name⟩)
    (fuel i : Nat) (cursor : Option γ) (hcursor : ∀ c ∈ cursor, Issued c) :
    walk fetch' fuel i (cursor.map name) = (walk fetch fuel i cursor).map (List.map item) := by
  induction fuel generalizing i cursor with
  | zero => rfl
  | succ fuel ih =>
    unfold walk
    rw [h i cursor hcursor]
    cases hpage : fetch i cursor with
    | none => rfl
    | some page =>
      obtain ⟨items, next⟩ := page
      cases next with
      | none => rfl
      | some c =>
        have hih := ih (i + 1) (some c) (hissued i cursor _ hpage)
        show (walk fetch' fuel (i + 1) ((some c).map name)).map _ = _
        rw [hih, Option.map_map, Option.map_map]
        congr 1
        funext others
        exact List.map_append.symm

namespace Cut

variable (cut : Cut ρ κ) (rows : List ρ)

/-- The rows that are left after a cursor. -/
def rest : Option κ → List ρ
  | none => rows
  | some c => rows.filter fun r => cut.beyond (cut.key r) c

/-- The page after a cursor. -/
def page (limit : Nat) (cursor : Option κ) : Page ρ κ :=
  let selected := cut.rest rows cursor
  { items := selected.take limit
    next := if limit < selected.length then (selected.take limit).getLast?.map cut.key else none }

/-- The pages of a list, with a limit for each request. -/
def fetch (limits : Nat → Nat) (i : Nat) (cursor : Option κ) : Option (Page ρ κ) :=
  some (cut.page rows (limits i) cursor)

/-- Every row that follows the last row of a page stands beyond it. -/
def Cuts (limits : Nat → Nat) : (fuel i : Nat) → List ρ → Prop
  | 0, _, _ => True
  | fuel + 1, i, left =>
    (∀ b ∈ (left.take (limits i)).getLast?, ∀ r ∈ left.drop (limits i),
      cut.beyond (cut.key r) (cut.key b) = true) ∧
      Cuts limits fuel (i + 1) (left.drop (limits i))

/-- `beyond` is a strict order on the keys, and the rows stand in it. -/
structure Ordered : Prop where
  trans : ∀ a b c, cut.beyond a b = true → cut.beyond b c = true → cut.beyond a c = true
  irrefl : ∀ a, cut.beyond a a = false
  sorted : rows.Pairwise fun a b => cut.beyond (cut.key a) (cut.key b) = false

variable {cut rows} {limits : Nat → Nat}

/-! ## One page -/

/-- After the last row of a page the rows that follow it are left, if they stand beyond it. -/
theorem rest_of_split (h : cut.Ordered rows) {before after : List ρ} {b : ρ}
    (hrows : rows = before ++ b :: after)
    (hbeyond : ∀ r ∈ after, cut.beyond (cut.key r) (cut.key b) = true) :
    cut.rest rows (some (cut.key b)) = after := by
  have hsorted := h.sorted
  rw [hrows, List.pairwise_append] at hsorted
  obtain ⟨-, -, hcross⟩ := hsorted
  have hbefore : ∀ r ∈ before, cut.beyond (cut.key r) (cut.key b) = false :=
    fun r hr => hcross r hr b List.mem_cons_self
  rw [rest, hrows, List.filter_append, List.filter_cons]
  rw [List.filter_eq_nil_iff.mpr fun r hr => by simp [hbefore r hr],
    List.filter_eq_self.mpr hbeyond, h.irrefl]
  simp

variable {c : κ} {limit fuel i : Nat} {cursor : Option κ}

theorem mem_rest_some {r : ρ} (hr : r ∈ cut.rest rows (some c)) :
    cut.beyond (cut.key r) c = true :=
  (List.mem_filter.mp hr).2

/-- A page that is not the last one ends in the row whose key is its cursor. -/
theorem page_next_some (h : (cut.page rows limit cursor).next = some c) :
    limit < (cut.rest rows cursor).length ∧
      ∃ b, ((cut.rest rows cursor).take limit).getLast? = some b ∧ cut.key b = c := by
  unfold page at h
  dsimp only at h
  split at h
  next hlt => exact ⟨hlt, Option.map_eq_some_iff.mp h⟩
  next => cases h

theorem page_next_none (hlimit : 0 < limit) (h : (cut.page rows limit cursor).next = none) :
    (cut.rest rows cursor).length ≤ limit := by
  unfold page at h
  dsimp only at h
  split at h
  next hlt =>
    have hnil := List.getLast?_eq_none_iff.mp (Option.map_eq_none_iff.mp h)
    rw [List.take_eq_nil_iff] at hnil
    rcases hnil with hzero | hnil
    · omega
    · rw [hnil] at hlt
      simp at hlt
  next hlt => omega

/-! ## What a walk returns -/

theorem walk_last (h : (cut.page rows (limits i) cursor).next = none) :
    walk (cut.fetch rows limits) (fuel + 1) i cursor =
      some ((cut.rest rows cursor).take (limits i)) := by
  cases hpage : cut.page rows (limits i) cursor with
  | mk items next =>
    rw [hpage] at h
    obtain rfl : next = none := h
    rw [walk, fetch, hpage]
    exact congrArg some (congrArg Page.items hpage).symm

theorem walk_next (h : (cut.page rows (limits i) cursor).next = some c) :
    walk (cut.fetch rows limits) (fuel + 1) i cursor =
      (walk (cut.fetch rows limits) fuel (i + 1) (some c)).map
        ((cut.rest rows cursor).take (limits i) ++ ·) := by
  have hitems : (cut.page rows (limits i) cursor).items = (cut.rest rows cursor).take (limits i) := rfl
  cases hpage : cut.page rows (limits i) cursor with
  | mk items next =>
    rw [hpage] at h hitems
    obtain rfl : next = some c := h
    rw [← hitems, walk, fetch, hpage]

theorem mem_of_mem_rest {r : ρ} (hr : r ∈ cut.rest rows cursor) : r ∈ rows := by
  cases cursor with
  | none => exact hr
  | some c => exact List.mem_of_mem_filter hr

/-- The rows of a walk are rows of the list. -/
theorem mem_of_mem_walk {items : List ρ}
    (hwalk : walk (cut.fetch rows limits) fuel i cursor = some items) : ∀ r ∈ items, r ∈ rows := by
  induction fuel generalizing i cursor items with
  | zero => cases hwalk
  | succ fuel ih =>
    have hmem : ∀ r ∈ (cut.rest rows cursor).take (limits i), r ∈ rows :=
      fun r hr => mem_of_mem_rest (List.mem_of_mem_take hr)
    cases hnext : (cut.page rows (limits i) cursor).next with
    | none =>
      rw [walk_last hnext] at hwalk
      exact Option.some.inj hwalk ▸ hmem
    | some c =>
      rw [walk_next hnext] at hwalk
      obtain ⟨others, hothers, rfl⟩ := Option.map_eq_some_iff.mp hwalk
      intro r hr
      rcases List.mem_append.mp hr with hr | hr
      · exact hmem r hr
      · exact ih hothers r hr

/-- All rows of a walk stand beyond the cursor it starts with. -/
theorem walk_beyond (h : cut.Ordered rows) {items : List ρ}
    (hwalk : walk (cut.fetch rows limits) fuel i (some c) = some items) :
    ∀ r ∈ items, cut.beyond (cut.key r) c = true := by
  induction fuel generalizing i c items with
  | zero => cases hwalk
  | succ fuel ih =>
    have hmem : ∀ r ∈ (cut.rest rows (some c)).take (limits i), cut.beyond (cut.key r) c = true :=
      fun r hr => mem_rest_some (List.mem_of_mem_take hr)
    cases hnext : (cut.page rows (limits i) (some c)).next with
    | none =>
      rw [walk_last hnext] at hwalk
      exact Option.some.inj hwalk ▸ hmem
    | some c' =>
      rw [walk_next hnext] at hwalk
      obtain ⟨others, hothers, rfl⟩ := Option.map_eq_some_iff.mp hwalk
      obtain ⟨-, b, hb, rfl⟩ := page_next_some hnext
      intro r hr
      rcases List.mem_append.mp hr with hr | hr
      · exact hmem r hr
      · exact h.trans _ _ _ (ih hothers r hr) (hmem b (List.mem_of_getLast? hb))

theorem cuts_nil (fuel i : Nat) : cut.Cuts limits fuel i ([] : List ρ) := by
  induction fuel generalizing i with
  | zero => trivial
  | succ fuel ih => exact ⟨by simp, by simpa using ih (i + 1)⟩

/-- The rows from a cursor on are those that are left, when the pages cut them well, and only then. -/
theorem walk_rest_iff (h : cut.Ordered rows) (hlimits : ∀ i, 0 < limits i) (fuel i : Nat)
    (cursor : Option κ) (before : List ρ) (hrows : rows = before ++ cut.rest rows cursor)
    (hfuel : (cut.rest rows cursor).length < fuel) :
    walk (cut.fetch rows limits) fuel i cursor = some (cut.rest rows cursor) ↔
      cut.Cuts limits fuel i (cut.rest rows cursor) := by
  induction fuel generalizing i cursor before with
  | zero => omega
  | succ fuel ih =>
    cases hnext : (cut.page rows (limits i) cursor).next with
    | none =>
      -- the last page has all that is left
      have hlength := page_next_none (hlimits i) hnext
      rw [walk_last hnext, Cuts, List.drop_eq_nil_of_le hlength, List.take_of_length_le hlength]
      simp [cuts_nil]
    | some c =>
      rw [walk_next hnext, Cuts]
      obtain ⟨hlt, b, hb, rfl⟩ := page_next_some hnext
      generalize cut.rest rows cursor = left at *
      obtain ⟨init, hinit⟩ : ∃ init, left.take (limits i) = init ++ [b] :=
        ⟨_, (List.dropLast_append_getLast? b hb).symm⟩
      have hsplit : rows = (before ++ init) ++ b :: left.drop (limits i) := by
        calc rows = before ++ (left.take (limits i) ++ left.drop (limits i)) := by
              rw [List.take_append_drop, hrows]
          _ = (before ++ init) ++ b :: left.drop (limits i) := by
              rw [hinit]
              simp
      have hstep (hbeyond : ∀ r ∈ left.drop (limits i), cut.beyond (cut.key r) (cut.key b) = true) :
          walk (cut.fetch rows limits) fuel (i + 1) (some (cut.key b)) =
              some (left.drop (limits i)) ↔
            cut.Cuts limits fuel (i + 1) (left.drop (limits i)) := by
        have hrest := rest_of_split h hsplit hbeyond
        have hih := ih (i + 1) (some (cut.key b)) (before ++ init ++ [b])
          (by rw [hrest, List.append_assoc, List.singleton_append]; exact hsplit)
          (by rw [hrest, List.length_drop]; have := hlimits i; omega)
        rwa [hrest] at hih
      simp only [hb, Option.mem_def, Option.some.injEq, forall_eq']
      constructor
      · intro hwalk
        obtain ⟨others, hothers, happend⟩ := Option.map_eq_some_iff.mp hwalk
        obtain rfl : others = left.drop (limits i) :=
          List.append_cancel_left (happend.trans (List.take_append_drop (limits i) left).symm)
        have hbeyond := walk_beyond h hothers
        exact ⟨hbeyond, (hstep hbeyond).mp hothers⟩
      · rintro ⟨hbeyond, hcuts⟩
        rw [(hstep hbeyond).mpr hcuts, Option.map_some, List.take_append_drop]

/-- The pages of a list are the list exactly when they cut it well. -/
theorem walk_eq_rows_iff (h : cut.Ordered rows) (hlimits : ∀ i, 0 < limits i) :
    walk (cut.fetch rows limits) (rows.length + 1) 0 none = some rows ↔
      cut.Cuts limits (rows.length + 1) 0 rows :=
  walk_rest_iff h hlimits _ 0 none [] rfl (Nat.lt_succ_self _)

/-- With one limit for all requests, the rows that follow a page are those that follow its last row
in the list. -/
theorem cuts_const_iff (hlimit : 0 < limit) {left : List ρ} (hfuel : left.length < fuel) :
    cut.Cuts (fun _ => limit) fuel i left ↔
      ∀ k, ∀ b ∈ ((left.drop (k * limit)).take limit).getLast?, ∀ r ∈ left.drop ((k + 1) * limit),
        cut.beyond (cut.key r) (cut.key b) = true := by
  induction fuel generalizing i left with
  | zero => omega
  | succ fuel ih =>
    rw [Cuts]
    by_cases hleft : left = []
    · subst hleft
      simp [cuts_nil]
    have hlength := List.length_pos_iff.mpr hleft
    rw [ih (by rw [List.length_drop]; omega)]
    simp only [List.drop_drop]
    have hshift (k : Nat) : limit + k * limit = (k + 1) * limit := by rw [Nat.succ_mul, Nat.add_comm]
    simp only [hshift]
    refine ⟨fun ⟨hfirst, hothers⟩ k => ?_, fun hall => ⟨?_, fun k => hall (k + 1)⟩⟩
    · cases k with
      | zero => simpa using hfirst
      | succ k => exact hothers k
    · simpa using hall 0

/-! ## All limits -/

theorem cuts_of_pairwise (h : rows.Pairwise fun a b => cut.beyond (cut.key b) (cut.key a) = true)
    (fuel i : Nat) : cut.Cuts limits fuel i rows := by
  induction fuel generalizing i rows with
  | zero => trivial
  | succ fuel ih =>
    refine ⟨fun b hb r hr => ?_, ih (h.sublist (List.drop_sublist _ _)) (i + 1)⟩
    rw [← List.take_append_drop (limits i) rows, List.pairwise_append] at h
    exact h.2.2 b (List.mem_of_getLast? hb) r hr

/-- The pages of a list in which every row stands beyond those before it are the list. -/
theorem walk_eq_rows (h : cut.Ordered rows) (hlimits : ∀ i, 0 < limits i)
    (hstrict : rows.Pairwise fun a b => cut.beyond (cut.key b) (cut.key a) = true) :
    walk (cut.fetch rows limits) (rows.length + 1) 0 none = some rows :=
  (walk_eq_rows_iff h hlimits).mpr (cuts_of_pairwise hstrict _ _)

theorem pairwise_of_cuts {left : List ρ} (hfuel : left.length ≤ fuel)
    (h : cut.Cuts (fun _ => 1) fuel i left) :
    left.Pairwise fun a b => cut.beyond (cut.key b) (cut.key a) = true := by
  induction fuel generalizing i left with
  | zero => simp [List.length_eq_zero_iff.mp (Nat.le_zero.mp hfuel)]
  | succ fuel ih =>
    cases left with
    | nil => exact .nil
    | cons b left =>
      obtain ⟨hbeyond, hcuts⟩ := h
      refine .cons (fun r hr => hbeyond b (by simp) r (by simpa using hr)) ?_
      exact ih (by simpa using hfuel) (by simpa using hcuts)

/-- If pages of one row are the list, every row stands beyond those before it. -/
theorem pairwise_of_walk_singles (h : cut.Ordered rows)
    (hwalk : walk (cut.fetch rows fun _ => 1) (rows.length + 1) 0 none = some rows) :
    rows.Pairwise fun a b => cut.beyond (cut.key b) (cut.key a) = true :=
  pairwise_of_cuts (Nat.le_succ _) ((walk_eq_rows_iff h fun _ => Nat.one_pos).mp hwalk)

end Cut

end Keyset
