import WorkspaceRuntime.Lib.Fallible
import WorkspaceRuntime.Lib.Keyset
import WorkspaceRuntime.Model.State
import Mathlib.Data.List.Sort

/-!
# Pages of a collection

A collection endpoint reads the rows of a query in order and hands them to `_page_rows`, which skips
the rows up to the cursor and answers with at most `limit` of those that follow. The cursor of a page
is the key of its last row. The order of the query and the test that skips rows are written down
apart from each other: `Query.Agrees` says when they are the same order.
-/

namespace WorkspaceRuntime.Paging

open Fallible

/-! ## Keys -/

/-- A member of a sort key. -/
inductive KeyPart where
  | text (s : String)
  | number (n : Int)
  deriving DecidableEq, Repr

/-- The sort key of a row. -/
abbrev Key := List KeyPart

/-- `<` of the interpreter, which compares texts with texts and numbers with numbers. -/
def KeyPart.lt : KeyPart → KeyPart → Option Bool
  | .text s, .text t => some (s < t)
  | .number m, .number n => some (m < n)
  | _, _ => none

/-- `key <= after`, on tuples of one length. -/
def keyLE : Key → Key → Option Bool
  | a :: k, b :: l => if a = b then keyLE k l else a.lt b
  | [], _ => some true
  | _ :: _, [] => some false

/-- `key >= after`, on tuples of one length. -/
def keyGE (k l : Key) : Option Bool := keyLE l k

/-- The test of `list_generations`: the first member descends and the second one ascends. -/
def newestFirst : Key → Key → Option Bool
  | k₀ :: k₁ :: _, a₀ :: a₁ :: _ =>
    match a₀.lt k₀ with
    | none => none
    | some true => some true
    | some false => if k₀ = a₀ then keyLE [k₁] [a₁] else some false
  | _, _ => none

/-! ## Cursors -/

/-- The value of a cursor. -/
structure Cursor where
  scope : String
  key : Key
  numeric : Bool := false
  deriving DecidableEq, Repr

/-- The texts of cursors: base64 of JSON. -/
structure Codec where
  Token : Type
  encode : Cursor → Token
  decode : Token → Option Cursor
  decode_encode : ∀ c, c.key ≠ [] → decode (encode c) = some c

/-- Cursors that are their values. -/
def plainCodec : Codec where
  Token := Cursor
  encode c := c
  decode c := some c
  decode_encode _ _ := rfl

/-- `_page_args`: the limit, if it is a number, and the value of the cursor. -/
def pageArgs (codec : Codec) (cursor : Option codec.Token) (limit : Option Int) :
    Except Err (Nat × Option Cursor) := do
  let message := Err.invalidRequest "limit must be an integer between 1 and 200"
  let limit ← orThrow limit message
  require (1 ≤ limit ∧ limit ≤ 200) message
  match cursor with
  | none => return (limit.toNat, none)
  | some token => do
    let value ← orThrow (codec.decode token) (.invalidRequest "cursor is invalid")
    require (value.key ≠ []) (.invalidRequest "cursor is invalid")
    return (limit.toNat, some value)

/-- `_page_cursor`. -/
def pageCursor (codec : Codec) (scope : String) (key : Key) (numeric : Bool) : codec.Token :=
  codec.encode { scope, key, numeric }

/-- A limit in the range and the text of a cursor are read back. -/
theorem pageArgs_encode {codec : Codec} {value : Option Cursor} (hkey : ∀ c ∈ value, c.key ≠ [])
    {limit : Nat} (hlimit : 1 ≤ limit ∧ limit ≤ 200) :
    pageArgs codec (value.map codec.encode) (some limit) = .ok (limit, value) := by
  have hrange : (1 : Int) ≤ limit ∧ (limit : Int) ≤ 200 := by omega
  unfold pageArgs
  dsimp only [orThrow]
  rw [ok_bind, require_of _ hrange, ok_bind]
  cases value with
  | none => rfl
  | some c =>
    have hkey := hkey c rfl
    rw [Option.map_some]
    dsimp only
    rw [codec.decode_encode c hkey, ok_bind, require_of _ hkey]
    rfl

/-! ## Queries -/

/-- A term of `ORDER BY`. -/
structure Column (ρ : Type) where
  value : ρ → KeyPart
  descending : Bool := false

/-- The order of the database on values: numbers come before texts. -/
def KeyPart.le : KeyPart → KeyPart → Bool
  | .number m, .number n => m ≤ n
  | .number _, .text _ => true
  | .text _, .number _ => false
  | .text s, .text t => s ≤ t

/-- The order of the database on rows. -/
def sqlLE {ρ : Type} : List (Column ρ) → ρ → ρ → Bool
  | [], _, _ => true
  | c :: columns, a, b =>
    if c.value a = c.value b then sqlLE columns a b
    else if c.descending then (c.value b).le (c.value a) else (c.value a).le (c.value b)

/-- A collection endpoint on a database: the rows of its query with their order, and the arguments
of `_page_rows`. -/
structure Query (ρ : Type) where
  rows : List ρ
  order : List (Column ρ)
  scope : String
  key : ρ → Key
  skip : Key → Key → Option Bool

namespace Query

variable {ρ : Type} (q : Query ρ)

/-- The rows in the order of the query. -/
def ordered : List ρ := q.rows.insertionSort fun a b => sqlLE q.order a b = true

/-- Whether a row is skipped. -/
def skips (row : ρ) : Option Key → Except Err Bool
  | none => .ok false
  | some after => do
    require ((q.key row).length = after.length) (.invalidRequest "cursor is invalid")
    orThrow (q.skip (q.key row) after) (.invalidRequest "cursor is invalid")

/-- The loop of `_page_rows`: at most `n` rows that are not skipped. -/
def select (after : Option Key) : Nat → List ρ → Except Err (List ρ)
  | _, [] => .ok []
  | 0, _ :: _ => .ok []
  | n + 1, row :: rows => do
    let before ← q.skips row after
    if before then select after (n + 1) rows
    else do
      let others ← select after n rows
      return row :: others

/-- `_page_rows`. -/
def page (codec : Codec) (cursor : Option codec.Token) (limit : Option Int) :
    Except Err (Keyset.Page ρ codec.Token) := do
  let (limit, decoded) ← pageArgs codec cursor limit
  require (∀ value ∈ decoded, value.scope = q.scope)
    (.invalidRequest "cursor does not belong to this collection")
  let selected ← q.select (decoded.map Cursor.key) (limit + 1) q.ordered
  let items := selected.take limit
  return { items
           next := if limit < selected.length then
               items.getLast?.map fun row => pageCursor codec q.scope (q.key row) false
             else none }

/-- The pages of a collection, with a limit for each request. -/
def fetch (codec : Codec) (limits : Nat → Nat) (i : Nat) (cursor : Option codec.Token) :
    Option (Keyset.Page ρ codec.Token) :=
  (q.page codec cursor (some (limits i))).toOption

/-- The rows of all pages of a collection, if there are at most `fuel` of them. -/
def walk (codec : Codec) (limits : Nat → Nat) (fuel : Nat) : Option (List ρ) :=
  Keyset.walk (q.fetch codec limits) fuel 0 none

end Query

/-! ## Orders -/

theorem KeyPart.lt_irrefl (a : KeyPart) : a.lt a = some false := by
  cases a <;> simp only [KeyPart.lt, lt_self_iff_false, decide_false]

variable {a b : KeyPart}

theorem KeyPart.lt_of_ne (hne : a ≠ b) (h : a.lt b = some false) :
    b.lt a = some true := by
  cases a <;> cases b <;>
    simp only [KeyPart.lt, Option.some.injEq, decide_eq_false_iff_not, decide_eq_true_eq, not_lt, ne_eq,
      reduceCtorEq, KeyPart.text.injEq, KeyPart.number.injEq] at h hne ⊢
  all_goals exact lt_of_le_of_ne h fun heq => hne heq.symm

theorem KeyPart.lt_trans {c : KeyPart} (h : a.lt b = some true) (h' : b.lt c = some true) :
    a.lt c = some true := by
  cases a <;> cases b <;> cases c <;>
    simp only [KeyPart.lt, Option.some.injEq, decide_eq_true_eq, reduceCtorEq] at h h' ⊢
  all_goals exact h.trans h'

theorem KeyPart.lt_asymm (h : a.lt b = some true) : b.lt a = some false := by
  cases a <;> cases b <;>
    simp only [KeyPart.lt, Option.some.injEq, decide_eq_true_eq, decide_eq_false_iff_not, not_lt,
      reduceCtorEq] at h ⊢
  · exact h.le
  · exact h.le

theorem keyLE_refl (k : Key) : keyLE k k = some true := by
  induction k with
  | nil => rfl
  | cons a k ih => rw [keyLE, if_pos rfl, ih]

/-- What is beyond a key that is beyond another one is beyond that. -/
theorem keyLE_trans {k l m : Key} (h : keyLE k l = some false) (h' : keyLE l m = some false) :
    keyLE k m = some false := by
  induction k generalizing l m with
  | nil => cases h
  | cons a k ih =>
    cases l with
    | nil => cases h'
    | cons b l =>
      cases m with
      | nil => rfl
      | cons c m =>
        rw [keyLE] at h h' ⊢
        by_cases hab : a = b
        · subst hab
          by_cases hac : a = c
          · subst hac
            rw [if_pos rfl] at h h' ⊢
            exact ih h h'
          · rw [if_neg hac] at h' ⊢
            exact h'
        · rw [if_neg hab] at h
          by_cases hbc : b = c
          · subst hbc
            rw [if_neg hab]
            exact h
          · rw [if_neg hbc] at h'
            have hca := KeyPart.lt_trans (KeyPart.lt_of_ne hbc h') (KeyPart.lt_of_ne hab h)
            have hac : a ≠ c := fun hac => by rw [hac, KeyPart.lt_irrefl] at hca; cases hca
            rw [if_neg hac]
            exact KeyPart.lt_asymm hca

theorem newestFirst_eq_some_false {k l : Key} : newestFirst k l = some false ↔
    ∃ k₀ k₁ k' l₀ l₁ l', k = k₀ :: k₁ :: k' ∧ l = l₀ :: l₁ :: l' ∧
      (k₀.lt l₀ = some true ∨ k₀ = l₀ ∧ keyLE [k₁] [l₁] = some false) := by
  match k, l with
  | [], _ | [_], _ | _ :: _ :: _, [] | _ :: _ :: _, [_] => simp [newestFirst]
  | k₀ :: k₁ :: k, l₀ :: l₁ :: l =>
    have hcons : newestFirst (k₀ :: k₁ :: k) (l₀ :: l₁ :: l) = some false ↔
        (k₀.lt l₀ = some true ∨ k₀ = l₀ ∧ keyLE [k₁] [l₁] = some false) := by
      unfold newestFirst
      by_cases heq : k₀ = l₀
      · subst heq
        simp [KeyPart.lt_irrefl]
      · cases hlt : l₀.lt k₀ with
        | none =>
          have hnone : k₀.lt l₀ ≠ some true := fun h => by
            rw [KeyPart.lt_asymm h] at hlt
            cases hlt
          simp [hlt, hnone, heq]
        | some b =>
          cases b with
          | true => simp [hlt, KeyPart.lt_asymm hlt, heq]
          | false => simp [hlt, KeyPart.lt_of_ne (Ne.symm heq) hlt, heq]
    rw [hcons]
    simp

theorem newestFirst_self (k : Key) : newestFirst k k ≠ some false := by
  rw [Ne, newestFirst_eq_some_false]
  rintro ⟨k₀, k₁, k', l₀, l₁, l', rfl, heq, h⟩
  obtain ⟨rfl, rfl, -⟩ : k₀ = l₀ ∧ k₁ = l₁ ∧ k' = l' := by simpa using heq
  rcases h with h | ⟨-, h⟩
  · rw [KeyPart.lt_irrefl] at h
    cases h
  · rw [keyLE_refl] at h
    cases h

theorem newestFirst_trans {k l m : Key} (h : newestFirst k l = some false)
    (h' : newestFirst l m = some false) : newestFirst k m = some false := by
  rw [newestFirst_eq_some_false] at h h' ⊢
  obtain ⟨k₀, k₁, k', l₀, l₁, l', rfl, rfl, h⟩ := h
  obtain ⟨l₀', l₁', _, m₀, m₁, m', heq, rfl, h'⟩ := h'
  obtain ⟨rfl, rfl, -⟩ : l₀ = l₀' ∧ l₁ = l₁' ∧ _ := by simpa using heq
  refine ⟨k₀, k₁, k', m₀, m₁, m', rfl, rfl, ?_⟩
  rcases h with h | ⟨rfl, h⟩
  · rcases h' with h' | ⟨rfl, -⟩
    · exact .inl (KeyPart.lt_trans h h')
    · exact .inl h
  · exact h'.imp_right fun ⟨heq, h'⟩ => ⟨heq, keyLE_trans h h'⟩

/-! ## The order of the database -/

theorem KeyPart.le_total (a b : KeyPart) : a.le b = true ∨ b.le a = true := by
  cases a <;> cases b <;> simp only [KeyPart.le, decide_eq_true_eq, or_true, true_or]
  · exact Std.Total.total (r := (· ≤ ·)) _ _
  · exact Int.le_total _ _

theorem KeyPart.le_trans {c : KeyPart} (h : a.le b = true) (h' : b.le c = true) :
    a.le c = true := by
  cases a <;> cases b <;> cases c <;>
    simp only [KeyPart.le, decide_eq_true_eq, reduceCtorEq] at h h' ⊢
  all_goals exact h.trans h'

theorem KeyPart.le_antisymm (h : a.le b = true) (h' : b.le a = true) : a = b := by
  cases a <;> cases b <;> simp only [KeyPart.le, decide_eq_true_eq, reduceCtorEq] at h h'
  all_goals rw [h.antisymm h']

/-- On members of one kind both orders are the same. -/
theorem KeyPart.lt_eq_le (hne : a ≠ b) (h : (a.lt b).isSome = true) :
    a.lt b = some (a.le b) := by
  cases a <;> cases b <;> simp only [KeyPart.lt, Option.isSome, reduceCtorEq] at h
  all_goals
    simp only [KeyPart.lt, KeyPart.le, Option.some.injEq, decide_eq_decide]
    exact ⟨le_of_lt, fun hle => lt_of_le_of_ne hle fun heq => hne (by rw [heq])⟩

section Columns

variable {ρ : Type}

variable {columns : List (Column ρ)}

/-- One column of two rows with different values. -/
theorem sqlLE_cons_of_ne {c : Column ρ} {a b : ρ} (hne : c.value a ≠ c.value b) :
    sqlLE (c :: columns) a b =
      if c.descending then (c.value b).le (c.value a) else (c.value a).le (c.value b) := by
  rw [sqlLE, if_neg hne]

theorem sqlLE_total (columns : List (Column ρ)) (a b : ρ) :
    sqlLE columns a b = true ∨ sqlLE columns b a = true := by
  induction columns with
  | nil => exact .inl rfl
  | cons c columns ih =>
    by_cases heq : c.value a = c.value b
    · rw [sqlLE, sqlLE, if_pos heq, if_pos heq.symm]
      exact ih
    · rw [sqlLE_cons_of_ne heq, sqlLE_cons_of_ne (Ne.symm heq)]
      cases c.descending <;> exact KeyPart.le_total _ _

theorem sqlLE_trans {a b d : ρ} (h : sqlLE columns a b = true) (h' : sqlLE columns b d = true) :
    sqlLE columns a d = true := by
  induction columns with
  | nil => rfl
  | cons c columns ih =>
    by_cases hab : c.value a = c.value b
    · rw [sqlLE, if_pos hab] at h
      by_cases hbd : c.value b = c.value d
      · rw [sqlLE, if_pos hbd] at h'
        rw [sqlLE, if_pos (hab.trans hbd)]
        exact ih h h'
      · rw [sqlLE_cons_of_ne hbd] at h'
        rw [sqlLE_cons_of_ne (hab ▸ hbd), hab]
        exact h'
    · rw [sqlLE_cons_of_ne hab] at h
      by_cases hbd : c.value b = c.value d
      · rw [sqlLE_cons_of_ne (hbd ▸ hab), ← hbd]
        exact h
      · rw [sqlLE_cons_of_ne hbd] at h'
        have had : c.value a ≠ c.value d := by
          intro had
          refine hab ?_
          cases hdesc : c.descending with
          | false =>
            rw [hdesc] at h h'
            exact KeyPart.le_antisymm h (had ▸ h')
          | true =>
            rw [hdesc] at h h'
            exact KeyPart.le_antisymm (had ▸ h') h
        rw [sqlLE_cons_of_ne had]
        cases hdesc : c.descending with
        | false =>
          rw [hdesc] at h h'
          exact KeyPart.le_trans h h'
        | true =>
          rw [hdesc] at h h'
          exact KeyPart.le_trans h' h

/-- Rows that are in order both ways have the same values. -/
theorem sqlLE_antisymm {a b : ρ} (h : sqlLE columns a b = true) (h' : sqlLE columns b a = true) :
    columns.map (·.value a) = columns.map (·.value b) := by
  induction columns with
  | nil => rfl
  | cons c columns ih =>
    by_cases heq : c.value a = c.value b
    · rw [sqlLE, if_pos heq] at h
      rw [sqlLE, if_pos heq.symm] at h'
      rw [List.map_cons, List.map_cons, heq, ih h h']
    · rw [sqlLE_cons_of_ne heq] at h
      rw [sqlLE_cons_of_ne (Ne.symm heq)] at h'
      refine absurd ?_ heq
      cases hdesc : c.descending with
      | false =>
        rw [hdesc] at h h'
        exact KeyPart.le_antisymm h h'
      | true =>
        rw [hdesc] at h h'
        exact KeyPart.le_antisymm h' h

/-- The values of the column are of one kind. -/
def Column.Typed (c : Column ρ) : Prop := ∀ a b, ((c.value a).lt (c.value b)).isSome = true

/-- The order of ascending columns is the order of the keys that list their values. -/
theorem keyLE_columns (htyped : ∀ c ∈ columns, c.Typed)
    (hascending : ∀ c ∈ columns, c.descending = false) (a b : ρ) :
    keyLE (columns.map (·.value a)) (columns.map (·.value b)) = some (sqlLE columns a b) := by
  induction columns with
  | nil => rfl
  | cons c columns ih =>
    rw [List.map_cons, List.map_cons, keyLE, sqlLE]
    by_cases heq : c.value a = c.value b
    · rw [if_pos heq, if_pos heq]
      exact ih (fun c hc => htyped c (.tail _ hc)) fun c hc => hascending c (.tail _ hc)
    · rw [if_neg heq, if_neg heq, hascending c List.mem_cons_self]
      exact KeyPart.lt_eq_le heq (htyped c List.mem_cons_self a b)

/-- The order of descending columns is the opposite order of the keys. -/
theorem keyGE_columns (htyped : ∀ c ∈ columns, c.Typed)
    (hdescending : ∀ c ∈ columns, c.descending = true) (a b : ρ) :
    keyGE (columns.map (·.value a)) (columns.map (·.value b)) = some (sqlLE columns a b) := by
  unfold keyGE
  induction columns with
  | nil => rfl
  | cons c columns ih =>
    rw [List.map_cons, List.map_cons, keyLE, sqlLE]
    by_cases heq : c.value a = c.value b
    · rw [if_pos heq, if_pos heq.symm]
      exact ih (fun c hc => htyped c (.tail _ hc)) fun c hc => hdescending c (.tail _ hc)
    · rw [if_neg heq, if_neg (Ne.symm heq), hdescending c List.mem_cons_self]
      exact KeyPart.lt_eq_le (Ne.symm heq) (htyped c List.mem_cons_self b a)

end Columns

end WorkspaceRuntime.Paging
