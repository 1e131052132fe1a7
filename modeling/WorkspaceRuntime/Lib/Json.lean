import Mathlib.Data.String.Basic

/-!
# JSON values

A JSON object is the list of its fields in increasing key order, the order in which a canonical
encoder writes them; `Fields.set` and `Fields.erase` keep that order. Decoding the canonical text of
a value therefore gives the value back, and two objects are equal as objects exactly when they are
equal here. A number that is not an integer is kept as its text.
-/

/-- A JSON value. -/
inductive Json where
  | null
  | bool (b : Bool)
  | int (n : Int)
  | float (text : String)
  | str (s : String)
  | arr (items : List Json)
  | obj (fields : List (String × Json))
  deriving Inhabited, Repr

namespace Json

/-! ## Equality -/

mutual

/-- Structural equality test. -/
def beq : Json → Json → Bool
  | .null, .null => true
  | .bool a, .bool b => a == b
  | .int a, .int b => a == b
  | .float a, .float b => a == b
  | .str a, .str b => a == b
  | .arr as, .arr bs => beqItems as bs
  | .obj as, .obj bs => beqFields as bs
  | _, _ => false

/-- `beq` on arrays. -/
def beqItems : List Json → List Json → Bool
  | [], [] => true
  | a :: as, b :: bs => beq a b && beqItems as bs
  | _, _ => false

/-- `beq` on the fields of objects. -/
def beqFields : List (String × Json) → List (String × Json) → Bool
  | [], [] => true
  | (k, a) :: as, (l, b) :: bs => k == l && beq a b && beqFields as bs
  | _, _ => false

end

mutual

theorem beq_iff : ∀ a b : Json, beq a b = true ↔ a = b
  | .null, b | .bool _, b | .int _, b | .float _, b | .str _, b => by cases b <;> simp [beq]
  | .arr as, b => by cases b <;> simp [beq, beqItems_iff as]
  | .obj as, b => by cases b <;> simp [beq, beqFields_iff as]

theorem beqItems_iff : ∀ as bs : List Json, beqItems as bs = true ↔ as = bs
  | [], bs => by cases bs <;> simp [beqItems]
  | a :: as, bs => by cases bs <;> simp [beqItems, beq_iff a, beqItems_iff as]

theorem beqFields_iff : ∀ as bs : List (String × Json), beqFields as bs = true ↔ as = bs
  | [], bs => by cases bs <;> simp [beqFields]
  | (k, a) :: as, bs => by
    rcases bs with _ | ⟨⟨l, b⟩, bs⟩ <;> simp [beqFields, beq_iff a, beqFields_iff as]

end

instance : DecidableEq Json := fun a b => decidable_of_iff (beq a b = true) (beq_iff a b)

/-! ## Fields of an object -/

/-- The fields of an object. -/
abbrev Fields := List (String × Json)

variable {k : String}

namespace Fields

/-- The value of a field. -/
def get (fs : Fields) (k : String) : Option Json :=
  (fs.find? (fun f => f.1 = k)).map Prod.snd

/-- The names of the fields. -/
def keys (fs : Fields) : List String := fs.map Prod.fst

/-- Set a field, in key order. -/
def set : Fields → String → Json → Fields
  | [], k, v => [(k, v)]
  | (l, w) :: fs, k, v =>
    if l < k then (l, w) :: set fs k v
    else if l = k then (k, v) :: fs
    else (k, v) :: (l, w) :: fs

/-- Remove a field. -/
def erase (fs : Fields) (k : String) : Fields := fs.filter fun f => f.1 ≠ k

@[simp] theorem get_nil (k : String) : get [] k = none := rfl

theorem get_cons (f : String × Json) (fs : Fields) (k : String) :
    get (f :: fs) k = if f.1 = k then some f.2 else get fs k := by
  unfold get
  rw [List.find?_cons]
  by_cases h : f.1 = k <;> simp [h]

@[simp] theorem get_set_self (fs : Fields) (k : String) (v : Json) : (fs.set k v).get k = some v := by
  induction fs with
  | nil => simp [set, get_cons]
  | cons f fs ih =>
    obtain ⟨l, w⟩ := f
    unfold set
    split
    next hlt => simp [get_cons, ih, hlt.ne]
    next => split <;> simp [get_cons]

variable {k' : String}

theorem get_set_of_ne (fs : Fields) (v : Json) (h : k' ≠ k) :
    (fs.set k v).get k' = fs.get k' := by
  induction fs with
  | nil => simp [set, get_cons, h.symm]
  | cons f fs ih =>
    obtain ⟨l, w⟩ := f
    unfold set
    split
    next => simp [get_cons, ih]
    next =>
      split
      next hl => subst hl; simp [get_cons, h.symm]
      next => simp [get_cons, h.symm]

/-- Setting a field twice to the same value is setting it once. -/
@[simp] theorem set_set (fs : Fields) (k : String) (v : Json) :
    (fs.set k v).set k v = fs.set k v := by
  induction fs with
  | nil => simp [set]
  | cons f fs ih =>
    obtain ⟨l, w⟩ := f
    rw [set]
    split
    next hlt => rw [set, if_pos hlt, ih]
    next => split <;> simp [set]

@[simp] theorem get_erase_self (fs : Fields) (k : String) : (fs.erase k).get k = none := by
  simp [get, erase, List.find?_filter]

theorem get_erase_of_ne (fs : Fields) (h : k' ≠ k) :
    (fs.erase k).get k' = fs.get k' := by
  induction fs with
  | nil => rfl
  | cons f fs ih =>
    rw [erase, List.filter_cons]
    split
    next => rw [get_cons, get_cons]; split <;> [rfl; exact ih]
    next hf =>
      have hk : f.1 = k := by simpa using hf
      rw [get_cons, if_neg (by rw [hk]; exact h.symm)]
      exact ih

/-- Erasing the same field keeps an agreement. -/
theorem get_erase_congr {fs fs' : Fields} (h : fs.get k = fs'.get k) (k' : String) :
    (fs.erase k').get k = (fs'.erase k').get k := by
  by_cases hk : k = k'
  · rw [hk, get_erase_self, get_erase_self]
  · rw [get_erase_of_ne _ hk, get_erase_of_ne _ hk, h]

/-- Erasing another field does not make room for a second copy of a field that was set. -/
theorem set_erase_set (fs : Fields) (v : Json) (h : k ≠ k') :
    ((fs.set k v).erase k').set k v = (fs.set k v).erase k' := by
  induction fs with
  | nil => simp [set, erase, h]
  | cons f fs ih =>
    obtain ⟨l, w⟩ := f
    simp only [erase] at ih ⊢
    rw [set]
    split
    next hlt =>
      rw [List.filter_cons]
      split
      · rw [set, if_pos hlt, ih]
      · exact ih
    next => split <;> simp [List.filter_cons, h, set]

@[simp] theorem erase_set_self (fs : Fields) (k : String) (v : Json) :
    (fs.set k v).erase k = fs.erase k := by
  induction fs with
  | nil => simp [set, erase]
  | cons f fs ih =>
    obtain ⟨l, w⟩ := f
    simp only [erase] at ih ⊢
    rw [set]
    split
    next => rw [List.filter_cons, List.filter_cons, ih]
    next => split <;> simp_all

/-! ## Optional fields and layers -/

/-- Set a field when there is a value for it. -/
def put (fs : Fields) (k : String) : Option Json → Fields
  | some v => fs.set k v
  | none => fs

theorem get_put_of_ne (fs : Fields) (v : Option Json) (h : k' ≠ k) :
    (fs.put k v).get k' = fs.get k' := by
  cases v with
  | none => rfl
  | some v => exact get_set_of_ne fs v h

/-- The fields that there are values for. -/
def compact (entries : List (String × Option Json)) : Fields :=
  entries.filterMap fun e => e.2.map fun v => (e.1, v)

@[simp] theorem compact_nil : compact [] = [] := rfl

@[simp] theorem get_compact_cons (l : String) (o : Option Json) (es : List (String × Option Json))
    (k : String) : (compact ((l, o) :: es)).get k =
      if l = k then o.orElse (fun _ => (compact es).get k) else (compact es).get k := by
  cases o with
  | none => simp [compact]
  | some v => simp [compact, get_cons]

/-- The fields of both objects; the second one wins. -/
def overlay (base top : Fields) : Fields := top.foldr (fun e fs => fs.set e.1 e.2) base

theorem get_overlay (base top : Fields) (k : String) :
    (overlay base top).get k = (top.get k).orElse fun _ => base.get k := by
  induction top with
  | nil => rfl
  | cons e top ih =>
    obtain ⟨l, v⟩ := e
    change ((overlay base top).set l v).get k = _
    by_cases h : l = k
    · subst h
      simp [get_cons]
    · rw [get_set_of_ne _ _ (Ne.symm h), ih, get_cons, if_neg h]

end Fields

/-! ## Values -/

/-- The fields of a value, when it is an object. -/
def asObj : Json → Option Fields
  | .obj fs => some fs
  | _ => none

/-- The items of a value, when it is an array. -/
def asArr : Json → Option (List Json)
  | .arr xs => some xs
  | _ => none

/-- The text of a value, when it is a string. -/
def asStr : Json → Option String
  | .str s => some s
  | _ => none

/-- A field of a value; `none` also when the value is not an object. -/
def get? (v : Json) (k : String) : Option Json := v.asObj.bind (·.get k)

variable {v : Json}

theorem asObj_eq_some {fields : Fields} : v.asObj = some fields ↔ v = .obj fields := by
  cases v <;> simp [asObj]

theorem asStr_eq_some {text : String} : v.asStr = some text ↔ v = .str text := by
  cases v <;> simp [asStr]

theorem get?_eq_some {w : Json} :
    v.get? k = some w ↔ ∃ fields : Fields, v = .obj fields ∧ fields.get k = some w := by
  simp [get?, Option.bind_eq_some_iff, asObj_eq_some]

/-- Python's truth value. -/
def truthy : Json → Bool
  | .null => false
  | .bool b => b
  | .int n => n ≠ 0
  | .float t => t ≠ "0.0" ∧ t ≠ "-0.0"
  | .str s => s ≠ ""
  | .arr xs => !xs.isEmpty
  | .obj fs => !fs.isEmpty

@[simp] theorem get?_obj (fs : Fields) (k : String) : (Json.obj fs).get? k = fs.get k := rfl

end Json
