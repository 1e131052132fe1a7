import WorkspaceRuntime.Lib.Json

/-!
# Conversions of JSON values

What a dynamically typed program does with a JSON value that is not of the type it has in mind: it
converts it to an integer or a text, binds it to a column of the database, compares it, or puts it in
a set. The conversions of a text, and of a number that is not an integer, belong to the interpreter
and to the database; `Numerals` holds their answers, and nothing is assumed of them.
-/

namespace Json

/-- The conversions that belong to the interpreter and to the database. -/
structure Numerals where
  /-- The integer that a text denotes. -/
  intOfText : String → Option Int := fun _ => none
  /-- A float without its fraction; there is none for an infinity. -/
  truncate : String → Option Int := fun _ => none
  /-- The integer that a float is equal to. -/
  integral : String → Option Int := fun _ => none
  /-- The text that a column of texts keeps of a float; there is none for a NaN. -/
  columnText : String → Option String := fun text => some text
  /-- What a column of integers keeps of a text: the text, or the number it spells. -/
  columnNumber : String → Json := .str
  /-- What a column of reals keeps of a number. -/
  columnReal : Json → Json := id
  /-- Whether a number is finite as a float. -/
  finite : Json → Bool := fun _ => true
  /-- Whether a float is greater than zero. -/
  positive : String → Bool := fun _ => true
  /-- The display text of a value that is not a text. -/
  display : Json → String := fun _ => ""

variable (num : Numerals)

/-- The value as an integer. -/
def toInt : Json → Option Int
  | .bool b => some (if b then 1 else 0)
  | .int n => some n
  | .float text => num.truncate text
  | .str text => num.intOfText text
  | .null | .arr _ | .obj _ => none

/-- The value as a text. -/
def toText : Json → String
  | .str text => text
  | v => num.display v

/-- An integer fits a column. -/
def FitsColumn (n : Int) : Prop := -9223372036854775808 ≤ n ∧ n ≤ 9223372036854775807

instance (n : Int) : Decidable (FitsColumn n) := inferInstanceAs (Decidable (_ ∧ _))

/-- What a column of texts keeps of a value; `none` when the value cannot be bound, and `some none`
when the column is set to null. -/
def bindText : Json → Option (Option String)
  | .null => some none
  | .bool b => some (some (if b then "1" else "0"))
  | .int n => if FitsColumn n then some (some (toString n)) else none
  | .float text => some (num.columnText text)
  | .str text => some (some text)
  | .arr _ | .obj _ => none

/-- What a column of integers keeps of a value; `none` when the value cannot be bound. -/
def bindInteger : Json → Option Json
  | .null => some .null
  | .bool b => some (.int (if b then 1 else 0))
  | .int n => if FitsColumn n then some (.int n) else none
  | .float text => some (match num.columnText text with
    | none => .null
    | some _ => (num.integral text).elim (.float text) .int)
  | .str text => some (num.columnNumber text)
  | .arr _ | .obj _ => none

/-- A value as a member of a set; arrays and objects cannot be members. -/
def member : Json → Option Json
  | .bool b => some (.int (if b then 1 else 0))
  | .float text => some ((num.integral text).elim (.float text) .int)
  | .arr _ | .obj _ => none
  | v => some v

/-! ## Comparison

A comparison does not tell a truth value, or a float without a fraction, from the integer it is equal
to. -/

mutual

/-- A value with each truth value and each float without a fraction written as an integer. -/
def numbers : Json → Json
  | .bool b => .int (if b then 1 else 0)
  | .float text => (num.integral text).elim (.float text) .int
  | .arr items => .arr (numbersItems items)
  | .obj fields => .obj (numbersFields fields)
  | .null => .null
  | .int n => .int n
  | .str text => .str text

/-- `numbers` on arrays. -/
def numbersItems : List Json → List Json
  | [] => []
  | v :: items => numbers v :: numbersItems items

/-- `numbers` on the fields of objects. -/
def numbersFields : List (String × Json) → List (String × Json)
  | [] => []
  | (k, v) :: fields => (k, numbers v) :: numbersFields fields

end

/-- The values compare equal. -/
def Equals (v w : Json) : Prop := v.numbers num = w.numbers num

instance (v w : Json) : Decidable (Equals num v w) := inferInstanceAs (Decidable (_ = _))

@[simp] theorem equals_refl (v : Json) : Equals num v v := rfl

mutual

/-- Every number in the value has a JSON text. -/
def hasText : Json → Bool
  | .float text => num.finite (.float text)
  | .arr items => hasTextItems items
  | .obj fields => hasTextFields fields
  | .null | .bool _ | .int _ | .str _ => true

/-- `hasText` on arrays. -/
def hasTextItems : List Json → Bool
  | [] => true
  | v :: items => hasText v && hasTextItems items

/-- `hasText` on the fields of objects. -/
def hasTextFields : List (String × Json) → Bool
  | [] => true
  | (_, v) :: fields => hasText v && hasTextFields fields

end

end Json
