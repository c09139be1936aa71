import Mqtt.Text.Parser

/-!
# JSON values

The values that a JSON text stands for, as far as options need them: objects keep the order and the
repetitions of their members, and of numbers only the natural ones are told apart. Text in which an
escape stands for half of a surrogate pair is well formed but has no value; `Value.text none` is
such a text.
-/

namespace Mqtt.Json

/-- A JSON value. -/
inductive Value
  | null
  | bool (b : Bool)
  /-- A number without sign, fraction and exponent. -/
  | natural (n : Nat)
  /-- A number of another form. -/
  | number
  | text (s : Option String)
  | array (items : List Value)
  | object (members : List (Option String × Value))
  deriving Inhabited

/-! ## Writing -/

/-- A character inside quotes. -/
def escaped (c : Char) : String :=
  if c = '"' then "\\\""
  else if c = '\\' then "\\\\"
  else if c.toNat < 32 then "\\u" ++ Digits.padded 4 16 c.toNat
  else c.toString

/-- A text in quotes. -/
def quoted (s : String) : String := "\"" ++ String.join (s.toList.map escaped) ++ "\""

/-- Things between brackets. -/
def bracketed (left right : String) (items : List String) : String :=
  left ++ ",".intercalate items ++ right

/-- The text of a value, without blanks. -/
def Value.render : Value → String
  | .null | .number | .text none => "null"
  | .bool b => if b then "true" else "false"
  | .natural n => toString n
  | .text (some s) => quoted s
  | .array items => bracketed "[" "]" (items.map fun v => v.render)
  | .object members =>
    bracketed "\x7b" "\x7d" (members.map fun m => quoted (m.1.getD "") ++ ":" ++ m.2.render)
decreasing_by
  · have := List.sizeOf_lt_of_mem ‹_›
    simp only [array.sizeOf_spec]
    omega
  · have := List.sizeOf_lt_of_mem ‹_›
    have : sizeOf m.2 < sizeOf m := by
      obtain ⟨k, v⟩ := m
      simp only [Prod.mk.sizeOf_spec]
      omega
    simp only [object.sizeOf_spec]
    omega

end Mqtt.Json
