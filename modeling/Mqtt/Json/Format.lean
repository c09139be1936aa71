import Mqtt.Json.Reader

/-!
# Types with a JSON form

`Format α` reads and writes the values of a type. The fields of a structure stand in an object or,
in order, in an array (`fields?`); members that name no field are left alone, a field that is named
twice is refused, and the array may end early. A field that is missing takes its default if it has
one.
-/

namespace Mqtt.Json

/-- A JSON form of the values of a type. -/
class Format (α : Type) where
  read? : Value → Option α
  write : α → Value

/-- Read a text and write its value again. -/
def normalize? (α : Type) [Format α] (s : String) : Option String :=
  (Json.read? s >>= (Format.read? : Value → Option α)).map fun a => (Format.write a).render

variable {α β : Type}

/-! ## Simple values -/

instance : Format Bool where
  read?
    | .bool b => some b
    | _ => none
  write := .bool

instance : Format String where
  read?
    | .text s => s
    | _ => none
  write s := .text (some s)

/-- Read a natural number below a limit. -/
def natural? (limit : Nat) : Value → Option Nat
  | .natural n => if n < limit then some n else none
  | _ => none

/-- Sizes are numbers of 64 bits. -/
instance : Format Nat where
  read? := natural? 18446744073709551616
  write := .natural

instance : Format UInt8 where
  read? v := (natural? 256 v).map .ofNat
  write n := .natural n.toNat

instance : Format UInt16 where
  read? v := (natural? 65536 v).map .ofNat
  write n := .natural n.toNat

instance : Format UInt32 where
  read? v := (natural? 4294967296 v).map .ofNat
  write n := .natural n.toNat

instance [Format α] : Format (Option α) where
  read?
    | .null => some none
    | v => some <$> Format.read? v
  write
    | none => .null
    | some a => Format.write a

instance [Format α] : Format (List α) where
  read?
    | .array items => items.mapM Format.read?
    | _ => none
  write l := .array (l.map Format.write)

instance [Format α] [Format β] : Format (α × β) where
  read?
    | .array [a, b] => return (← Format.read? a, ← Format.read? b)
    | _ => none
  write p := .array [Format.write p.1, Format.write p.2]

/-- Read one of several names, alone or as the only key of an object without a value. -/
def named? (all : List α) (name : α → String) : Value → Option α
  | .text (some s) | .object [(some s, .null)] => all.find? (name · == s)
  | _ => none

/-! ## Structures -/

/-- The fields of a structure by their names, each with its value if it is there. -/
def fields? (names : List String) : Value → Option (List (Option Value))
  | .object members => do
    let members ← members.mapM fun m => return (← m.1, m.2)
    names.mapM fun name =>
      match members.filter (·.1 == name) with
      | [] => some none
      | [m] => some (some m.2)
      | _ => none
  | .array items =>
    if items.length ≤ names.length then
      some (items.map some ++ List.replicate (names.length - items.length) none)
    else none
  | _ => none

/-- Read a field that has a default. -/
def fieldOr [Format α] (default : α) : Option Value → Option α
  | none => some default
  | some v => Format.read? v

/-- Read a field that has to be there. -/
def field [Format α] (v : Option Value) : Option α := v >>= Format.read?

/-- Write the fields of a structure. -/
def object (members : List (String × Value)) : Value :=
  .object (members.map fun m => (some m.1, m.2))

end Mqtt.Json
