import Mqtt.Json.Value

/-!
# Reading JSON

`Json.read?` yields the value that a whole text stands for, if it is well formed: one value with
blanks around it, no control characters inside quotes, numbers without idle zeros and no comma
before a closing bracket.
-/

namespace Mqtt.Json

open Mqtt.Parser

/-! ## Text -/

/-- A part of a text: a character, or half of a surrogate pair. -/
inductive Unit16
  | char (c : Char)
  | half (n : Nat)
  deriving DecidableEq

/-- What four hexadecimal digits stand for. -/
def unit? (ds : List Char) : Option Unit16 :=
  if ds.all (Digits.isDigit 16) then
    let n := Digits.toNat 16 ds
    some (if 0xD800 ≤ n ∧ n < 0xE000 then .half n else .char (Char.ofNat n))
  else none

/-- The character that an escape other than `u` stands for. -/
def escape? : Char → Option Char
  | '"' => some '"'
  | '\\' => some '\\'
  | '/' => some '/'
  | 'b' => some (Char.ofNat 8)
  | 'f' => some (Char.ofNat 12)
  | 'n' => some '\n'
  | 'r' => some '\r'
  | 't' => some '\t'
  | _ => none

/-- Read what stands before a closing quote, and the quote. -/
def units : List Char → Option (List Unit16 × List Char)
  | [] => none
  | '"' :: rest => some ([], rest)
  | '\\' :: 'u' :: a :: b :: c :: d :: rest => do
    let u ← unit? [a, b, c, d]
    let (us, rest) ← units rest
    return (u :: us, rest)
  | '\\' :: c :: rest => do
    let c ← escape? c
    let (us, rest) ← units rest
    return (.char c :: us, rest)
  | c :: rest => do
    if c.toNat < 32 then none
    let (us, rest) ← units rest
    return (.char c :: us, rest)

/-- Put surrogate pairs together. A half that is left over has no character. -/
def join? : List Unit16 → Option (List Char)
  | [] => some []
  | .char c :: us => do return c :: (← join? us)
  | .half m :: .half n :: us =>
    if m < 0xDC00 ∧ 0xDC00 ≤ n then
      do return Char.ofNat (0x10000 + (m - 0xD800) * 0x400 + (n - 0xDC00)) :: (← join? us)
    else none
  | .half _ :: _ => none

/-- Read a text after its opening quote. -/
def text : Parser (Option String) := do
  return (join? (← units)).map String.ofList

/-! ## Values -/

/-- Skip blanks. -/
def skipBlanks : Parser Unit := do
  let _ ← takeWhile fun c => c = ' ' || c = '\n' || c = '\r' || c = '\t'

/-- Read one digit or more. -/
def digits : Parser (List Char) := do
  let ds ← takeWhile (Digits.isDigit 10)
  if ds.isEmpty then failure
  return ds

/-- Read a number. -/
def number : Parser Value := do
  let negative ← accept '-'
  let ds ← digits
  if ds.head? = some '0' && 1 < ds.length then failure
  let fraction ← accept '.'
  if fraction then let _ ← digits
  let exponent ← accept 'e' <||> accept 'E'
  if exponent then
    if !(← accept '+') then let _ ← accept '-'
    let _ ← digits
  return if negative || fraction || exponent then .number else .natural (Digits.toNat 10 ds)

/-- Read at most `fuel` things with commas between them, up to a closing bracket. -/
def listedUpTo {α : Type} (item : Parser α) (close : Char) : Nat → Parser (List α)
  | 0 => failure
  | fuel + 1 => do
    let a ← item
    skipBlanks
    if ← accept close then return [a]
    expect ','
    return a :: (← listedUpTo item close fuel)

/-- Read what stands between brackets, after the opening one. A thing takes a character or more. -/
def listed {α : Type} (item : Parser α) (close : Char) : Parser (List α) := do
  skipBlanks
  if ← accept close then return []
  listedUpTo item close (← get).length

/-- Read a member of an object. -/
def member (value : Parser Value) : Parser (Option String × Value) := do
  skipBlanks
  expect '"'
  let key ← text
  skipBlanks
  expect ':'
  return (key, ← value)

/-- Read a value with brackets at most `depth` deep. -/
def valueUpTo : Nat → Parser Value
  | 0 => failure
  | depth + 1 => do
    skipBlanks
    match ← peek? with
    | some '"' => expect '"' *> Value.text <$> text
    | some '[' => expect '[' *> Value.array <$> listed (valueUpTo depth) ']'
    | some '\x7b' => expect '\x7b' *> Value.object <$> listed (member (valueUpTo depth)) '\x7d'
    | some 'n' => word "null" *> pure .null
    | some 't' => word "true" *> pure (.bool true)
    | some 'f' => word "false" *> pure (.bool false)
    | _ => number

/-- The value that a text stands for. A text cannot have more brackets than characters. -/
def read? (s : String) : Option Value :=
  all? (valueUpTo (s.length + 1) <* skipBlanks) s

end Mqtt.Json
