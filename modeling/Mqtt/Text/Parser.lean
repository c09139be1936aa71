/-!
# Reading text

A parser takes characters from the front of a text and yields a value, or refuses the text. A choice
`a <|> b` tries `b` where `a` started, so a parser that is refused has taken nothing, and
`optional a` reads what `a` reads or nothing.
-/

namespace Mqtt

/-- A reader of values from text. -/
abbrev Parser := StateT (List Char) Option

namespace Parser

variable {α : Type}

/-- Read the next character. -/
def next : Parser Char := fun cs =>
  match cs with
  | [] => none
  | c :: cs => some (c, cs)

/-- Look at the next character. -/
def peek? : Parser (Option Char) := return (← get).head?

/-- Read a character, if it comes next. -/
def accept (c : Char) : Parser Bool := fun cs =>
  match cs with
  | [] => some (false, [])
  | d :: rest => some (if d = c then (true, rest) else (false, d :: rest))

/-- Read a character that has to come next. -/
def expect (c : Char) : Parser Unit := do
  if !(← accept c) then failure

/-- Read given characters. -/
def word (s : String) : Parser Unit := s.toList.forM expect

/-- Read characters as long as they satisfy a predicate. -/
def takeWhile (p : Char → Bool) : Parser (List Char) := fun cs =>
  some (cs.takeWhile p, cs.dropWhile p)

/-- Read a value that is all of a text. -/
def all? (x : Parser α) (s : String) : Option α :=
  match x s.toList with
  | some (a, []) => some a
  | _ => none

end Parser

namespace Digits

/-- The value of a hexadecimal digit, in either case. -/
def value? (c : Char) : Option Nat :=
  if '0' ≤ c ∧ c ≤ '9' then some (c.toNat - '0'.toNat)
  else if 'a' ≤ c ∧ c ≤ 'f' then some (c.toNat - 'a'.toNat + 10)
  else if 'A' ≤ c ∧ c ≤ 'F' then some (c.toNat - 'A'.toNat + 10)
  else none

/-- Whether a character is a digit to a base of at most sixteen. -/
def isDigit (base : Nat) (c : Char) : Bool :=
  match value? c with
  | some d => d < base
  | none => false

/-- The number that digits to a base stand for. -/
def toNat (base : Nat) (cs : List Char) : Nat :=
  cs.foldl (fun n c => n * base + (value? c).getD 0) 0

/-- The digits of a number to a base. -/
def ofNat (base n : Nat) : String := String.ofList (Nat.toDigits base n)

/-- The digits of a number, with zeros before them up to a width. -/
def padded (width base n : Nat) : String :=
  let cs := Nat.toDigits base n
  String.ofList (List.replicate (width - cs.length) '0' ++ cs)

end Digits

end Mqtt
