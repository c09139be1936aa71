import Mqtt.Duration
import Mqtt.Text.Parser
import Mqtt.Text.Printable

/-!
# Descriptions

How values are shown to people: records with their fields by name, lists and pairs in brackets, text
in quotes, durations in the largest unit that they reach.
-/

namespace Mqtt.Description

/-- A character inside quotes. -/
def escaped (c : Char) : String :=
  match c with
  | '\x00' => "\\0"
  | '\t' => "\\t"
  | '\r' => "\\r"
  | '\n' => "\\n"
  | '\\' => "\\\\"
  | '"' => "\\\""
  | c =>
    if Printable.isPrintable c then c.toString
    else "\\u\x7b" ++ Digits.ofNat 16 c.toNat ++ "\x7d"

/-- A text in quotes. -/
def text (s : String) : String := "\"" ++ String.join (s.toList.map escaped) ++ "\""

/-- Items with commas between them. -/
def items (l : List String) : String := ", ".intercalate l

/-- A list. -/
def list (l : List String) : String := "[" ++ items l ++ "]"

/-- A group of items. -/
def tuple (l : List String) : String := "(" ++ items l ++ ")"

/-- A value that may be absent. -/
def option : Option String → String
  | none => "None"
  | some s => "Some" ++ tuple [s]

/-- A record with its fields. -/
def record (name : String) (fields : List (String × String)) : String :=
  name ++ " \x7b " ++ items (fields.map fun f => f.1 ++ ": " ++ f.2) ++ " \x7d"

/-- A number with a fraction of so many places, without idle zeros at its end. -/
def decimal (whole fraction places : Nat) : String :=
  let digits := (Digits.padded places 10 fraction).toList
  let digits := (digits.reverse.dropWhile (· = '0')).reverse
  if digits.isEmpty then toString whole else s!"{whole}." ++ String.ofList digits

/-- A duration. -/
def duration (d : Duration) : String :=
  let n := d.nanos
  if 1000000000 ≤ n then decimal d.secs d.subsecNanos 9 ++ "s"
  else if 1000000 ≤ n then decimal (n / 1000000) (n % 1000000) 6 ++ "ms"
  else if 1000 ≤ n then decimal (n / 1000) (n % 1000) 3 ++ "µs"
  else toString n ++ "ns"

end Mqtt.Description
