import Mqtt.Wire.VarInt

/-!
# Length-prefixed fields

Binary data and text travel behind a 16-bit length. Text is UTF-8.
-/

namespace Mqtt

namespace Field

/-- The greatest length of a field. -/
def maxLength : Nat := 65535

/-- The octets of a field behind their length. -/
def prefixed (b : Bytes) : Bytes := Bytes.ofWord (UInt16.ofNat b.length) ++ b

/-- Write binary data. -/
def encodeBinary (b : Bytes) : Output :=
  if b.length ≤ maxLength then .put (prefixed b)
  else .fail (.malformed (.binaryTooLong b.length))

/-- Write text. -/
def encodeText (s : String) : Output :=
  let b := Utf8.encode s
  if b.length ≤ maxLength then .put (prefixed b) else .fail (.stringTooLong b.length)

/-- The number of octets that binary data takes. -/
def binarySize (b : Bytes) : Nat := 2 + b.length

/-- The number of octets that text takes. -/
def textSize (s : String) : Nat := 2 + s.utf8ByteSize

/-- Read binary data. -/
def binary : Decoder Bytes := do
  .require (← .has 2) (.malformed .missingLength)
  let n ← .u16
  unless ← Decoder.has n.toNat do
    Decoder.refuse (.malformed (.lengthBeyondEnd n.toNat (← Decoder.remaining)))
  .take n.toNat

/-- Read text. -/
def text : Decoder String := do
  let b ← binary
  match Utf8.decode? b with
  | some s => return s
  | none => .refuse (.malformed (.notText ((Utf8.defect b).getD (.incomplete b.length))))

end Field

end Mqtt
