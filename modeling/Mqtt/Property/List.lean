import Mqtt.Error

/-!
# Property lists

The properties of a packet, in the order in which they were given. `Properties.add` takes a value
only if it has the property's shape and the property may be given again; the setters replace every
value that was there. The readers look at the first value of a property.
-/

namespace Mqtt

/-- The value of a property. -/
inductive Value
  | byte (v : UInt8)
  | word (v : UInt16)
  | long (v : UInt32)
  | varInt (v : Nat)
  | binary (v : Bytes)
  | text (v : String)
  | pair (key value : String)
  deriving DecidableEq

/-- The shape of a value. -/
def Value.shape : Value → Shape
  | .byte _ => .byte
  | .word _ => .word
  | .long _ => .long
  | .varInt _ => .varInt
  | .binary _ => .binary
  | .text _ => .text
  | .pair .. => .pair

/-- The properties of a packet, in order. -/
structure Properties where
  items : List (Property × Value) := []
  deriving DecidableEq, Inhabited

namespace Properties

/-- No properties. -/
def empty : Properties := {}

/-! ## Reading -/

/-- Whether there are none. -/
def isEmpty (ps : Properties) : Bool := ps.items.isEmpty

/-- The number of properties. -/
def size (ps : Properties) : Nat := ps.items.length

/-- The values of a property, in order. -/
def getAll (ps : Properties) (p : Property) : List Value :=
  (ps.items.filter (·.1 = p)).map (·.2)

/-- The first value of a property. -/
def get? (ps : Properties) (p : Property) : Option Value :=
  (ps.items.find? (·.1 = p)).map (·.2)

/-- Whether a property is given. -/
def contains (ps : Properties) (p : Property) : Bool := ps.items.any (·.1 = p)

/-- The first value of a property with 16-bit values. -/
def word? (ps : Properties) (p : Property) : Option UInt16 :=
  match ps.get? p with
  | some (.word v) => some v
  | _ => none

/-- The first value of a property with 32-bit values. -/
def long? (ps : Properties) (p : Property) : Option UInt32 :=
  match ps.get? p with
  | some (.long v) => some v
  | _ => none

/-- The first value of a property with text values. -/
def text? (ps : Properties) (p : Property) : Option String :=
  match ps.get? p with
  | some (.text v) => some v
  | _ => none

/-- The user properties, in order. -/
def userPairs (ps : Properties) : List (String × String) :=
  (ps.getAll .userProperty).filterMap fun
    | .pair k v => some (k, v)
    | _ => none

/-! ## Writing -/

/-- Give one more property. -/
def add (ps : Properties) (p : Property) (v : Value) : Except Error Properties :=
  if v.shape ≠ p.shape then .error (.protocol (.propertyShape p v.shape))
  else if !p.repeatable && ps.contains p then .error (.duplicateProperty p.toByte)
  else .ok ⟨ps.items ++ [(p, v)]⟩

/-- Give a property in place of all its values. -/
def set (ps : Properties) (p : Property) (v : Value) : Properties :=
  ⟨ps.items.filter (·.1 ≠ p) ++ [(p, v)]⟩

/-- Set the session expiry interval, in seconds. -/
def setSessionExpiry (ps : Properties) (seconds : UInt32) : Properties :=
  ps.set .sessionExpiryInterval (.long seconds)

/-- Set how many publishes may be unacknowledged. -/
def setReceiveMaximum (ps : Properties) (n : UInt16) : Properties :=
  ps.set .receiveMaximum (.word n)

/-- Set the size of the largest packet accepted. -/
def setMaximumPacketSize (ps : Properties) (n : UInt32) : Properties :=
  ps.set .maximumPacketSize (.long n)

/-- Set the message expiry interval, in seconds. -/
def setMessageExpiry (ps : Properties) (seconds : UInt32) : Properties :=
  ps.set .messageExpiryInterval (.long seconds)

/-- Set the reason string. -/
def setReasonString (ps : Properties) (text : String) : Properties :=
  ps.set .reasonString (.text text)

/-- Give one more user property. -/
def addUser (ps : Properties) (key value : String) : Properties :=
  ⟨ps.items ++ [(.userProperty, .pair key value)]⟩

/-- Give the listed properties one after the other. -/
def addAll (ps : Properties) : List (Property × Value) → Except Error Properties
  | [] => .ok ps
  | (p, v) :: rest => do (← ps.add p v).addAll rest

/-- The properties of a list, given in order. -/
def ofList (items : List (Property × Value)) : Except Error Properties := empty.addAll items

end Properties

end Mqtt
