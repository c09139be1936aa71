import Std.Data.ExtTreeSet
import Mqtt.Batch

/-!
# Packet identifiers

A pool of the identifiers 1 to 65535. `acquire` hands out the least identifier that is not held,
`acquireSpecific` one that the caller chose, and `release` takes one back.

The pool keeps the greatest held identifier `top` and the free ones below it, the `gaps`. Releasing
the greatest identifier lowers `top` past the gaps under it, so the pool depends only on which
identifiers are held and not on the order of the calls.
-/

namespace Mqtt

/-- The packet identifiers that are held. -/
structure IdPool where
  /-- The greatest held identifier, or zero. -/
  top : Nat := 0
  /-- The free identifiers below `top`. -/
  gaps : Std.ExtTreeSet UInt16 := ∅
  deriving Inhabited

namespace IdPool

/-- No identifier is held. -/
def empty : IdPool := {}

/-- Whether an identifier is held. -/
def isHeld (p : IdPool) (id : UInt16) : Bool :=
  id ≠ 0 && id.toNat ≤ p.top && !p.gaps.contains id

/-- The number of held identifiers. -/
def size (p : IdPool) : Nat := p.top - p.gaps.size

/-- Hand out the least identifier that is not held. -/
def acquire (p : IdPool) : Except Error (UInt16 × IdPool) :=
  match p.gaps.min? with
  | some id => .ok (id, { p with gaps := p.gaps.erase id })
  | none =>
    if p.top < 65535 then .ok (UInt16.ofNat (p.top + 1), { p with top := p.top + 1 })
    else .error .identifiersExhausted

/-- Add `n` identifiers from `first` on to a set. -/
def addRange (gaps : Std.ExtTreeSet UInt16) (first : Nat) : Nat → Std.ExtTreeSet UInt16
  | 0 => gaps
  | n + 1 => addRange (gaps.insert (UInt16.ofNat first)) (first + 1) n

/-- Hand out a chosen identifier. -/
def acquireSpecific (p : IdPool) (id : UInt16) : Except Error IdPool :=
  if id = 0 then .error .zeroIdentifier
  else if p.top < id.toNat then
    .ok ⟨id.toNat, addRange p.gaps (p.top + 1) (id.toNat - p.top - 1)⟩
  else if p.gaps.contains id then .ok { p with gaps := p.gaps.erase id }
  else .error (.identifierInUse id)

/-- The pool in which the identifiers up to `top` are held, `gaps` apart. -/
def settle (gaps : Std.ExtTreeSet UInt16) : Nat → IdPool
  | 0 => ⟨0, gaps⟩
  | top + 1 =>
    let id := UInt16.ofNat (top + 1)
    if gaps.contains id then settle (gaps.erase id) top else ⟨top + 1, gaps⟩

/-- Take an identifier back. -/
def release (p : IdPool) (id : UInt16) : Except Error IdPool :=
  if p.isHeld id then .ok (settle (p.gaps.insert id) p.top)
  else .error (.identifierNotFound id)

/-- Take an identifier back if it is held. -/
def discard (p : IdPool) (id : UInt16) : IdPool :=
  match p.release id with
  | .ok p => p
  | .error _ => p

/-- Hand out the least identifier, or the one asked for. -/
def claim (p : IdPool) : Option UInt16 → Except Error (UInt16 × IdPool)
  | none => p.acquire
  | some id => return (id, ← p.acquireSpecific id)

/-- Hand out `n` identifiers, or as many as there are. -/
def acquireMany (p : IdPool) (n : Nat) : Batch (Option UInt16) × IdPool :=
  Batch.run (fun p =>
    match p.acquire with
    | .ok (id, p) => (.ok (some id), p)
    | .error e => (.error e, p)) n p

/-- Take back those of `n` identifiers that are held, counting them. The identifiers start at
`first` and are `step` apart. -/
def releaseEach (step first : Nat) : Nat → IdPool → Nat × IdPool
  | 0, p => (0, p)
  | n + 1, p =>
    match p.release (UInt16.ofNat first) with
    | .error _ => releaseEach step (first + step) n p
    | .ok p =>
      let (count, p) := releaseEach step (first + step) n p
      (count + 1, p)

/-- Take back the held identifiers from `first` to `last` that are `step` apart. -/
def releaseRange (p : IdPool) (first last step : Nat) : Nat × IdPool :=
  if last < first then (0, p) else releaseEach step first ((last - first) / step + 1) p

end IdPool

end Mqtt
