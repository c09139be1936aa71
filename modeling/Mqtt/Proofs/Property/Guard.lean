import Mqtt.Property.Block
import Mqtt.Proofs.Wire.Guard

/-!
# Property blocks from untrusted input

The decoders of a property block are `Guarded`, one lemma for each: they may be run on any octets,
in any cut.
-/

namespace Mqtt

open Decoder

namespace Properties

theorem guarded_requireWidth {β : Type} {p : Property} {width k : Nat} {f : Unit → Decoder β}
    (hf : (f ()).Guarded width k) : (requireWidth p width >>= f).Guarded 0 k := by
  rw [requireWidth, bind_assoc]
  exact guarded_requireHas (by nofun) hf

theorem guarded_decodeValue (p : Property) : (decodeValue p).Guarded 0 0 := by
  unfold decodeValue
  cases p.shape with
  | byte => exact guarded_requireWidth ((guarded_u8 0).bind fun _ => guarded_pure _ 0)
  | word => exact guarded_requireWidth ((guarded_u16 0).bind fun _ => guarded_pure _ 0)
  | long => exact guarded_requireWidth ((guarded_u32 0).bind fun _ => guarded_pure _ 0)
  | varInt => exact VarInt.guarded_decode.bind fun _ => guarded_pure _ 0
  | binary => exact Field.guarded_binary.bind fun _ => guarded_pure _ 0
  | text => exact Field.guarded_text.bind fun _ => guarded_pure _ 0
  | pair =>
    exact Field.guarded_text.bind fun _ => Field.guarded_text.bind fun _ => guarded_pure _ 0

theorem guarded_decodeIdentifier : decodeIdentifier.Guarded 0 0 := by
  refine VarInt.guarded_decode.bind fun n => guarded_require (by nofun) fun _ => ?_
  split
  · exact guarded_pure _ 0
  · exact guarded_refuse (by nofun) 0 0

theorem add_ne_underflow {ps : Properties} {p : Property} {v : Value} :
    ps.add p v ≠ .error .underflow := by
  unfold add
  split_ifs <;> nofun

theorem guarded_decodeItem (ps : Properties) : (decodeItem ps).Guarded 0 0 := by
  refine guarded_decodeIdentifier.bind fun p => (guarded_decodeValue p).bind fun v => ?_
  split
  · exact guarded_pure _ 0
  · rename_i e hadd
    exact guarded_refuse (fun he => add_ne_underflow (he ▸ hadd)) 0 0

theorem guarded_decodeItems (fuel : Nat) (ps : Properties) : (decodeItems fuel ps).Guarded 0 0 := by
  induction fuel generalizing ps with
  | zero => exact guarded_pure ps 0
  | succ fuel ih =>
    exact guarded_atEnd (guarded_pure ps 0)
      (((guarded_decodeItem ps).bind ih).mono (Nat.zero_le 1) (Nat.le_refl 0))

theorem guarded_decode : decode.Guarded 0 0 :=
  VarInt.guarded_decode.bind fun n => guarded_unlessHas (by nofun)
    ((guarded_take n).bind fun block => (guarded_decodeItems n empty).within block 0)

theorem guarded_decodeFor (v : Version) : (decodeFor v).Guarded 0 0 :=
  match v with
  | .v311 => guarded_pure _ 0
  | .v5 => guarded_decode

theorem guarded_decodeIfAny : decodeIfAny.Guarded 0 0 :=
  guarded_atEnd (guarded_pure _ 0) (guarded_decode.mono (Nat.zero_le 1) (Nat.le_refl 0))

end Properties

end Mqtt
