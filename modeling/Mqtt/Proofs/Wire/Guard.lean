import Mqtt.Proofs.Wire.Reading
import Mqtt.Proofs.Wire.Scan

/-!
# Cuts and ends

How input is cut into pieces is not seen by a decoder that is `Decoder.Blind`: on two buffers with
the same octets it yields the same value and leaves the same octets, or it refuses both for the same
cause. Of a number that cannot be read, different things may be said (`Error.Alike`), since
`VarInt.decode` looks at the first piece before it goes through the others.

`Decoder.Guarded d n k` is said of a blind decoder that never reads past the end when `n` octets are
there, and that leaves `k` octets if it succeeds. A decoder asks `has` before it reads, and the rules
carry what it was told to the places where it reads. What begins with nothing known is guarded with
`n = 0`: it may be run on any input.
-/

namespace Mqtt

/-! ## Errors -/

/-- What is said of a number that cannot be read. -/
inductive Malformed.OfNumber : Malformed → Prop
  | tooLong : OfNumber .varIntTooLong
  | invalid : OfNumber .varIntInvalid
  | truncated : OfNumber .varIntTruncated

/-- The errors are the same, but for what is said of a number that cannot be read. -/
inductive Error.Alike : Error → Error → Prop
  | refl (e : Error) : Alike e e
  | number {c c' : Malformed} (h : c.OfNumber) (h' : c'.OfNumber) :
      Alike (.malformed c) (.malformed c')

/-! ## Buffers with the same octets -/

namespace Segments

variable {s s' : Segments}

theorem remaining_congr (h : s.bytes = s'.bytes) : s.remaining = s'.remaining := by
  rw [remaining_eq_length_bytes, remaining_eq_length_bytes, h]

theorem hasAtLeast_congr (h : s.bytes = s'.bytes) (n : Nat) :
    s.hasAtLeast n = s'.hasAtLeast n := by
  rw [Bool.eq_iff_iff, hasAtLeast_iff, hasAtLeast_iff, remaining_congr h]

/-- The first octet is that of the octets, whatever the cuts. -/
theorem next?_view (s : Segments) : (s.next?.map fun r => (r.1, r.2.bytes)) =
    s.bytes.head?.map fun b => (b, s.bytes.tail) := by
  cases hnext : s.next? with
  | none => rw [(next?_eq_none_iff s).1 hnext]; rfl
  | some r => rw [bytes_of_next? hnext]; rfl

theorem exists_take? {n : Nat} (h : n ≤ s.remaining) :
    ∃ b s', s.take? n = some (b, s') ∧ s.bytes = b ++ s'.bytes ∧ b.length = n := by
  cases htake : s.take? n with
  | none =>
    have hshort := (take?_eq_none_iff n s).1 htake
    omega
  | some r => exact ⟨r.1, r.2, rfl, bytes_of_take? htake⟩

/-- The first octets are those of the octets, whatever the cuts. -/
theorem take?_view (n : Nat) (s : Segments) : ((s.take? n).map fun r => (r.1, r.2.bytes)) =
    if n ≤ s.bytes.length then some (s.bytes.take n, s.bytes.drop n) else none := by
  split
  · rename_i hn
    rw [← remaining_eq_length_bytes] at hn
    obtain ⟨b, s', htake, hb, rfl⟩ := exists_take? hn
    rw [htake, hb, List.take_left, List.drop_left]
    rfl
  · rename_i hn
    rw [(take?_eq_none_iff n s).2 (by rw [remaining_eq_length_bytes]; omega)]
    rfl

theorem hasAtLeast_one (s : Segments) : s.hasAtLeast 1 = s.next?.isSome := by
  rw [Bool.eq_iff_iff, hasAtLeast_iff, remaining_eq_length_bytes, Option.isSome_iff_ne_none, ne_eq,
    next?_eq_none_iff, Nat.succ_le_iff, List.length_pos_iff]

/-- The first piece is the beginning of the octets. -/
theorem exists_bytes_eq_front_append (s : Segments) : ∃ c, s.bytes = s.front ++ c := by
  obtain ⟨ps⟩ := s
  show ∃ c, ps.flatten = front.go ps ++ c
  induction ps with
  | nil => exact ⟨[], rfl⟩
  | cons p ps ih =>
    cases p with
    | nil => exact ih
    | cons b p => exact ⟨ps.flatten, rfl⟩

end Segments

namespace Decoder

variable {α β : Type} {d : Decoder α} {f : α → Decoder β} {n m k : Nat} {s s' : Segments}

theorem bind_eq_error_iff {e : Error} : (d >>= f).run s = .error e ↔
    d.run s = .error e ∨ ∃ a s₁, d.run s = .ok (a, s₁) ∧ (f a).run s₁ = .error e := by
  rw [StateT.run_bind]
  cases d.run s with
  | error e' =>
    constructor
    · intro h
      cases h
      exact .inl rfl
    · rintro (h | ⟨_, _, h, -⟩)
      · cases h
        rfl
      · cases h
  | ok r =>
    constructor
    · exact fun h => .inr ⟨r.1, r.2, rfl, h⟩
    · rintro (h | ⟨_, _, h, hf⟩)
      · cases h
      · cases h
        exact hf

theorem run_get_bind {f : Segments → Decoder β} : (get >>= f).run s = (f s).run s :=
  rfl

theorem run_has_bind {f : Bool → Decoder β} :
    (has n >>= f).run s = (f (s.hasAtLeast n)).run s :=
  rfl

/-- Reading fails only past the end. -/
theorem run_u8 (s : Segments) : u8.run s = s.next?.elim (.error .underflow) .ok := by
  unfold u8 StateT.run
  dsimp only
  cases s.next? <;> rfl

theorem run_take (n : Nat) (s : Segments) :
    (take n).run s = (s.take? n).elim (.error .underflow) .ok := by
  unfold take StateT.run
  dsimp only
  cases s.take? n <;> rfl

/-! ## Blindness to cuts -/

/-- The same value and the same octets left, or errors that are alike. -/
inductive Agree : Except Error (α × Segments) → Except Error (α × Segments) → Prop
  | ok (a : α) {s s' : Segments} (h : s.bytes = s'.bytes) : Agree (.ok (a, s)) (.ok (a, s'))
  | error {e e' : Error} (h : e.Alike e') : Agree (.error e) (.error e')

/-- The decoder does not see how its input is cut. -/
def Blind (d : Decoder α) : Prop := ∀ s s', s.bytes = s'.bytes → Agree (d.run s) (d.run s')

theorem blind_pure (a : α) : (pure a : Decoder α).Blind := fun _ _ hs => .ok a hs

theorem blind_refuse (e : Error) : (refuse e : Decoder α).Blind := fun _ _ _ => .error (.refl e)

theorem Blind.bind (h : d.Blind) (hf : ∀ a, (f a).Blind) : (d >>= f).Blind := by
  intro s s' hs
  rw [StateT.run_bind, StateT.run_bind]
  have hagree := h s s' hs
  generalize d.run s = r, d.run s' = r' at hagree
  cases hagree with
  | ok a hrest => exact hf a _ _ hrest
  | error he => exact .error he

/-- Two readings of an octet or of several agree if they see the same octets. -/
theorem agree_elim {o o' : Option (α × Segments)}
    (h : (o.map fun r => (r.1, r.2.bytes)) = o'.map fun r => (r.1, r.2.bytes)) :
    Agree (o.elim (.error .underflow) .ok) (o'.elim (.error .underflow) .ok) := by
  cases o with
  | none =>
    cases o' with
    | none => exact .error (.refl _)
    | some r' => cases h
  | some r =>
    cases o' with
    | none => cases h
    | some r' =>
      obtain ⟨a, s⟩ := r
      obtain ⟨a', s'⟩ := r'
      obtain ⟨rfl, hs⟩ := Prod.mk.inj (Option.some.inj h)
      exact .ok a hs

theorem blind_u8 : u8.Blind := by
  intro s s' hs
  rw [run_u8, run_u8]
  exact agree_elim (by rw [Segments.next?_view, Segments.next?_view, hs])

theorem blind_take (n : Nat) : (take n).Blind := by
  intro s s' hs
  rw [run_take, run_take]
  exact agree_elim (by rw [Segments.take?_view, Segments.take?_view, hs])

/-! ## Reading within the input -/

/-- The decoder does not see how its input is cut. With `n` octets there it never reads past the
end, and leaves `k` octets or more if it succeeds. -/
structure Guarded (d : Decoder α) (n k : Nat) : Prop where
  blind : d.Blind
  inside : ∀ s, n ≤ s.remaining → d.run s ≠ .error .underflow
  leaves : ∀ s s' a, n ≤ s.remaining → d.run s = .ok (a, s') → k ≤ s'.remaining

theorem Guarded.mono {n' k' : Nat} (h : d.Guarded n k) (hn : n ≤ n') (hk : k' ≤ k) :
    d.Guarded n' k' where
  blind := h.blind
  inside s hs := h.inside s (Nat.le_trans hn hs)
  leaves s s' a hs hrun := Nat.le_trans hk (h.leaves s s' a (Nat.le_trans hn hs) hrun)

/-! ### Putting decoders together -/

theorem Guarded.bind (h : d.Guarded n m) (hf : ∀ a, (f a).Guarded m k) :
    (d >>= f).Guarded n k where
  blind := h.blind.bind fun a => (hf a).blind
  inside s hs hrun := by
    obtain hd | ⟨a, s₁, hd, hrun⟩ := bind_eq_error_iff.1 hrun
    · exact h.inside s hs hd
    · exact (hf a).inside s₁ (h.leaves s s₁ a hs hd) hrun
  leaves s s' b hs hrun := by
    obtain ⟨a, s₁, hd, hrun⟩ := bind_eq_ok_iff.1 hrun
    exact (hf a).leaves s₁ s' b (h.leaves s s₁ a hs hd) hrun

theorem guarded_pure (a : α) (n : Nat) : (pure a : Decoder α).Guarded n n where
  blind := blind_pure a
  inside _ _ hrun := by cases hrun
  leaves s s' a' hs hrun := by
    obtain ⟨-, rfl⟩ := pure_eq_ok_iff.1 hrun
    exact hs

/-- What is refused leaves as much as anyone may want. -/
theorem guarded_refuse {e : Error} (he : e ≠ .underflow) (n k : Nat) :
    (refuse e : Decoder α).Guarded n k where
  blind := blind_refuse e
  inside _ _ hrun := he (Except.error.inj hrun)
  leaves _ _ _ _ hrun := absurd hrun refuse_ne_ok

theorem Guarded.map {g : α → β} (h : d.Guarded n k) : (g <$> d).Guarded n k := by
  rw [← bind_pure_comp]
  exact h.bind fun a => guarded_pure (g a) k

/-! ### Looking ahead -/

/-- What is looked at does not depend on the cuts, and is known further on. -/
theorem guarded_get {look : Segments → α} (hlook : ∀ s s', s.bytes = s'.bytes → look s = look s')
    (hf : ∀ s, ∃ n ≤ s.remaining, (f (look s)).Guarded n k) :
    (get >>= fun s => f (look s)).Guarded 0 k where
  blind s s' hs := by
    obtain ⟨_, -, hguard⟩ := hf s
    show Agree ((f (look s)).run s) ((f (look s')).run s')
    rw [← hlook s s' hs]
    exact hguard.blind s s' hs
  inside s _ := by
    obtain ⟨_, hn, hguard⟩ := hf s
    exact hguard.inside s hn
  leaves s s' a _ hrun := by
    obtain ⟨_, hn, hguard⟩ := hf s
    exact hguard.leaves s s' a hn hrun

theorem guarded_has {f : Bool → Decoder β} (hyes : (f true).Guarded n k)
    (hno : (f false).Guarded 0 k) : (has n >>= f).Guarded 0 k := by
  refine guarded_get (fun _ _ hs => Segments.hasAtLeast_congr hs n) fun s => ?_
  cases hs : s.hasAtLeast n with
  | true => exact ⟨n, (Segments.hasAtLeast_iff s n).1 hs, hyes⟩
  | false => exact ⟨0, Nat.zero_le _, hno⟩

theorem guarded_atEnd {f : Bool → Decoder β} (hdone : (f true).Guarded 0 k)
    (hmore : (f false).Guarded 1 k) : (atEnd >>= f).Guarded 0 k := by
  rw [atEnd, bind_assoc]
  exact guarded_has hmore hdone

theorem guarded_remaining {f : Nat → Decoder β} (hf : ∀ n, (f n).Guarded 0 k) :
    (remaining >>= f).Guarded 0 k :=
  guarded_get (fun _ _ => Segments.remaining_congr) fun s => ⟨0, Nat.zero_le _, hf s.remaining⟩

theorem guarded_require {c : Bool} {e : Error} {f : Unit → Decoder β} (he : e ≠ .underflow)
    (hf : c → (f ()).Guarded n k) : (require c e >>= f).Guarded n k := by
  cases c with
  | false =>
    -- what is refused never reaches `f`
    rw [show require false e >>= f = refuse e from rfl]
    exact guarded_refuse he n k
  | true => exact hf rfl

/-- So many octets are required, and may be read further on. -/
theorem guarded_requireHas {e : Error} {f : Unit → Decoder β} (he : e ≠ .underflow)
    (hf : (f ()).Guarded n k) : (has n >>= fun enough => require enough e >>= f).Guarded 0 k :=
  guarded_has (guarded_require he fun _ => hf) (guarded_require he nofun)

/-- The same where the refusal says how many octets there are. -/
theorem guarded_unlessHas {e : Nat → Error} {g : Decoder β} (he : ∀ n, e n ≠ .underflow)
    (hg : g.Guarded n k) : Guarded (do
      unless ← has n do refuse (e (← remaining))
      g) 0 k :=
  guarded_has hg (guarded_remaining fun r => (guarded_refuse (he r) 0 n).bind fun _ => hg)

/-! ### Octets and words -/

theorem guarded_u8 (k : Nat) : u8.Guarded (k + 1) k where
  blind := blind_u8
  inside s hs hrun := by
    cases hnext : s.next? with
    | none =>
      have hempty := (Segments.next?_eq_none_iff s).1 hnext
      rw [Segments.remaining_eq_length_bytes, hempty] at hs
      cases hs
    | some r =>
      rw [run_u8, hnext] at hrun
      cases hrun
  leaves s s' b hs hrun := by
    rw [Segments.remaining_eq_length_bytes, bytes_of_u8 hrun] at hs
    rw [Segments.remaining_eq_length_bytes]
    exact Nat.le_of_succ_le_succ hs

theorem guarded_take (n : Nat) : (take n).Guarded n 0 where
  blind := blind_take n
  inside s hs hrun := by
    obtain ⟨b, s', htake, -⟩ := Segments.exists_take? hs
    rw [run_take, htake] at hrun
    cases hrun
  leaves _ _ _ _ _ := Nat.zero_le _

theorem guarded_u16 (k : Nat) : u16.Guarded (k + 2) k :=
  (guarded_u8 (k + 1)).bind fun _ => (guarded_u8 k).bind fun _ => guarded_pure _ k

theorem guarded_u32 (k : Nat) : u32.Guarded (k + 4) k :=
  (guarded_u16 (k + 2)).bind fun _ => (guarded_u16 k).bind fun _ => guarded_pure _ k

theorem guarded_rest : rest.Guarded 0 0 :=
  guarded_get (fun _ _ => Segments.remaining_congr) fun s =>
    ⟨s.remaining, Nat.le_refl _, guarded_take s.remaining⟩

/-! ### Parts that may be there -/

theorem Guarded.optionally (h : d.Guarded n n) (c : Bool) : (optionally c d).Guarded n n := by
  cases c with
  | false => exact guarded_pure none n
  | true => exact h.map

/-- An item is read only if something is left. -/
theorem Guarded.itemsUpTo (h : d.Guarded n 0) (hn : n ≤ 1) (fuel : Nat) :
    (itemsUpTo d fuel).Guarded 0 0 := by
  induction fuel with
  | zero => exact guarded_pure [] 0
  | succ fuel ih =>
    exact guarded_atEnd (guarded_pure [] 0)
      ((h.mono hn (Nat.le_refl 0)).bind fun _ => ih.bind fun _ => guarded_pure _ 0)

theorem Guarded.items (h : d.Guarded n 0) (hn : n ≤ 1) : (items d).Guarded 0 0 :=
  guarded_remaining fun m => h.itemsUpTo hn m

/-- What is read aside is whole. -/
theorem Guarded.within (h : d.Guarded 0 k) (b : Bytes) (n : Nat) :
    (Decoder.within b d).Guarded n n := by
  unfold Decoder.within
  split
  · exact guarded_pure _ n
  · rename_i e hrun
    refine guarded_refuse (fun he => ?_) n n
    rw [he] at hrun
    exact h.inside _ (Nat.zero_le _) hrun

end Decoder

open Decoder

/-! ## Numbers -/

namespace VarInt

/-- A number of at most `n` octets was read as `scan` finds it, or there is none. -/
inductive Scans (n : Nat) (s : Segments) : Except Error (Nat × Segments) → Prop
  | found {v k : Nat} {s' : Segments} (h : scan n s.bytes = some (v, k))
      (hrest : s'.bytes = s.bytes.drop k) : Scans n s (.ok (v, s'))
  | missing {c : Malformed} (h : scan n s.bytes = none) (hc : c.OfNumber) :
      Scans n s (.error (.malformed c))

theorem run_decodeByOctets_of_none {n : Nat} {s : Segments} (h : s.next? = none) :
    (decodeByOctets (n + 1)).run s = .error (.malformed .varIntInvalid) := by
  rw [decodeByOctets, run_has_bind, Segments.hasAtLeast_one, h]
  rfl

theorem run_decodeByOctets_of_some {n : Nat} {s s' : Segments} {b : UInt8}
    (h : s.next? = some (b, s')) : (decodeByOctets (n + 1)).run s =
      (if b < 128 then pure b.toNat
        else decodeByOctets n >>= fun v => pure (b.toNat % 128 + 128 * v) : Decoder Nat).run s' := by
  rw [decodeByOctets, run_has_bind, Segments.hasAtLeast_one, h, Option.isSome_some,
    Decoder.require, if_pos rfl, pure_bind, StateT.run_bind, run_u8, h]
  rfl

/-- Octet by octet, the number is found that stands in the octets. -/
theorem scans_decodeByOctets (n : Nat) (s : Segments) : Scans n s ((decodeByOctets n).run s) := by
  induction n generalizing s with
  | zero => exact .missing rfl .invalid
  | succ n ih =>
    cases hnext : s.next? with
    | none =>
      rw [run_decodeByOctets_of_none hnext]
      exact .missing (by rw [(Segments.next?_eq_none_iff s).1 hnext]; rfl) .invalid
    | some r =>
      obtain ⟨b, s₁⟩ := r
      have hb := Segments.bytes_of_next? hnext
      rw [run_decodeByOctets_of_some hnext]
      by_cases hlast : b < 128
      · rw [if_pos hlast]
        exact .found (by rw [hb, scan, if_pos hlast]) (by rw [hb]; rfl)
      · rw [if_neg hlast, StateT.run_bind]
        have hrest := ih s₁
        generalize (decodeByOctets n).run s₁ = r at hrest
        cases hrest with
        | found hscan hrest =>
          exact .found (by rw [hb, scan, if_neg hlast, hscan]; rfl) (by rw [hb]; exact hrest)
        | missing hscan hc => exact .missing (by rw [hb, scan, if_neg hlast, hscan]; rfl) hc

/-- A number that ends in the first piece is read there, and any other octet by octet. -/
theorem scans_decode (s : Segments) : Scans 4 s (decode.run s) := by
  obtain ⟨c, hc⟩ := s.exists_bytes_eq_front_append
  rw [decode, run_get_bind]
  dsimp only
  rcases hpeek : peek? s.front with e | _ | ⟨v, k⟩
  · obtain ⟨rfl, hnone, hlong⟩ := peek?_eq_error_iff.1 hpeek
    exact .missing (by rw [hc, scan_append_of_le hlong, hnone]) .tooLong
  · show Scans 4 s ((if s.hasAtLeast (s.front.length + 1) then decodeByOctets 4
      else refuse (.malformed .varIntTruncated) : Decoder Nat).run s)
    cases hmore : s.hasAtLeast (s.front.length + 1) with
    | true => exact scans_decodeByOctets 4 s
    | false =>
      have hshort := mt (Segments.hasAtLeast_iff s _).2 (by rw [hmore]; exact Bool.false_ne_true)
      rw [Segments.remaining_eq_length_bytes, hc, List.length_append] at hshort
      have hempty : c = [] := List.eq_nil_of_length_eq_zero (by omega)
      rw [hempty, List.append_nil] at hc
      exact .missing (by rw [hc]; exact (peek?_eq_none_iff.1 hpeek).1) .truncated
  · have hscan := peek?_eq_some_iff.1 hpeek
    have hlong : k ≤ s.remaining := by
      rw [Segments.remaining_eq_length_bytes, hc, List.length_append]
      exact Nat.le_trans (scan_bounds hscan).2.2 (Nat.le_add_right _ _)
    obtain ⟨b, s₁, htake, hb, hlen⟩ := Segments.exists_take? hlong
    show Scans 4 s ((take k >>= fun _ => pure v).run s)
    rw [StateT.run_bind, run_take, htake]
    refine .found (by rw [hc]; exact scan_append hscan c) ?_
    rw [hb, ← hlen, List.drop_left]

/-- What is found depends on the octets only. -/
theorem Scans.agree {n : Nat} {s s' : Segments} {r r' : Except Error (Nat × Segments)}
    (h : Scans n s r) (h' : Scans n s' r') (hs : s.bytes = s'.bytes) : Agree r r' := by
  cases h with
  | found hscan hrest =>
    rw [hs] at hscan
    cases h' with
    | found hscan' hrest' =>
      rw [hscan] at hscan'
      cases hscan'
      exact .ok _ (by rw [hrest, hrest', hs])
    | missing hscan' _ =>
      rw [hscan] at hscan'
      cases hscan'
  | missing hscan hc =>
    rw [hs] at hscan
    cases h' with
    | found hscan' _ =>
      rw [hscan] at hscan'
      cases hscan'
    | missing _ hc' => exact .error (.number hc hc')

theorem guarded_decode : decode.Guarded 0 0 where
  blind s s' hs := (scans_decode s).agree (scans_decode s') hs
  inside s _ hrun := by
    have hscans := scans_decode s
    rw [hrun] at hscans
    cases hscans
  leaves _ _ _ _ _ := Nat.zero_le _

end VarInt

/-! ## Fields -/

namespace Field

theorem guarded_binary : binary.Guarded 0 0 :=
  guarded_requireHas (by nofun) ((guarded_u16 0).bind fun n =>
    guarded_unlessHas (by nofun) (guarded_take n.toNat))

theorem guarded_text : text.Guarded 0 0 := by
  refine guarded_binary.bind fun b => ?_
  split
  · exact guarded_pure _ 0
  · exact guarded_refuse (by nofun) 0 0

end Field

end Mqtt
