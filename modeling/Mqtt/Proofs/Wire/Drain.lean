import Mqtt.Proofs.Wire.Yield

/-!
# Reading to the end

`Decoder.Drains d k` is said of a decoder that leaves nothing when there are no more than `k`
octets. What is read aside from a block that is drained is the whole block:
`Decoder.Yields.within_whole`.
-/

namespace Mqtt

namespace Decoder

variable {α β : Type} {d : Decoder α} {f : α → Decoder β} {P : Bytes → α → Prop} {k : Nat}

/-- Of no more than `k` octets, the decoder leaves none. -/
def Drains (d : Decoder α) (k : Nat) : Prop :=
  ∀ s s' a, s.remaining ≤ k → d.run s = .ok (a, s') → s'.remaining = 0

theorem Drains.mono {k' : Nat} (h : d.Drains k) (hk : k' ≤ k) : d.Drains k' :=
  fun s s' a hs => h s s' a (Nat.le_trans hs hk)

theorem drains_pure (a : α) : (pure a : Decoder α).Drains 0 := by
  intro s s' a' hs hrun
  obtain ⟨-, rfl⟩ := pure_eq_ok_iff.1 hrun
  exact Nat.le_zero.1 hs

theorem drains_refuse (e : Error) (k : Nat) : (refuse e : Decoder α).Drains k :=
  fun _ _ _ _ hrun => absurd hrun refuse_ne_ok

/-- What was taken is no longer there. -/
theorem Yields.drains (h : d.Yields P) (hf : ∀ b a, P b a → (f a).Drains (k - b.length)) :
    (d >>= f).Drains k := by
  intro s s' c hs hrun
  obtain ⟨a, s₁, hd, hrun⟩ := bind_eq_ok_iff.1 hrun
  obtain ⟨b, hb, hP⟩ := h s s₁ a hd
  refine hf b a hP s₁ s' c ?_ hrun
  rw [Segments.remaining_eq_length_bytes, hb, List.length_append] at hs
  rw [Segments.remaining_eq_length_bytes]
  omega

/-- Behind the last part, nothing is there any more. -/
theorem Drains.bind (h : d.Drains k) (hf : ∀ a, (f a).Drains 0) : (d >>= f).Drains k := by
  intro s s' c hs hrun
  obtain ⟨a, s₁, hd, hrun⟩ := bind_eq_ok_iff.1 hrun
  exact hf a s₁ s' c (Nat.le_of_eq (h s s₁ a hs hd)) hrun

theorem Drains.map {g : α → β} (h : d.Drains k) : (g <$> d).Drains k := by
  rw [← bind_pure_comp]
  exact h.bind fun a => drains_pure (g a)

theorem drains_has {n : Nat} {f : Bool → Decoder β} (hf : ∀ enough, (f enough).Drains k) :
    (has n >>= f).Drains k :=
  fun s s' c hs hrun => hf (s.hasAtLeast n) s s' c hs hrun

theorem drains_require {c : Bool} {e : Error} {f : Unit → Decoder β} (hf : c → (f ()).Drains k) :
    (require c e >>= f).Drains k := by
  intro s s' b hs hrun
  obtain ⟨_, s₁, hrequire, hrun⟩ := bind_eq_ok_iff.1 hrun
  obtain ⟨hc, rfl⟩ := require_eq_ok_iff.1 hrequire
  exact hf hc s s' b hs hrun

theorem drains_requireHas {n : Nat} {e : Error} {f : Unit → Decoder β} (hf : (f ()).Drains k) :
    (has n >>= fun enough => require enough e >>= f).Drains k :=
  drains_has fun _ => drains_require fun _ => hf

/-- Where it is said that nothing is left, nothing is. -/
theorem drains_atEnd {f : Bool → Decoder β} (hdone : (f true).Drains 0)
    (hmore : (f false).Drains k) : (atEnd >>= f).Drains k := by
  rw [atEnd, bind_assoc]
  intro s s' c hs hrun
  replace hrun : (f !s.hasAtLeast 1).run s = .ok (c, s') := hrun
  cases hleft : s.hasAtLeast 1 with
  | true =>
    rw [hleft] at hrun
    exact hmore s s' c hs hrun
  | false =>
    have hnone := mt (Segments.hasAtLeast_iff s 1).2 (by rw [hleft]; exact Bool.false_ne_true)
    rw [hleft] at hrun
    exact hdone s s' c (by omega) hrun

theorem drains_rest (k : Nat) : rest.Drains k := by
  intro s s' b _ hrun
  obtain ⟨hb, hlen⟩ := bytes_of_take (n := s.remaining) hrun
  rw [Segments.remaining_eq_length_bytes, hb, List.length_append] at hlen
  rw [Segments.remaining_eq_length_bytes]
  omega

/-- There is fuel for an item in each octet. -/
theorem drains_itemsUpTo (h : d.Yields fun b _ => 0 < b.length) (fuel : Nat) :
    (itemsUpTo d fuel).Drains fuel := by
  induction fuel with
  | zero => exact drains_pure []
  | succ fuel ih =>
    refine drains_atEnd (drains_pure []) (h.drains fun b a hb => ?_)
    exact (ih.mono (by omega)).bind fun as => drains_pure (a :: as)

theorem drains_items (h : d.Yields fun b _ => 0 < b.length) (k : Nat) : (items d).Drains k :=
  fun s s' as _ hrun => drains_itemsUpTo h s.remaining s s' as (Nat.le_refl _) hrun

/-- A block that is read aside stays where it was, and if it is drained all of it was read. -/
theorem Yields.within_whole {b : Bytes} (h : d.Yields P) (hd : d.Drains b.length) :
    (Decoder.within b d).Yields fun b' a => b' = [] ∧ P b a := by
  unfold Decoder.within
  split
  · rename_i a s' hrun
    obtain ⟨front, hs, hP⟩ := h _ _ _ hrun
    have hleft : s'.bytes = [] := by
      rw [← List.length_eq_zero_iff, ← Segments.remaining_eq_length_bytes]
      refine hd _ _ _ (Nat.le_of_eq ?_) hrun
      rw [Segments.remaining_eq_length_bytes, Segments.bytes_ofBytes]
    rw [Segments.bytes_ofBytes, hleft, List.append_nil] at hs
    exact yields_pure ⟨rfl, hs ▸ hP⟩
  · exact yields_refuse _

end Decoder

end Mqtt
