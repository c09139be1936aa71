import Mqtt.Proofs.Wire.Layout

/-!
# Reading what is at the front

`Decoder.Reads` says that a decoder takes given octets off the front of contiguous input, whatever
stands behind them, and yields a given value. A decoder that asks how much is left may depend on
what stands behind; so the rest is named. The rules follow the ways in which decoders are put
together, and every part of a layout has a decoder that reads it.
-/

namespace Mqtt

namespace Decoder

variable {α β : Type}

/-- Take `b` off the front of `b ++ rest` and yield a value. -/
def Reads (d : Decoder α) (b rest : Bytes) (a : α) : Prop :=
  d.run (.ofBytes (b ++ rest)) = .ok (a, .ofBytes rest)

variable {d : Decoder α} {f : α → Decoder β} {b b' rest : Bytes} {a : α} {c : β}

/-! ## Putting decoders together -/

theorem Reads.bind (h : d.Reads b (b' ++ rest) a) (hf : (f a).Reads b' rest c) :
    (d >>= f).Reads (b ++ b') rest c := by
  rw [Reads, bind_eq_ok_iff, List.append_assoc]
  exact ⟨a, _, h, hf⟩

/-- What takes nothing comes first. -/
theorem Reads.look (h : d.Reads [] (b ++ rest) a) (hf : (f a).Reads b rest c) :
    (d >>= f).Reads b rest c :=
  Reads.bind (b := []) h hf

/-- What takes nothing comes last. -/
theorem Reads.last (h : d.Reads b rest a) (hf : (f a).Reads [] rest c) :
    (d >>= f).Reads b rest c := by
  rw [← List.append_nil b]
  exact Reads.bind h hf

theorem reads_pure (a : α) (rest : Bytes) : (pure a : Decoder α).Reads [] rest a := rfl

theorem Reads.map (g : α → β) (h : d.Reads b rest a) : (g <$> d).Reads b rest (g a) :=
  map_eq_ok_iff.2 ⟨a, rfl, h⟩

/-- What is read last may be followed by a decoder that only passes it on. -/
theorem Reads.bind_pure {g : α → β} (h : d.Reads b rest a) :
    (d >>= fun a => pure (g a)).Reads b rest (g a) := by
  rw [bind_pure_comp]
  exact h.map g

/-- The value of a decoder that reads all of its octets. -/
theorem Reads.runOn (h : d.Reads b [] a) : d.runOn b = .ok a := by
  rw [Reads, List.append_nil] at h
  rw [Decoder.runOn, h]
  rfl

/-! ## Looking ahead -/

theorem reads_has (n : Nat) (rest : Bytes) : (has n).Reads [] rest (decide (n ≤ rest.length)) := by
  have hleft : (Segments.ofBytes rest).hasAtLeast n = decide (n ≤ rest.length) := by
    rw [Bool.eq_iff_iff, Segments.hasAtLeast_iff, Segments.remaining_eq_length_bytes,
      Segments.bytes_ofBytes, decide_eq_true_iff]
  rw [← hleft]
  rfl

theorem reads_has_of_le {n : Nat} (h : n ≤ rest.length) : (has n).Reads [] rest true := by
  simpa only [h, decide_true] using reads_has n rest

theorem reads_atEnd (rest : Bytes) : atEnd.Reads [] rest rest.isEmpty := by
  have hempty : (!decide (1 ≤ rest.length)) = rest.isEmpty := by cases rest <;> rfl
  rw [← hempty]
  exact (reads_has 1 rest).bind_pure

theorem reads_remaining (rest : Bytes) : remaining.Reads [] rest rest.length := by
  have hleft : (Segments.ofBytes rest).remaining = rest.length := by
    rw [Segments.remaining_eq_length_bytes, Segments.bytes_ofBytes]
  rw [← hleft]
  rfl

/-- A condition that is met is no obstacle. -/
theorem Reads.require {c : Bool} (hc : c = true) (e : Error) (h : d.Reads b rest a) :
    (Decoder.require c e >>= fun _ => d).Reads b rest a := by
  subst hc
  exact Reads.look (reads_pure () _) h

/-- Octets that are there can be asked for. -/
theorem Reads.requireHas {n : Nat} (hn : n ≤ (b ++ rest).length) (e : Error)
    (h : d.Reads b rest a) :
    (has n >>= fun enough => Decoder.require enough e >>= fun _ => d).Reads b rest a :=
  (reads_has_of_le hn).look (h.require rfl e)

/-! ## Octets and words -/

theorem reads_u8 (x : UInt8) (rest : Bytes) : u8.Reads [x] rest x := rfl

theorem reads_u16 (w : UInt16) (rest : Bytes) : u16.Reads (Bytes.ofWord w) rest w := by
  have hword : (pure (Bytes.word (UInt8.ofNat (w.toNat / 256)) (UInt8.ofNat (w.toNat % 256))) :
      Decoder UInt16).Reads [] rest w := by
    rw [Bytes.word_ofWord]
    exact reads_pure w rest
  exact (reads_u8 _ _).bind ((reads_u8 _ rest).last hword)

theorem reads_u32 (w : UInt32) (rest : Bytes) : u32.Reads (Bytes.ofLong w) rest w := by
  refine (reads_u16 _ _).bind ?_
  refine (reads_u16 _ rest).last ?_
  rw [Bytes.long_ofLong]
  exact reads_pure w rest

theorem reads_take (b rest : Bytes) : (take b.length).Reads b rest b := by
  have htake : (Segments.ofBytes (b ++ rest)).take? b.length = some (b, .ofBytes rest) := by
    cases b with
    | nil => rfl
    | cons x b =>
      simp only [Segments.take?, Segments.ofBytes, Segments.take?.go, List.length_cons,
        List.cons_append, List.take_succ_cons, List.drop_succ_cons, List.take_left, List.drop_left,
        ↓reduceIte]
  simp only [Reads, take, StateT.run, htake]

theorem reads_rest (b : Bytes) : Decoder.rest.Reads b [] b := by
  refine (reads_remaining (b ++ [])).look ?_
  rw [List.append_nil]
  exact reads_take b []

/-- Octets that are read aside stay where they are. -/
theorem Reads.within (h : d.Reads b [] a) (rest : Bytes) : (Decoder.within b d).Reads [] rest a := by
  rw [Reads, List.append_nil] at h
  rw [Reads, Decoder.within, h]
  rfl

/-- What is there is read, if the condition says whether it is there. -/
theorem reads_optionally {o : Option α} {there : Bool} (hthere : there = o.isSome)
    {layout : α → Layout} (h : ∀ a, o = some a → d.Reads (layout a).bytes rest a) :
    (optionally there d).Reads (Layout.bytes ((o.map layout).getD [])) rest o := by
  subst hthere
  cases o with
  | none => exact reads_pure none rest
  | some a => exact (h a rfl).map some

/-! ## Items -/

/-- Items are read to the end of the input, if each of them takes an octet or more. -/
theorem reads_itemsUpTo {enc : α → Bytes} {as : List α} {fuel : Nat}
    (hitem : ∀ a ∈ as, ∀ rest, d.Reads (enc a) rest a) (hpos : ∀ a ∈ as, enc a ≠ [])
    (hfuel : as.length ≤ fuel) : (itemsUpTo d fuel).Reads (as.flatMap enc) [] as := by
  induction as generalizing fuel with
  | nil =>
    cases fuel with
    | zero => exact reads_pure [] []
    | succ fuel =>
      refine (reads_atEnd []).look ?_
      exact reads_pure [] []
  | cons a as ih =>
    cases fuel with
    | zero => simp at hfuel
    | succ fuel =>
      have hne : (enc a ++ as.flatMap enc ++ []).isEmpty = false := by
        simpa using fun h => absurd h (hpos a List.mem_cons_self)
      have hrest : (itemsUpTo d fuel).Reads (as.flatMap enc) [] as :=
        ih (fun a ha => hitem a (List.mem_cons_of_mem _ ha))
          (fun a ha => hpos a (List.mem_cons_of_mem _ ha)) (Nat.le_of_succ_le_succ hfuel)
      rw [List.flatMap_cons]
      refine (reads_atEnd _).look ?_
      rw [hne]
      exact (hitem a List.mem_cons_self _).bind hrest.bind_pure

theorem length_le_length_flatMap {enc : α → Bytes} {as : List α} (hpos : ∀ a ∈ as, enc a ≠ []) :
    as.length ≤ (as.flatMap enc).length := by
  induction as with
  | nil => exact Nat.zero_le _
  | cons a as ih =>
    have ha := List.length_pos_iff.2 (hpos a List.mem_cons_self)
    have has := ih fun a ha => hpos a (List.mem_cons_of_mem _ ha)
    rw [List.flatMap_cons, List.length_append, List.length_cons]
    omega

theorem reads_items {enc : α → Bytes} {as : List α}
    (hitem : ∀ a ∈ as, ∀ rest, d.Reads (enc a) rest a) (hpos : ∀ a ∈ as, enc a ≠ []) :
    (items d).Reads (as.flatMap enc) [] as := by
  refine (reads_remaining _).look (reads_itemsUpTo hitem hpos ?_)
  rw [List.append_nil]
  exact length_le_length_flatMap hpos

end Decoder

open Decoder

/-! ## Numbers and fields -/

theorem Segments.front_ofBytes (b : Bytes) : (Segments.ofBytes b).front = b := by
  cases b <;> rfl

theorem VarInt.reads_decode {v : Nat} (h : v ≤ VarInt.max) (rest : Bytes) :
    VarInt.decode.Reads (VarInt.digits 3 v) rest v := by
  have hpeek : peek? (Segments.ofBytes (digits 3 v ++ rest)).front =
      .ok (some (v, (digits 3 v).length)) := by
    rw [Segments.front_ofBytes]
    exact peek?_digits h rest
  refine bind_eq_ok_iff.2 ⟨.ofBytes (digits 3 v ++ rest), _, rfl, ?_⟩
  dsimp only
  rw [hpeek]
  exact (reads_take (digits 3 v) rest).bind_pure

namespace Field

theorem reads_binary {b : Bytes} (h : b.length ≤ maxLength) (rest : Bytes) :
    Field.binary.Reads (prefixed b) rest b := by
  have hlen : (UInt16.ofNat b.length).toNat = b.length :=
    UInt16.toNat_ofNat_of_lt' (Nat.lt_succ_of_le h)
  have hhead : 2 ≤ (prefixed b ++ rest).length := by
    rw [List.length_append, length_prefixed]
    omega
  refine Reads.requireHas hhead _ ?_
  refine (reads_u16 (UInt16.ofNat b.length) (b ++ rest)).bind ?_
  rw [hlen]
  have hbody : b.length ≤ (b ++ rest).length := by
    rw [List.length_append]
    exact Nat.le_add_right _ _
  exact (reads_has_of_le hbody).look (reads_take b rest)

theorem reads_text {s : String} (h : s.utf8ByteSize ≤ maxLength) (rest : Bytes) :
    Field.text.Reads (prefixed (Utf8.encode s)) rest s := by
  refine (reads_binary (b := Utf8.encode s) h rest).last ?_
  rw [Utf8.decode?_encode]
  exact reads_pure s rest

end Field

end Mqtt
