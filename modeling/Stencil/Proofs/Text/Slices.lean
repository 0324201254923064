import Stencil.Text.Bytes

/-! # Bytes and slices of a text

A slice is what stands between two byte offsets.  There is one only if both are character boundaries
of the text and neither is behind the other or behind the end (`slice?_eq_some`); to take any other
slice is an error.

The bytes of a text are read as characters again, each byte as the character with that number, so
that what goes through characters can go through bytes.  A character of ASCII is its only byte, and
the bytes of other characters are none of ASCII (`not_isAscii_of_mem`).
-/
namespace Stencil.Text

theorem splitAtByte?_go_eq_some {seen cs a b : List Char} {n : Nat}
    (h : splitAtByte?.go seen cs n = some (a, b)) :
    ∃ u, a = seen.reverse ++ u ∧ cs = u ++ b ∧ n = byteLength u := by
  fun_induction splitAtByte?.go seen cs n with
  | case1 =>
    cases h
    exact ⟨[], (List.append_nil _).symm, rfl, rfl⟩
  | case2 => cases h
  | case3 seen c cs n hle ih =>
    obtain ⟨u, rfl, rfl, hlength⟩ := ih h
    refine ⟨c :: u, by simp, rfl, ?_⟩
    rw [byteLength_cons]
    omega
  | case4 => cases h

/-- A text is cut where one of its initial parts ends. -/
theorem splitAtByte?_eq_some {cs a b : List Char} {n : Nat} :
    splitAtByte? cs n = some (a, b) ↔ cs = a ++ b ∧ n = byteLength a := by
  constructor
  · intro h
    obtain ⟨u, rfl, hcs, hn⟩ := splitAtByte?_go_eq_some h
    exact ⟨hcs, hn⟩
  · rintro ⟨rfl, rfl⟩
    exact splitAtByte?_append a b

/-- Initial parts of the same size are the same. -/
theorem append_inj_of_byteLength {a b a' b' : List Char} (h : a ++ b = a' ++ b')
    (hlength : byteLength a = byteLength a') : a = a' ∧ b = b' := by
  have hsplit := splitAtByte?_append a b
  rw [h, hlength, splitAtByte?_append] at hsplit
  exact ⟨(congrArg Prod.fst (Option.some.inj hsplit)).symm,
    (congrArg Prod.snd (Option.some.inj hsplit)).symm⟩

/-- What is left behind an initial part of a text. -/
theorem dropBytes_append (a b : List Char) : dropBytes (a ++ b) (byteLength a) = b := by
  induction a with
  | nil => cases b <;> rfl
  | cons c a ih =>
    obtain ⟨k, hk⟩ := Nat.exists_eq_add_of_lt (Char.utf8Size_pos c)
    have hlength : byteLength (c :: a) = k + byteLength a + 1 := by
      rw [byteLength_cons]
      omega
    rw [List.cons_append, hlength, dropBytes, ← hlength, byteLength_cons, Nat.add_sub_cancel_left]
    exact ih

/-- Of two initial parts of a text, one goes on where the other ends. -/
theorem exists_append_of_byteLength_le {a b a' b' : List Char} (h : a ++ b = a' ++ b')
    (hlength : byteLength a ≤ byteLength a') : ∃ u, a' = a ++ u ∧ b = u ++ b' := by
  obtain ⟨u, ha, hb⟩ | ⟨u, ha, hb⟩ := List.append_eq_append_iff.mp h
  · exact ⟨u, ha, hb⟩
  · cases u with
    | nil => exact ⟨[], by rw [ha, List.append_nil, List.append_nil], hb.symm⟩
    | cons c u =>
      have hc := Char.utf8Size_pos c
      rw [ha, byteLength_append, byteLength_cons] at hlength
      omega

/-- Whether a byte offset is a character boundary of a text. -/
def IsBoundary (cs : List Char) (n : Nat) : Prop :=
  (splitAtByte? cs n).isSome
  deriving Decidable

theorem isBoundary_iff {cs : List Char} {n : Nat} :
    IsBoundary cs n ↔ ∃ a b, cs = a ++ b ∧ n = byteLength a := by
  simp only [IsBoundary, Option.isSome_iff_exists, Prod.exists, splitAtByte?_eq_some]

/-- What stands between two byte offsets. -/
def slice? (cs : List Char) (i j : Nat) : Option (List Char) :=
  match splitAtByte? cs i with
  | some (_, rest) => if i ≤ j then (splitAtByte? rest (j - i)).map Prod.fst else none
  | none => none

theorem slice?_eq_some {cs u : List Char} {i j : Nat} :
    slice? cs i j = some u ↔
      ∃ front back, cs = front ++ u ++ back ∧ i = byteLength front ∧ j = i + byteLength u := by
  constructor
  · intro h
    unfold slice? at h
    split at h
    · rename_i front rest hsplit
      split at h
      · obtain ⟨⟨u', back⟩, hrest, rfl⟩ := Option.map_eq_some_iff.mp h
        obtain ⟨rfl, hfront⟩ := splitAtByte?_eq_some.mp hsplit
        obtain ⟨rfl, hlength⟩ := splitAtByte?_eq_some.mp hrest
        exact ⟨front, back, (List.append_assoc ..).symm, hfront, by dsimp only; omega⟩
      · cases h
    · cases h
  · rintro ⟨front, back, rfl, rfl, rfl⟩
    rw [slice?, List.append_assoc, splitAtByte?_append]
    simp [splitAtByte?_append]

/-- The slice up to the end. -/
theorem slice?_end (front u : List Char) :
    slice? (front ++ u) (byteLength front) (byteLength (front ++ u)) = some u :=
  slice?_eq_some.mpr ⟨front, [], by rw [List.append_nil], rfl, byteLength_append front u⟩

/-! ## Bytes as characters -/

/-- The bytes of a character, each as the character with that number. -/
def octetsOf (c : Char) : List Char :=
  (String.utf8EncodeChar c).map fun b => Char.ofNat b.toNat

/-- The bytes of a text, each as the character with that number. -/
def octets (cs : List Char) : List Char :=
  cs.flatMap octetsOf

/-- Whether a character belongs to ASCII. -/
def IsAscii (c : Char) : Prop :=
  c.toNat < 128
  deriving Decidable

variable {c b : Char} {cs a u : List Char} {n : Nat}

theorem octets_cons (c : Char) (cs : List Char) : octets (c :: cs) = octetsOf c ++ octets cs :=
  rfl

theorem octets_append (a u : List Char) : octets (a ++ u) = octets a ++ octets u :=
  List.flatMap_append

theorem length_octetsOf (c : Char) : (octetsOf c).length = c.utf8Size := by
  rw [octetsOf, List.length_map, String.length_utf8EncodeChar]

theorem exists_octetsOf (c : Char) : ∃ b u, octetsOf c = b :: u := by
  refine List.exists_cons_of_length_pos ?_
  rw [length_octetsOf]
  exact Char.utf8Size_pos c

theorem length_octets (cs : List Char) : (octets cs).length = byteLength cs := by
  induction cs with
  | nil => rfl
  | cons c cs ih => rw [octets_cons, List.length_append, length_octetsOf, ih, byteLength_cons]

theorem octetsOf_eq_singleton (h : IsAscii c) : octetsOf c = [c] := by
  have hle : c.val.toNat ≤ 127 := Nat.le_of_lt_succ h
  have hbyte : (UInt8.ofNat c.val.toNat).toNat = c.toNat := by
    rw [UInt8.toNat_ofNat']
    exact Nat.mod_eq_of_lt (Nat.lt_of_le_of_lt hle (by decide))
  unfold octetsOf String.utf8EncodeChar
  dsimp only
  rw [if_pos hle, List.map_singleton, hbyte, Char.ofNat_toNat]

theorem octets_eq_self (h : ∀ c ∈ cs, IsAscii c) : octets cs = cs := by
  induction cs with
  | nil => rfl
  | cons c cs ih =>
    obtain ⟨hc, hcs⟩ := List.forall_mem_cons.mp h
    rw [octets_cons, octetsOf_eq_singleton hc, ih hcs]
    rfl

/-- The character with the number of a byte. -/
theorem toNat_ofNat_byte (x : UInt8) : (Char.ofNat x.toNat).toNat = x.toNat := by
  have hvalid : x.toNat.isValidChar := .inl (Nat.lt_trans x.toNat_lt (by decide))
  rw [Char.ofNat, dif_pos hvalid]
  rfl

/-- No byte of a character outside of ASCII is a character of ASCII. -/
theorem not_isAscii_of_mem (h : ¬ IsAscii c) (hb : b ∈ octetsOf c) : ¬ IsAscii b := by
  obtain ⟨x, hx, rfl⟩ := List.mem_map.mp hb
  have hlt : 127 < c.val.toNat := Nat.lt_of_succ_le (Nat.not_lt.mp h)
  -- every byte is what is left of a number by some of its bits, with a mark above them
  have hmark (n k m : Nat) (hsize : 0 < k ∧ 128 ≤ m ∧ k + m ≤ 256)
      (hx : x = UInt8.ofNat (n % k + m)) : ¬ IsAscii (Char.ofNat x.toNat) := by
    have hmod := Nat.mod_lt n hsize.1
    rw [IsAscii, toNat_ofNat_byte, hx, UInt8.toNat_ofNat', Nat.mod_eq_of_lt (by omega)]
    omega
  unfold String.utf8EncodeChar at hx
  dsimp only at hx
  rw [if_neg (Nat.not_le_of_lt hlt)] at hx
  split at hx
  · simp only [List.mem_cons, List.not_mem_nil, or_false] at hx
    rcases hx with hx | hx <;> exact hmark _ _ _ (by decide) hx
  · split at hx
    · simp only [List.mem_cons, List.not_mem_nil, or_false] at hx
      rcases hx with hx | hx | hx <;> exact hmark _ _ _ (by decide) hx
    · simp only [List.mem_cons, List.not_mem_nil, or_false] at hx
      rcases hx with hx | hx | hx | hx <;> exact hmark _ _ _ (by decide) hx

/-- Behind a number of bytes, what is left of a character stands before the characters that follow. -/
theorem drop_octets (cs : List Char) (n : Nat) :
    ∃ u, (octets cs).drop n = u ++ octets (dropBytes cs n) ∧ (∀ b ∈ u, ¬ IsAscii b) ∧
      (dropBytes cs n ≠ [] → n + u.length + byteLength (dropBytes cs n) = byteLength cs) := by
  induction cs generalizing n with
  | nil => cases n <;> exact ⟨[], rfl, List.forall_mem_nil _, fun h => absurd rfl h⟩
  | cons c cs ih =>
    cases n with
    | zero => exact ⟨[], rfl, List.forall_mem_nil _, fun _ => Nat.zero_add _⟩
    | succ n =>
      rw [octets_cons, dropBytes]
      by_cases hle : c.utf8Size ≤ n + 1
      · obtain ⟨u, hdrop, hu, hlength⟩ := ih (n + 1 - c.utf8Size)
        refine ⟨u, ?_, hu, fun hne => ?_⟩
        · rw [List.drop_append, length_octetsOf, hdrop, List.drop_eq_nil_of_le, List.nil_append]
          rwa [length_octetsOf]
        · have hlength := hlength hne
          rw [byteLength_cons]
          omega
      · -- only characters of more than one byte have an inside
        have hc : ¬ IsAscii c := fun hc => by
          have hsize := length_octetsOf c
          rw [octetsOf_eq_singleton hc, List.length_singleton] at hsize
          omega
        rw [Nat.sub_eq_zero_of_le (Nat.le_of_not_le hle)]
        refine ⟨(octetsOf c).drop (n + 1), ?_, fun b hb => ?_, fun _ => ?_⟩
        · rw [List.drop_append_of_le_length]
          · cases cs <;> rfl
          · rw [length_octetsOf]
            exact Nat.le_of_not_le hle
        · exact not_isAscii_of_mem hc (List.mem_of_mem_drop hb)
        · have hdrop : dropBytes cs 0 = cs := by cases cs <;> rfl
          rw [hdrop, List.length_drop, length_octetsOf, byteLength_cons]
          omega

end Stencil.Text
