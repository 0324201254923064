import Mathlib.Data.Nat.Digits.Lemmas
import Stencil.Number.Radix
import Stencil.Proofs.Number.Exact
import Stencil.Proofs.Text.Digits

/-! # Numerals of integers

The numeral of an integer in a base is a minus sign for a negative number, then digits that are
worth its magnitude, without zeros in front (`Denotes`).  A text is the numeral of one integer at
most (`Denotes.unique`).

`radixDigits` divides by the base again and again: it finds the digits of the theory of natural
numbers, last digit first (`radixDigits_eq`).  Its fuel is the number of binary digits, and no base
needs more.  `radixText` caps the magnitude before it divides, so its text is the numeral of the
integer of the same sign and the capped magnitude (`radixText_denotes`).
-/
namespace Stencil.Number
open Text (digitChar digitValue? digitValue?_digitChar)

variable {base n : Nat} {i : Int}

/-- The digits of a natural number in a base, with no zero in front of others. -/
structure IsNumeral (base n : Nat) (ds : List Char) : Prop where
  ne_nil : ds ≠ []
  digits : ∀ c ∈ ds, ∃ d, digitValue? base c = some d
  value : natOfDigits base ds = n
  leading : ds.head? = some '0' → ds = ['0']

/-- A text that is the numeral of an integer in a base. -/
def Denotes (base : Nat) (i : Int) (text : String) : Prop :=
  ∃ ds, IsNumeral base i.natAbs ds ∧ text = signed (decide (i < 0)) ds

theorem IsNumeral.head_ne_minus {ds : List Char} (h : IsNumeral base n ds) (cs : List Char) :
    ds ≠ '-' :: cs := by
  rintro rfl
  obtain ⟨d, hd⟩ := h.digits '-' List.mem_cons_self
  cases hd

/-- **A numeral denotes one integer.** -/
theorem Denotes.unique {j : Int} {text : String} (hi : Denotes base i text)
    (hj : Denotes base j text) : i = j := by
  obtain ⟨ds, hds, rfl⟩ := hi
  obtain ⟨es, hes, htext⟩ := hj
  have hchars := String.ofList_injective htext
  have hmagnitude (h : ds = es) : i.natAbs = j.natAbs := by rw [← hds.value, ← hes.value, h]
  by_cases hineg : i < 0 <;> by_cases hjneg : j < 0 <;> simp only [hineg, hjneg] at hchars
  · have := hmagnitude (List.tail_eq_of_cons_eq hchars)
    omega
  · exact absurd hchars.symm (hes.head_ne_minus ds)
  · exact absurd hchars (hds.head_ne_minus es)
  · have := hmagnitude hchars
    omega

/-! ## Digits by repeated division -/

theorem radixDigits_go_eq (hbase : 2 ≤ base) (fuel n : Nat) (found : List Char)
    (hn : n < base ^ fuel) :
    radixDigits.go base n found fuel = (Nat.digits base n).reverse.map digitChar ++ found := by
  induction fuel generalizing n found with
  | zero =>
    obtain rfl : n = 0 := by simpa using hn
    simp [radixDigits.go]
  | succ fuel ih =>
    rw [radixDigits.go]
    split
    · rename_i hzero
      simp [hzero]
    · rename_i hzero
      have hrest : n / base < base ^ fuel := Nat.div_lt_of_lt_mul (by rwa [← pow_succ'])
      rw [ih _ _ hrest, Nat.digits_def' hbase (Nat.pos_of_ne_zero hzero)]
      simp

/-- The digits are those of the theory of natural numbers, most significant first. -/
theorem radixDigits_eq (hbase : 2 ≤ base) (n : Nat) :
    radixDigits base n = (Nat.digits base n).reverse.map digitChar := by
  have hfuel : n < base ^ (n.log2 + 1) :=
    calc n < 2 ^ (n.log2 + 1) := Nat.lt_log2_self
      _ ≤ base ^ (n.log2 + 1) := Nat.pow_le_pow_left hbase _
  rw [radixDigits, radixDigits_go_eq hbase _ _ _ hfuel, List.append_nil]

/-- Digits that are written are read as the number that they make up. -/
theorem natOfDigits_map_digitChar (hbase : base ≤ 36) (ds : List Nat) (hds : ∀ d ∈ ds, d < base) :
    natOfDigits base (ds.reverse.map digitChar) = Nat.ofDigits base ds := by
  induction ds with
  | nil => rfl
  | cons d ds ih =>
    obtain ⟨hd, hds⟩ := List.forall_mem_cons.mp hds
    rw [List.reverse_cons, List.map_append, List.map_singleton,
      natOfDigits_concat (digitValue?_digitChar hd hbase), ih hds, Nat.ofDigits_cons, Nat.add_comm,
      Nat.mul_comm]

theorem digitChar_eq_zero_iff (hn : n < 36) : digitChar n = '0' ↔ n = 0 := by
  have hall : ∀ n < 36, digitChar n = '0' ↔ n = 0 := by decide
  exact hall n hn

/-- Repeated division writes the numeral of every number but zero. -/
theorem isNumeral_radixDigits (hbase : 2 ≤ base) (hsmall : base ≤ 36) (hn : n ≠ 0) :
    IsNumeral base n (radixDigits base n) := by
  have hlt (d : Nat) (hd : d ∈ Nat.digits base n) : d < base := Nat.digits_lt_base hbase hd
  have hne : Nat.digits base n ≠ [] := Nat.digits_ne_nil_iff_ne_zero.mpr hn
  rw [radixDigits_eq hbase]
  refine ⟨by simpa using hne, ?_, ?_, ?_⟩
  · intro c hc
    obtain ⟨d, hd, rfl⟩ := List.mem_map.mp hc
    exact ⟨d, digitValue?_digitChar (hlt d (List.mem_reverse.mp hd)) hsmall⟩
  · rw [natOfDigits_map_digitChar hsmall _ hlt, Nat.ofDigits_digits]
  · -- The digit in front is the last one that division finds, which is not zero.
    intro hhead
    have hlast := hlt _ (List.getLast_mem hne)
    rw [List.head?_map, List.head?_reverse, List.getLast?_eq_some_getLast hne, Option.map_some,
      Option.some_inj, digitChar_eq_zero_iff (by omega)] at hhead
    exact absurd hhead (Nat.getLast_digit_ne_zero base hn)

theorem isNumeral_zero (hbase : 2 ≤ base) : IsNumeral base 0 ['0'] := by
  have hdigit : digitValue? 36 '0' = some 0 := by decide
  have hzero : digitValue? base '0' = some 0 := Text.digitValue?_of_lt hdigit (by omega)
  refine ⟨List.cons_ne_nil _ _, ?_, ?_, fun _ => rfl⟩
  · simp [hzero]
  · simpa using natOfDigits_concat hzero []

/-! ## The text of a number -/

/-- The integer that is written for a given one: the nearest of those whose magnitude is at most the
greatest that is written. -/
def capped (i : Int) : Int :=
  max (-radixCeiling) (min i radixCeiling)

theorem radixCeiling_eq : radixCeiling = 2 ^ 128 - 1 := rfl

theorem natAbs_capped (i : Int) : (capped i).natAbs = min i.natAbs radixCeiling := by
  unfold capped
  omega

theorem capped_lt_zero_iff : capped i < 0 ↔ i < 0 := by
  have := radixCeiling_eq
  unfold capped
  omega

theorem capped_eq_self_iff : capped i = i ↔ i.natAbs < 2 ^ 128 := by
  have := radixCeiling_eq
  unfold capped
  omega

/-- **What is written in a base.** -/
theorem radixText_denotes {x : Float} (hx : exactValue? x = some (i : ℚ)) (hbase : 2 ≤ base)
    (hsmall : base ≤ 36) (hten : base ≠ 10) : Denotes base (capped i) (radixText x base) := by
  obtain ⟨hinteger, htruncate⟩ := exactValue?_eq_integer_iff.mp hx
  have hdecimal : (base < 2 || 36 < base || base == 10 || !isInteger x) = false := by
    simp [hinteger, hten, hsmall, Nat.lt_of_succ_le hbase]
  have hsign : decide (x < 0) = decide (capped i < 0) := by
    simp [lt_zero_iff hx, capped_lt_zero_iff]
  rw [radixText, hdecimal, htruncate, ← natAbs_capped]
  simp only [Bool.false_eq_true, if_false]
  split
  · rename_i hzero
    have hcapped : capped i = 0 := Int.natAbs_eq_zero.mp hzero
    exact ⟨['0'], by simpa [hcapped] using isNumeral_zero hbase, by rw [hcapped]; rfl⟩
  · rename_i hzero
    exact ⟨_, isNumeral_radixDigits hbase hsmall hzero, by rw [hsign]⟩

end Stencil.Number
