import Stencil.Number.Read

/-! # Digits and what they are worth

Digits are read in either case and written in lower case; a digit that is written is read as the
value for which it was written (`digitValue?_digitChar`).  The numeral of a number of any length is
worth what its digits are worth one after the other (`natOfDigits_concat`).
-/
namespace Stencil.Text
variable {base n : Nat} {c : Char}

/-- The digits of hexadecimal numbers. -/
def IsHexDigit (c : Char) : Prop :=
  ('0' ≤ c ∧ c ≤ '9') ∨ ('A' ≤ c ∧ c ≤ 'F') ∨ ('a' ≤ c ∧ c ≤ 'f')
  deriving Decidable

/-- The digits of hexadecimal numbers that are written in upper case. -/
def IsUpperHexDigit (c : Char) : Prop :=
  ('0' ≤ c ∧ c ≤ '9') ∨ ('A' ≤ c ∧ c ≤ 'F')
  deriving Decidable

theorem digitValue?_lt (h : digitValue? base c = some n) : n < base := by
  obtain ⟨-, hlt⟩ := Option.filter_eq_some_iff.mp h
  exact of_decide_eq_true hlt

/-- A digit is worth the same in every base that has it. -/
theorem digitValue?_of_lt {base' : Nat} (h : digitValue? base' c = some n) (hn : n < base) :
    digitValue? base c = some n := by
  obtain ⟨hvalue, -⟩ := Option.filter_eq_some_iff.mp h
  exact Option.filter_eq_some_iff.mpr ⟨hvalue, decide_eq_true hn⟩

/-- A digit that is written is read as what it was written for. -/
theorem digitValue?_digitChar (hn : n < base) (hbase : base ≤ 36) :
    digitValue? base (digitChar n) = some n := by
  have hall : ∀ n < 36, digitValue? 36 (digitChar n) = some n := by decide
  exact digitValue?_of_lt (hall n (Nat.lt_of_lt_of_le hn hbase)) hn

theorem le_iff_toNat_le {a b : Char} : a ≤ b ↔ a.toNat ≤ b.toNat :=
  UInt32.le_iff_toNat_le

theorem isHexDigit_iff : IsHexDigit c ↔ ∃ n, digitValue? 16 c = some n := by
  unfold IsHexDigit digitValue?
  simp only [le_iff_toNat_le, Option.filter_eq_some_iff, decide_eq_true_eq, Char.reduceToNat]
  constructor
  · intro h
    split
    · exact ⟨_, rfl, by omega⟩
    · split
      · exact ⟨_, rfl, by omega⟩
      · rw [if_pos (by omega)]
        exact ⟨_, rfl, by omega⟩
  · rintro ⟨n, hvalue, hn⟩
    split at hvalue
    · omega
    · split at hvalue
      · cases hvalue
        omega
      · split at hvalue
        · cases hvalue
          omega
        · cases hvalue

end Stencil.Text

namespace Stencil.Number

@[simp]
theorem natOfDigits_nil (base : Nat) : natOfDigits base [] = 0 := rfl

/-- One more digit makes the number greater by the base. -/
theorem natOfDigits_concat {base n : Nat} {c : Char} (h : Text.digitValue? base c = some n)
    (cs : List Char) : natOfDigits base (cs ++ [c]) = natOfDigits base cs * base + n := by
  rw [natOfDigits, List.foldl_append, List.foldl_cons, List.foldl_nil, h]
  rfl

end Stencil.Number
