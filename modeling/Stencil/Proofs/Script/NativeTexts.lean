import Stencil.Proofs.Number.Numerals
import Stencil.Proofs.Script.Steps
import Stencil.Proofs.Script.StringLength
import Stencil.Proofs.Text.Percent
import Stencil.Script.Method.Dispatch

/-! # Texts that native functions write and read

The method `toString` of numbers takes a base.  For an integer and a base from two to thirty-six,
ten apart, it answers the numeral of the integer in that base if the magnitude is below `2 ^ 128`.
From there on it answers the numeral of `2 ^ 128 - 1`, with the sign of the integer
(`Eval.integer_in_base`).

A script codes a text for an address with one built-in function and reads a coded text with another
one.  **What is written is read as it was** (`Eval.component_round_trip`): every byte is written as
an unreserved character or as a percent sign with two digits in upper case.  **A text is read if and
only if all its percent signs are escapes and its bytes are those of a text**
(`Eval.component_read_iff`).  An escape is more than a percent sign in front of two digits: the first
of the two characters may be a plus sign.
-/

/-! ## Numbers in a base -/

namespace Stencil.Script.Eval
open Stencil.Number (Denotes capped exactValue? exactValue?_eq_integer_iff radixText
  radixText_denotes toCount)
open Value (argument)

variable {x : Float} {i : Int} {args : List Value} {base : Nat}

/-- A base that is missing counts nothing, so it is none of those in which numbers are written. -/
theorem ofNumber_toString (hcount : toCount (argument args 0).toNumber = base) (hbase : 2 ≤ base) :
    Method.ofNumber x "toString" args = some (.string (radixText x base)) := by
  have hmissing : toCount (Value.toNumber .undefined) = 0 := by decide
  simp only [Method.ofNumber]
  split
  · rename_i h
    rw [h, hmissing] at hcount
    omega
  · rw [hcount]

/-- **An integer in a base.**  The text is the numeral of the integer after its magnitude was
capped, so it is that of the integer itself if and only if the magnitude is below `2 ^ 128`. -/
theorem integer_in_base (c : Context) (m : Machine) (call : Call)
    (hx : exactValue? x = some (i : ℚ)) (hcount : toCount (argument args 0).toNumber = base)
    (hbase : 2 ≤ base) (hsmall : base ≤ 36) (hten : base ≠ 10) :
    ∃ text, outcome c m (Method.invoke call (.number x) "toString" args) =
        (.ok (some (.string text)), m) ∧
      Denotes base (capped i) text ∧ (Denotes base i text ↔ i.natAbs < 2 ^ 128) := by
  have hdenotes := radixText_denotes hx hbase hsmall hten
  refine ⟨radixText x base, ?_, hdenotes, ?_⟩
  · rw [Method.invoke, ofNumber_toString hcount hbase, outcome_pure]
  · rw [← Number.capped_eq_self_iff]
    exact ⟨fun h => hdenotes.unique h, fun h => h ▸ hdenotes⟩

/-- In base sixteen, `-255` is written as its numeral. -/
theorem integer_in_base_negative :
    let c : Context := { budget := { limit := 5000 } }
    let m : Machine := { next := Globals.firstIdentity }
    exactValue? (-255) = some ((-255 : Int) : ℚ) ∧
      toCount (argument [.number 16] 0).toNumber = 16 ∧
      ∃ text, outcome c m (Method.invoke (callGiven (enter 1)) (.number (-255)) "toString"
          [.number 16]) = (.ok (some (.string text)), m) ∧ Denotes 16 (-255) text := by
  intro c m
  have hx : exactValue? (-255) = some ((-255 : Int) : ℚ) :=
    exactValue?_eq_integer_iff.mpr ⟨by decide, by decide⟩
  have hcount : toCount (argument [.number 16] 0).toNumber = 16 := by decide
  obtain ⟨text, hrun, -, hexact⟩ := integer_in_base c m (callGiven (enter 1)) hx hcount
    (by decide) (by decide) (by decide)
  exact ⟨hx, hcount, text, hrun, hexact.mpr (by decide)⟩

/-- `2 ^ 128` is a number of scripts, and what is written for it in base sixteen is not its
numeral. -/
theorem great_integer_in_base :
    let x := Float.ofBits 0x47F0000000000000
    exactValue? x = some ((2 ^ 128 : Int) : ℚ) ∧
      Method.ofNumber x "toString" [.number 16] =
        some (.string "ffffffffffffffffffffffffffffffff") ∧
      ¬ Denotes 16 (2 ^ 128) "ffffffffffffffffffffffffffffffff" := by
  intro x
  have hx : exactValue? x = some ((2 ^ 128 : Int) : ℚ) :=
    exactValue?_eq_integer_iff.mpr ⟨by decide, by decide⟩
  have htext : radixText x 16 = "ffffffffffffffffffffffffffffffff" := by decide
  have hcount : toCount (argument [.number 16] 0).toNumber = 16 := by decide
  have hdenotes : Denotes 16 (capped (2 ^ 128)) (radixText x 16) :=
    radixText_denotes hx (by decide) (by decide) (by decide)
  rw [htext] at hdenotes
  refine ⟨hx, ?_, fun h => ?_⟩
  · rw [ofNumber_toString hcount (by decide), htext]
  · exact absurd (Number.capped_eq_self_iff.mp (hdenotes.unique h)) (by decide)

end Stencil.Script.Eval

/-! ## Components of addresses -/

namespace Stencil.Script.Eval
open Stencil.Text
open Stencil.Text.Percent (bytesOf Codes Escaped IsEscape IsPair IsWritten encode decode?)

variable (c : Context) (m : Machine) (call : Call)

theorem outcome_encodeComponent (s : String) :
    outcome c m (Native.run call (.builtin .encodeUriComponent) [.string s]) =
      (.ok (.string (encode s)), m) := by
  have harg : Value.argument [.string s] 0 = .string s := rfl
  simp only [Native.run, Native.runBuiltin, harg, Value.text_string, outcome_pure]

theorem outcome_decodeComponent (s : String) :
    outcome c m (Native.run call (.builtin .decodeUriComponent) [.string s]) =
      match decode? s with
      | some t => (.ok (.string t), m)
      | none => (.error (.wrongType "URI malformed"), m) := by
  have harg : Value.argument [.string s] 0 = .string s := rfl
  simp only [Native.run, Native.runBuiltin, harg, Value.text_string]
  cases decode? s <;> rfl

/-- **What is coded is read as it was.**  The coded text consists of one piece for each byte of the
text: an unreserved character, or a percent sign and two hexadecimal digits in upper case. -/
theorem component_round_trip (s : String) :
    ∃ coded : String,
      outcome c m (Native.run call (.builtin .encodeUriComponent) [.string s]) =
        (.ok (.string coded), m) ∧
      outcome c m (Native.run call (.builtin .decodeUriComponent) [.string coded]) =
        (.ok (.string s), m) ∧
      ∃ pieces : List (List Char), coded.toList = pieces.flatten ∧
        (∀ piece ∈ pieces, IsWritten piece) ∧ pieces.length = (bytesOf s).length := by
  have hread : decode? (encode s) = some s :=
    Percent.decode?_eq_some_iff.mpr (Percent.codes_encode s)
  refine ⟨encode s, outcome_encodeComponent c m call s, ?_,
    (bytesOf s).map Percent.encodeByte, ?_, ?_, List.length_map _⟩
  · rw [outcome_decodeComponent, hread]
  · rw [encode, String.toList_ofList, List.flatMap_def, bytesOf]
  · intro piece hpiece
    obtain ⟨x, -, rfl⟩ := List.mem_map.mp hpiece
    exact Percent.isWritten_encodeByte x

/-- **Which texts are read.**  The text is read if all its percent signs are escapes and the bytes
that it stands for are those of a text, and the answer is that text; otherwise the call fails.  All
its percent signs stand in front of two digits if and only if all are escapes and none stands in
front of a plus sign. -/
theorem component_read_iff (s : String) :
    (∀ t, outcome c m (Native.run call (.builtin .decodeUriComponent) [.string s]) =
        (.ok (.string t), m) ↔ Escaped IsEscape s.toList ∧ Codes s.toList (bytesOf t)) ∧
      (outcome c m (Native.run call (.builtin .decodeUriComponent) [.string s]) =
        (.error (.wrongType "URI malformed"), m) ↔
          ¬ (Escaped IsEscape s.toList ∧ ∃ t, Codes s.toList (bytesOf t))) ∧
      ((∃! bytes, Codes s.toList bytes) ↔ Escaped IsEscape s.toList) ∧
      (Escaped IsPair s.toList ↔ Escaped IsEscape s.toList ∧ ¬ ['%', '+'] <:+: s.toList) := by
  have haccepted (t : String) :
      decode? s = some t ↔ Escaped IsEscape s.toList ∧ Codes s.toList (bytesOf t) := by
    rw [Percent.decode?_eq_some_iff]
    exact ⟨fun h => ⟨h.escaped, h⟩, fun h => h.2⟩
  simp only [outcome_decodeComponent]
  refine ⟨fun t => ?_, ?_, Percent.existsUnique_codes_iff, Percent.escaped_isPair_iff⟩
  · rw [← haccepted]
    cases decode? s <;> simp
  · simp only [← exists_and_left, ← haccepted]
    cases decode? s <;> simp

/-- A percent sign, a plus sign and one digit are read as the character with the number of the
digit, although only one of the two characters behind the percent sign is a digit. -/
theorem component_signed_escape :
    let c : Context := { budget := { limit := 5000 } }
    let m : Machine := { next := Globals.firstIdentity }
    outcome c m (Native.run (callGiven (enter 1)) (.builtin .decodeUriComponent)
        [.string "%+1"]) = (.ok (.string "\u0001"), m) ∧
      ¬ Escaped IsPair "%+1".toList := by
  intro c m
  have htext : "%+1".toList = ['%', '+', '1'] := by decide
  have hcodes : Codes "%+1".toList (bytesOf "\u0001") := by
    rw [htext]
    exact .signed (y := 1) rfl .nil
  have hread : decode? "%+1" = some "\u0001" := Percent.decode?_eq_some_iff.mpr hcodes
  refine ⟨by rw [outcome_decodeComponent, hread], fun h => ?_⟩
  exact (Percent.escaped_isPair_iff.mp h).2 ⟨[], ['1'], htext.symm⟩

end Stencil.Script.Eval
