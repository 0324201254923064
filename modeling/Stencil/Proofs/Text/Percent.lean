import Mathlib.Data.List.TakeDrop
import Mathlib.Logic.ExistsUnique
import Stencil.Proofs.Text.Digits
import Stencil.Proofs.Text.Slices
import Stencil.Text.Percent

/-! # Texts coded with percent signs

In a **coded** text an escape stands for one byte and any other character for the bytes that it has
itself (`Codes`).  An escape is a percent sign with two hexadecimal digits behind it, or with a plus
sign and one digit.

A text is read if all its percent signs are escapes and the bytes it stands for are those of a text
(`decode?_eq_some_iff`, `existsUnique_codes_iff`).  A text that is written is coded, and stands for
the bytes of what it was written for (`codes_encode`), so it is read as that.
-/
namespace Stencil.Text.Percent
variable {a b c : Char} {cs front : List Char} {bytes done all : List UInt8} {n : Nat}

/-- The bytes of a text. -/
def bytesOf (s : String) : List UInt8 :=
  s.toList.flatMap String.utf8EncodeChar

/-- What characters of a coded text stand for. -/
inductive Codes : List Char → List UInt8 → Prop
  | nil : Codes [] []
  | plain {c : Char} {cs : List Char} {bytes : List UInt8} (hc : c ≠ '%') (h : Codes cs bytes) :
    Codes (c :: cs) (String.utf8EncodeChar c ++ bytes)
  | pair {a b : Char} {x y : Nat} {cs : List Char} {bytes : List UInt8}
    (ha : digitValue? 16 a = some x) (hb : digitValue? 16 b = some y) (h : Codes cs bytes) :
    Codes ('%' :: a :: b :: cs) ((16 * x + y).toUInt8 :: bytes)
  | signed {b : Char} {y : Nat} {cs : List Char} {bytes : List UInt8}
    (hb : digitValue? 16 b = some y) (h : Codes cs bytes) :
    Codes ('%' :: '+' :: b :: cs) (y.toUInt8 :: bytes)

/-- Two hexadecimal digits. -/
def IsPair (a b : Char) : Prop :=
  IsHexDigit a ∧ IsHexDigit b

/-- What makes an escape of a percent sign. -/
def IsEscape (a b : Char) : Prop :=
  IsPair a b ∨ (a = '+' ∧ IsHexDigit b)

/-- Behind each percent sign stand two characters that are as required. -/
def Escaped (required : Char → Char → Prop) (cs : List Char) : Prop :=
  ∀ front back, cs = front ++ '%' :: back → ∃ a b rest, back = a :: b :: rest ∧ required a b

/-! ## Reading -/

section TwoCharacters
variable {x y : Nat}

theorem readBounded?_pair (ha : digitValue? 16 a = some x) (hb : digitValue? 16 b = some y) :
    Number.readBounded? 16 256 [a, b] = some (16 * x + y) := by
  have hplus : a ≠ '+' := by
    rintro rfl
    cases ha
  have hvalue : Number.natOfDigits 16 [a, b] = 16 * x + y := by
    simp [Number.natOfDigits, ha, hb, Nat.mul_comm]
  have hlt : 16 * x + y < 256 := by
    have hx := digitValue?_lt ha
    have hy := digitValue?_lt hb
    omega
  simp [Number.readBounded?, Number.spanDigits, List.span_eq_takeWhile_dropWhile, ha, hb, hplus,
    hvalue, hlt]

theorem readBounded?_signed (hb : digitValue? 16 b = some y) :
    Number.readBounded? 16 256 ['+', b] = some y := by
  have hvalue : Number.natOfDigits 16 [b] = y := by simp [Number.natOfDigits, hb]
  have hlt : y < 256 := Nat.lt_trans (digitValue?_lt hb) (by decide)
  simp [Number.readBounded?, Number.spanDigits, List.span_eq_takeWhile_dropWhile, hb, hvalue, hlt]

/-- The number of two characters is that of two digits, or that of one behind a plus sign. -/
theorem readBounded?_eq_some_iff :
    Number.readBounded? 16 256 [a, b] = some n ↔
      (∃ x y, digitValue? 16 a = some x ∧ digitValue? 16 b = some y ∧ n = 16 * x + y) ∨
        (a = '+' ∧ digitValue? 16 b = some n) := by
  constructor
  · intro h
    by_cases hplus : a = '+'
    · subst hplus
      cases hb : digitValue? 16 b with
      | none =>
        simp [Number.readBounded?, Number.spanDigits, List.span_eq_takeWhile_dropWhile, hb] at h
      | some y =>
        obtain rfl := Option.some.inj ((readBounded?_signed hb).symm.trans h)
        exact .inr ⟨rfl, rfl⟩
    · cases ha : digitValue? 16 a with
      | none =>
        simp [Number.readBounded?, Number.spanDigits, List.span_eq_takeWhile_dropWhile, ha,
          hplus] at h
      | some x =>
        cases hb : digitValue? 16 b with
        | none =>
          simp [Number.readBounded?, Number.spanDigits, List.span_eq_takeWhile_dropWhile, ha, hb,
            hplus] at h
        | some y =>
          obtain rfl := Option.some.inj ((readBounded?_pair ha hb).symm.trans h)
          exact .inl ⟨x, y, rfl, rfl, rfl⟩
  · rintro (⟨x, y, ha, hb, rfl⟩ | ⟨rfl, hb⟩)
    · exact readBounded?_pair ha hb
    · exact readBounded?_signed hb

end TwoCharacters

/-- A percent sign stands with the two characters behind it for the byte with their number. -/
theorem codes_escape_iff :
    Codes ('%' :: a :: b :: cs) all ↔ ∃ n bytes,
      Number.readBounded? 16 256 [a, b] = some n ∧ Codes cs bytes ∧ all = n.toUInt8 :: bytes := by
  constructor
  · intro h
    cases h with
    | plain hc => exact (hc rfl).elim
    | pair ha hb h =>
      exact ⟨_, _, readBounded?_eq_some_iff.mpr (.inl ⟨_, _, ha, hb, rfl⟩), h, rfl⟩
    | signed hb h => exact ⟨_, _, readBounded?_eq_some_iff.mpr (.inr ⟨rfl, hb⟩), h, rfl⟩
  · rintro ⟨n, bytes, hread, h, rfl⟩
    obtain ⟨x, y, ha, hb, rfl⟩ | ⟨rfl, hb⟩ := readBounded?_eq_some_iff.mp hread
    · exact .pair ha hb h
    · exact .signed hb h

theorem decodeBytes?_eq_some_iff :
    decodeBytes? done cs = some all ↔ ∃ bytes, Codes cs bytes ∧ all = done.reverse ++ bytes := by
  fun_induction decodeBytes? done cs with
  | case1 done =>
    rw [Option.some_inj]
    constructor
    · rintro rfl
      exact ⟨[], .nil, (List.append_nil _).symm⟩
    · rintro ⟨_, ⟨⟩, rfl⟩
      exact (List.append_nil _).symm
  | case2 done a b rest n hread ih =>
    simp only [ih, codes_escape_iff, hread, Option.some_inj, List.reverse_cons]
    constructor
    · rintro ⟨bytes, h, rfl⟩
      exact ⟨_, ⟨n, bytes, rfl, h, rfl⟩, List.append_assoc ..⟩
    · rintro ⟨_, ⟨_, bytes, rfl, h, rfl⟩, rfl⟩
      exact ⟨bytes, h, (List.append_assoc done.reverse [n.toUInt8] bytes).symm⟩
  | case3 done a b rest hread =>
    simp [codes_escape_iff, hread]
  | case4 done rest hshort =>
    refine iff_of_false nofun ?_
    rintro ⟨bytes, hcodes, -⟩
    cases hcodes with
    | plain hc => exact hc rfl
    | pair => exact hshort _ _ _ rfl
    | signed => exact hshort _ _ _ rfl
  | case5 done c rest hpair hc ih =>
    rw [ih, List.reverse_append, List.reverse_reverse]
    constructor
    · rintro ⟨bytes, hrest, rfl⟩
      exact ⟨_, .plain hc hrest, List.append_assoc _ _ _⟩
    · rintro ⟨bytes, hcodes, rfl⟩
      cases hcodes with
      | plain _ hrest => exact ⟨_, hrest, (List.append_assoc _ _ _).symm⟩
      | pair => exact (hc rfl).elim
      | signed => exact (hc rfl).elim

theorem fromUTF8?_eq_some_iff {s : String} :
    String.fromUTF8? ⟨bytes.toArray⟩ = some s ↔ bytes = bytesOf s := by
  have hbytes : s.toByteArray = ⟨(bytesOf s).toArray⟩ := by
    conv => lhs; rw [← String.ofList_toList (s := s), String.toByteArray_ofList]
    exact ByteArray.ext List.data_toByteArray
  constructor
  · intro h
    unfold String.fromUTF8? at h
    split at h
    · obtain rfl := Option.some.inj h
      exact congrArg (fun a : ByteArray => a.data.toList) hbytes
    · cases h
  · rintro rfl
    rw [← hbytes]
    exact dif_pos s.isValidUTF8

/-- **What a coded text is read as.** -/
theorem decode?_eq_some_iff {s t : String} :
    decode? s = some t ↔ Codes s.toList (bytesOf t) := by
  unfold decode?
  simp only [Option.bind_eq_some_iff, fromUTF8?_eq_some_iff]
  rw [exists_eq_right, decodeBytes?_eq_some_iff]
  simp

/-! ## Escapes -/

theorem escaped_nil (required : Char → Char → Prop) : Escaped required [] :=
  fun front _ h => by cases front <;> cases h

theorem escaped_cons {required : Char → Char → Prop} :
    Escaped required (c :: cs) ↔
      (c = '%' → ∃ a b rest, cs = a :: b :: rest ∧ required a b) ∧ Escaped required cs := by
  constructor
  · intro h
    exact ⟨fun hc => h [] cs (by rw [hc]; rfl),
      fun front back hcs => h (c :: front) back (by rw [hcs]; rfl)⟩
  · rintro ⟨hfirst, hrest⟩ front back hcs
    cases front with
    | nil =>
      obtain ⟨rfl, rfl⟩ := List.cons.inj hcs
      exact hfirst rfl
    | cons d front => exact hrest front back (List.cons.inj hcs).2

theorem isEscape_iff : IsEscape a b ↔ ∃ n, Number.readBounded? 16 256 [a, b] = some n := by
  simp only [IsEscape, IsPair, isHexDigit_iff, readBounded?_eq_some_iff]
  constructor
  · rintro (⟨⟨x, ha⟩, y, hb⟩ | ⟨ha, y, hb⟩)
    · exact ⟨_, .inl ⟨x, y, ha, hb, rfl⟩⟩
    · exact ⟨y, .inr ⟨ha, hb⟩⟩
  · rintro ⟨n, ⟨x, y, ha, hb, -⟩ | ⟨ha, hb⟩⟩
    · exact .inl ⟨⟨x, ha⟩, y, hb⟩
    · exact .inr ⟨ha, n, hb⟩

theorem IsHexDigit.ne_percent (h : IsHexDigit c) : c ≠ '%' := by
  rintro rfl
  exact absurd h (by decide)

theorem IsEscape.ne_percent (h : IsEscape a b) : a ≠ '%' ∧ b ≠ '%' := by
  obtain ⟨ha, hb⟩ | ⟨rfl, hb⟩ := h
  · exact ⟨IsHexDigit.ne_percent ha, IsHexDigit.ne_percent hb⟩
  · exact ⟨by decide, IsHexDigit.ne_percent hb⟩

/-- The two characters of an escape are no percent signs themselves. -/
theorem escaped_escape (h : IsEscape a b) :
    Escaped IsEscape ('%' :: a :: b :: cs) ↔ Escaped IsEscape cs := by
  obtain ⟨ha, hb⟩ := h.ne_percent
  rw [escaped_cons, escaped_cons, escaped_cons]
  exact ⟨fun hall => hall.2.2.2, fun hrest =>
    ⟨fun _ => ⟨a, b, cs, rfl, h⟩, fun heq => (ha heq).elim, fun heq => (hb heq).elim, hrest⟩⟩

theorem Codes.escaped (h : Codes cs bytes) : Escaped IsEscape cs := by
  induction h with
  | nil => exact escaped_nil _
  | plain hc _ ih => exact escaped_cons.mpr ⟨fun heq => (hc heq).elim, ih⟩
  | pair ha hb _ ih =>
    have hpair : IsPair _ _ := ⟨isHexDigit_iff.mpr ⟨_, ha⟩, isHexDigit_iff.mpr ⟨_, hb⟩⟩
    exact (escaped_escape (.inl hpair)).mpr ih
  | signed hb _ ih => exact (escaped_escape (.inr ⟨rfl, isHexDigit_iff.mpr ⟨_, hb⟩⟩)).mpr ih

theorem exists_codes : ∀ cs, Escaped IsEscape cs → ∃ bytes, Codes cs bytes
  | [], _ => ⟨[], .nil⟩
  | c :: cs, h => by
    by_cases hc : c = '%'
    · subst hc
      obtain ⟨a, b, rest, rfl, hescape⟩ := (escaped_cons.mp h).1 rfl
      obtain ⟨n, hread⟩ := isEscape_iff.mp hescape
      obtain ⟨bytes, hrest⟩ := exists_codes rest ((escaped_escape hescape).mp h)
      exact ⟨_, codes_escape_iff.mpr ⟨n, bytes, hread, hrest, rfl⟩⟩
    · obtain ⟨bytes, hrest⟩ := exists_codes cs (escaped_cons.mp h).2
      exact ⟨_, .plain hc hrest⟩
termination_by cs => cs.length

theorem Codes.unique {other : List UInt8} (h : Codes cs bytes) (h' : Codes cs other) :
    bytes = other := by
  have hread : decodeBytes? [] cs = some bytes := decodeBytes?_eq_some_iff.mpr ⟨bytes, h, rfl⟩
  have hread' : decodeBytes? [] cs = some other := decodeBytes?_eq_some_iff.mpr ⟨other, h', rfl⟩
  exact Option.some_inj.mp (hread.symm.trans hread')

/-- **A text stands for bytes, and only for these, if and only if all its percent signs are
escapes.** -/
theorem existsUnique_codes_iff : (∃! bytes, Codes cs bytes) ↔ Escaped IsEscape cs := by
  constructor
  · rintro ⟨bytes, h, -⟩
    exact h.escaped
  · intro h
    obtain ⟨bytes, hcodes⟩ := exists_codes cs h
    exact ⟨bytes, hcodes, fun _ hother => hother.unique hcodes⟩

/-- Two digits stand behind every percent sign if all are escapes and none of these has a plus
sign. -/
theorem escaped_isPair_iff :
    Escaped IsPair cs ↔ Escaped IsEscape cs ∧ ¬ ['%', '+'] <:+: cs := by
  constructor
  · intro h
    refine ⟨fun front back hcs => ?_, ?_⟩
    · obtain ⟨a, b, rest, hback, hpair⟩ := h front back hcs
      exact ⟨a, b, rest, hback, .inl hpair⟩
    · rintro ⟨front, back, hcs⟩
      obtain ⟨a, b, rest, hback, ha, -⟩ := h front ('+' :: back) (by rw [← hcs]; simp)
      obtain ⟨rfl, -⟩ := List.cons.inj hback
      exact absurd ha (by decide)
  · rintro ⟨h, hplus⟩ front back hcs
    obtain ⟨a, b, rest, rfl, hpair | ⟨rfl, -⟩⟩ := h front back hcs
    · exact ⟨a, b, rest, rfl, hpair⟩
    · exact (hplus ⟨front, b :: rest, by rw [hcs]; simp⟩).elim

/-! ## Writing -/

/-- The characters that are written as they are. -/
def IsUnreserved (c : Char) : Prop :=
  c.isAlphanum ∨ c ∈ ['-', '_', '.', '!', '~', '*', '\'', '(', ')']
  deriving Decidable

/-- What is written for one byte. -/
inductive IsWritten : List Char → Prop
  | plain {c : Char} (hc : IsUnreserved c) : IsWritten [c]
  | escape {a b : Char} (ha : IsUpperHexDigit a) (hb : IsUpperHexDigit b) : IsWritten ['%', a, b]

theorem isUnreserved_eq_true {x : UInt8} (h : isUnreserved x) :
    x < 128 ∧ IsUnreserved (Char.ofNat x.toNat) := by
  unfold isUnreserved at h
  have hmarks : "-_.!~*'()".toList = ['-', '_', '.', '!', '~', '*', '\'', '(', ')'] := by decide
  simpa [IsUnreserved, hmarks] using h

theorem IsUnreserved.ne_percent (h : IsUnreserved c) : c ≠ '%' := by
  rintro rfl
  exact absurd h (by decide)

theorem isUpperHexDigit_hexDigit {n : Nat} (h : n < 16) : IsUpperHexDigit (hexDigit n) := by
  have hall : ∀ n < 16, IsUpperHexDigit (hexDigit n) := by decide
  exact hall n h

theorem digitValue?_hexDigit {n : Nat} (h : n < 16) : digitValue? 16 (hexDigit n) = some n := by
  have hall : ∀ n < 16, digitValue? 16 (hexDigit n) = some n := by decide
  exact hall n h

theorem utf8EncodeChar_ofNat {x : UInt8} (h : x < 128) :
    String.utf8EncodeChar (Char.ofNat x.toNat) = [x] := by
  have hnat : (Char.ofNat x.toNat).val.toNat = x.toNat := toNat_ofNat_byte x
  have hle : x.toNat ≤ 127 := Nat.le_of_lt_succ (UInt8.lt_iff_toNat_lt.mp h)
  unfold String.utf8EncodeChar
  dsimp only
  rw [hnat, if_pos hle]
  exact congrArg (fun y => [y]) UInt8.ofNat_toNat

theorem isWritten_encodeByte (x : UInt8) : IsWritten (encodeByte x) := by
  have hlt := x.toNat_lt
  unfold encodeByte
  split
  · exact .plain (isUnreserved_eq_true ‹_›).2
  · exact .escape (isUpperHexDigit_hexDigit (by omega)) (isUpperHexDigit_hexDigit (by omega))

theorem codes_encodeByte (x : UInt8) (h : Codes cs bytes) :
    Codes (encodeByte x ++ cs) (x :: bytes) := by
  have hlt := x.toNat_lt
  unfold encodeByte
  split
  · rename_i hunreserved
    obtain ⟨hascii, hplain⟩ := isUnreserved_eq_true hunreserved
    have hcodes := Codes.plain hplain.ne_percent h
    rwa [utf8EncodeChar_ofNat hascii] at hcodes
  · have hcodes := Codes.pair (digitValue?_hexDigit (show x.toNat / 16 < 16 by omega))
      (digitValue?_hexDigit (show x.toNat % 16 < 16 by omega)) h
    rwa [Nat.div_add_mod, Nat.toUInt8, UInt8.ofNat_toNat] at hcodes

/-- **What is written stands for the bytes of the text.** -/
theorem codes_encode (s : String) : Codes (encode s).toList (bytesOf s) := by
  rw [encode, String.toList_ofList, bytesOf]
  induction s.toList.flatMap String.utf8EncodeChar with
  | nil => exact .nil
  | cons x bytes ih => exact codes_encodeByte x ih

end Stencil.Text.Percent
