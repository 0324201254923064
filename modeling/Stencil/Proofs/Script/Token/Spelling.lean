import Stencil.Proofs.Script.Token.Lexing
import Stencil.Proofs.Security.Scan

/-! # How tokens are spelled

Where the words, strings and interpolations of a source stand in its text (`Spelled`).

* A word stands there as it is, and what follows it is no character of a word.  What precedes it is
  no such character either, with one exception: a number in base sixteen ends where its digits end,
  and a word may follow it without a blank.  Behind a decimal the lexer refuses a name.
* A string stands there as it is, between its quotes, or an escape sequence is part of it.
* The source of an interpolation stands there between braces, so that what is spelled in it is
  spelled in the whole source.

Of all tokens, only strings, template literals and braces hold a quotation mark or a brace
(`isMark`), and the quoted ones end at the first quotation mark that no backslash hides (`Guarded`).
A template literal does so if its interpolations do not hold that mark (`PlainChunks`): within an
interpolation, the lexer looks for its closing brace only.
-/
namespace Stencil.Script.Scan
open Stencil.Text Stencil.Security Pattern
variable {test : Char → Bool} {p n : Place} {c : Char} {cs u rest : List Char} {k : TokenKind}

/-! ## Characters of words -/

theorem isWordChar_of_isBlank (h : isBlank c = true) : isWordChar c = false := by
  have hc : c = Char.ofNat c.toNat := (Char.ofNat_toNat c).symm
  have hsingle : ∀ m ∈ [0x20, 0x85, 0xA0, 0x1680, 0x2028, 0x2029, 0x202F, 0x205F, 0x3000],
      isWordChar (Char.ofNat m) = false := by decide +kernel
  have hcontrols : ∀ m < 14, isWordChar (Char.ofNat m) = false := by decide +kernel
  have hspaces : ∀ m < 11, isWordChar (Char.ofNat (0x2000 + m)) = false := by decide +kernel
  simp only [isBlank, Bool.or_eq_true, Bool.and_eq_true, decide_eq_true_eq, beq_iff_eq] at h
  rw [hc]
  by_cases hcontrol : c.toNat < 14
  · exact hcontrols _ hcontrol
  · by_cases hspace : 0x2000 ≤ c.toNat ∧ c.toNat ≤ 0x200A
    · obtain ⟨m, hm⟩ := Nat.exists_eq_add_of_le hspace.1
      rw [hm]
      exact hspaces m (by omega)
    · refine hsingle _ ?_
      simp only [List.mem_cons, List.not_mem_nil, or_false]
      omega

theorem isNameChar_of_isDigit (h : c.isDigit = true) : isNameChar c = true := by
  have hval : c.val < 128 := by
    simp only [Char.isDigit, Bool.and_eq_true, decide_eq_true_eq] at h
    exact UInt32.lt_of_le_of_lt h.2 (by decide)
  simp only [isNameChar, isAlphanumeric, isNumeric, if_pos hval, h, Bool.or_true, Bool.true_or]

/-- The last character is one of the part behind, if there is one. -/
theorem last_append_of_ne_nil {u v : List Char} (hv : v ≠ []) : (u ++ v).getLast? = v.getLast? := by
  rw [List.getLast?_append]
  cases h : v.getLast? with
  | none => exact absurd (List.getLast?_eq_none_iff.mp h) hv
  | some c => rfl

theorem any_last_cons (hu : u.getLast?.any test = false) (hc : u = [] → test c = false) :
    (c :: u).getLast?.any test = false := by
  cases u with
  | nil => exact hc rfl
  | cons d u => rwa [List.getLast?_cons_cons]

/-- Quotation marks and braces. -/
def marks : List Char :=
  ['\'', '"', backquote, '\x7b', '\x7d']

/-- Whether a character is a quotation mark or a brace. -/
def isMark (c : Char) : Bool :=
  marks.contains c

theorem isMark_eq_false (htest : marks.any test = false) (hc : test c = true) :
    isMark c = false := by
  refine Bool.eq_false_iff.mpr fun hmark => ?_
  exact List.any_eq_false.mp htest c (List.contains_iff_mem.mp hmark) hc

theorem isMark_of_isNameChar (h : isNameChar c = true) : isMark c = false :=
  isMark_eq_false (by decide) h

theorem isMark_of_isDigit (h : c.isDigit = true) : isMark c = false :=
  isMark_eq_false (by decide) h

theorem isMark_of_isHexDigit (h : isHexDigit c = true) : isMark c = false :=
  isMark_eq_false (by decide) h

/-! ## Blanks and comments -/

/-- Behind blanks and comments stands no character of a word, if anything follows them. -/
theorem trivia_last {mode : Trivia} {o : Nat} (h : trivia mode o cs = .ok n) : ∃ u,
    cs = u ++ n.rest ∧ (n.rest = [] ∨
      u.getLast?.any isWordChar = false ∧ (mode = .blanks ∨ u ≠ [])) := by
  have hcomment {u : List Char} (c : Char) (hlast : u.getLast?.any isWordChar = false)
      (hne : u ≠ []) : ('/' :: c :: u).getLast?.any isWordChar = false :=
    any_last_cons (any_last_cons hlast fun hnil => absurd hnil hne) fun hnil =>
      absurd hnil (List.cons_ne_nil c u)
  fun_induction trivia mode o cs
  case case1 o rest ih =>
    obtain ⟨u, rfl, hend | ⟨hlast, hmode | hne⟩⟩ := ih h
    · exact ⟨'/' :: '/' :: u, rfl, .inl hend⟩
    · cases hmode
    · exact ⟨'/' :: '/' :: u, rfl, .inr ⟨hcomment '/' hlast hne, .inl rfl⟩⟩
  case case2 o rest ih =>
    obtain ⟨u, rfl, hend | ⟨hlast, hmode | hne⟩⟩ := ih h
    · exact ⟨'/' :: '*' :: u, rfl, .inl hend⟩
    · cases hmode
    · exact ⟨'/' :: '*' :: u, rfl, .inr ⟨hcomment '*' hlast hne, .inl rfl⟩⟩
  case case3 c rest _ _ hblank ih =>
    obtain ⟨u, rfl, hend | ⟨hlast, -⟩⟩ := ih h
    · exact ⟨c :: u, rfl, .inl hend⟩
    · have hlast := any_last_cons hlast fun _ => isWordChar_of_isBlank hblank
      exact ⟨c :: u, rfl, .inr ⟨hlast, .inl rfl⟩⟩
  case case4 =>
    cases h
    exact ⟨[], rfl, .inr ⟨rfl, .inl rfl⟩⟩
  case case5 o c rest ih =>
    obtain ⟨u, rfl, hend | ⟨hlast, hne⟩⟩ := ih h
    · exact ⟨c :: u, rfl, .inl hend⟩
    · refine ⟨c :: u, rfl, .inr ⟨any_last_cons hlast fun hnil => ?_, .inr (List.cons_ne_nil c u)⟩⟩
      -- only a line break ends the comment
      by_cases hc : c = '\n'
      · rw [hc]
        rfl
      · rw [if_neg hc] at hne
        rcases hne with hmode | hne
        · cases hmode
        · exact absurd hnil hne
  case case6 o rest ih =>
    obtain ⟨u, rfl, hend | ⟨hlast, -⟩⟩ := ih h
    · exact ⟨'*' :: '/' :: u, rfl, .inl hend⟩
    · have hlast : ('/' :: u).getLast?.any isWordChar = false := any_last_cons hlast fun _ => rfl
      refine ⟨'*' :: '/' :: u, rfl, .inr ⟨?_, .inr (List.cons_ne_nil _ _)⟩⟩
      exact any_last_cons hlast fun hnil => absurd hnil (List.cons_ne_nil _ _)
  case case7 start o c rest _ ih =>
    obtain ⟨u, rfl, hend | ⟨hlast, hmode | hne⟩⟩ := ih h
    · exact ⟨c :: u, rfl, .inl hend⟩
    · cases hmode
    · have hlast := any_last_cons (c := c) hlast fun hnil => absurd hnil hne
      exact ⟨c :: u, rfl, .inr ⟨hlast, .inr (List.cons_ne_nil c u)⟩⟩
  case case8 => cases h
  case case9 =>
    cases h
    exact ⟨[], rfl, .inl rfl⟩

/-- A character of a word is neither a blank nor part of a comment. -/
theorem trivia_of_isWordChar {o : Nat} (hc : isWordChar c = true) :
    trivia .blanks o (c :: rest) = .ok ⟨c :: rest, o⟩ := by
  have hslash : c ≠ '/' := by
    rintro rfl
    exact absurd hc (by decide)
  have hblank : ¬ isBlank c = true := fun hblank => by
    rw [isWordChar_of_isBlank hblank] at hc
    cases hc
  rw [trivia_blanks_cons (fun _ h => absurd h hslash) fun _ h => absurd h hslash, if_neg hblank]

/-! ## Numbers and punctuators -/

/-- A number in base sixteen. -/
def IsHex (u : List Char) : Prop :=
  ∃ x ds, u = '0' :: x :: ds ∧ (x = 'x' ∨ x = 'X') ∧ ds ≠ [] ∧ ∀ c ∈ ds, isHexDigit c = true

theorem hexadecimal_digits {start o : Nat} (h : hexadecimal start ⟨cs, o⟩ = .ok (k, n)) :
    ∃ ds, cs = ds ++ n.rest ∧ ds ≠ [] ∧ (∀ c ∈ ds, isHexDigit c = true) ∧
      startsWith isHexDigit n.rest = false := by
  unfold hexadecimal at h
  rcases hspan : spanAt (fun c => (digitValue? 16 c).isSome) ⟨cs, o⟩ with ⟨ds, q⟩
  rw [hspan] at h
  dsimp only at h
  obtain ⟨htakes, hall, hend⟩ := takes_spanAt hspan
  split at h
  · rename_i hread
    obtain ⟨rfl, rfl⟩ := Prod.mk.inj (Except.ok.inj h)
    refine ⟨ds, htakes.rest, ?_, hall, hend⟩
    rintro rfl
    cases hread
  · cases h

theorem fraction_spelling {part : List Char} (h : fraction p = (part, n)) :
    p.rest = part ++ n.rest ∧ ∀ c ∈ part, isMark c = false := by
  unfold fraction at h
  split at h
  · rename_i rest hrest
    split at h
    · rcases hspan : spanAt Char.isDigit ⟨rest, p.offset + 1⟩ with ⟨ds, q⟩
      rw [hspan] at h
      obtain ⟨rfl, rfl⟩ := Prod.mk.inj h
      obtain ⟨htakes, hall, -⟩ := takes_spanAt hspan
      refine ⟨hrest.trans (congrArg ('.' :: ·) htakes.rest), ?_⟩
      exact List.forall_mem_cons.mpr ⟨by decide, fun c hc => isMark_of_isDigit (hall c hc)⟩
    · split at h
      · obtain ⟨rfl, rfl⟩ := Prod.mk.inj h
        exact ⟨rfl, List.forall_mem_nil _⟩
      · obtain ⟨rfl, rfl⟩ := Prod.mk.inj h
        exact ⟨hrest, List.forall_mem_singleton.mpr (by decide)⟩
  · obtain ⟨rfl, rfl⟩ := Prod.mk.inj h
    exact ⟨rfl, List.forall_mem_nil _⟩

theorem sign_spelling {signs : List Char} (h : sign cs = (signs, rest)) :
    cs = signs ++ rest ∧ ∀ c ∈ signs, isMark c = false := by
  unfold sign at h
  split at h
  · split at h <;> obtain ⟨rfl, rfl⟩ := Prod.mk.inj h
    · rename_i hc
      refine ⟨rfl, List.forall_mem_singleton.mpr ?_⟩
      rcases hc with rfl | rfl <;> decide
    · exact ⟨rfl, List.forall_mem_nil _⟩
  · obtain ⟨rfl, rfl⟩ := Prod.mk.inj h
    exact ⟨rfl, List.forall_mem_nil _⟩

theorem exponent_spelling {power : List Char} (h : exponent p = (power, n)) :
    p.rest = power ++ n.rest ∧ ∀ c ∈ power, isMark c = false := by
  have hnone : p.rest = [] ++ p.rest ∧ ∀ c ∈ ([] : List Char), isMark c = false :=
    ⟨rfl, List.forall_mem_nil _⟩
  unfold exponent at h
  split at h
  · rename_i c rest hrest
    split at h
    · rename_i hmark
      rcases hsign : sign rest with ⟨signs, behind⟩
      rw [hsign] at h
      dsimp only at h
      obtain ⟨rfl, hsigns⟩ := sign_spelling hsign
      split at h
      · rcases hspan : spanAt Char.isDigit ⟨behind, p.offset + 1 + signs.length⟩ with ⟨ds, q⟩
        rw [hspan] at h
        obtain ⟨rfl, rfl⟩ := Prod.mk.inj h
        obtain ⟨htakes, hall, -⟩ := takes_spanAt hspan
        have hbehind : behind = ds ++ q.rest := htakes.rest
        refine ⟨by rw [hrest, hbehind, List.cons_append, List.cons_append, List.append_assoc], ?_⟩
        refine List.forall_mem_cons.mpr ⟨?_, List.forall_mem_append.mpr ⟨hsigns, fun d hd => ?_⟩⟩
        · rcases hmark with rfl | rfl <;> decide
        · exact isMark_of_isDigit (hall d hd)
      · obtain ⟨rfl, rfl⟩ := Prod.mk.inj h
        exact hnone
    · obtain ⟨rfl, rfl⟩ := Prod.mk.inj h
      exact hnone
  · obtain ⟨rfl, rfl⟩ := Prod.mk.inj h
    exact hnone

theorem decimal_spelling {start : Nat} (h : decimal start p = .ok (k, n)) :
    ∃ u, p.rest = u ++ n.rest ∧ ∀ c ∈ u, isMark c = false := by
  unfold decimal at h
  rcases hwhole : spanAt (fun c => c.isDigit || c == '_') p with ⟨whole, p₁⟩
  rcases hpart : fraction p₁ with ⟨part, p₂⟩
  rcases hpower : exponent p₂ with ⟨power, p₃⟩
  rw [hwhole] at h
  dsimp only at h
  rw [hpart] at h
  dsimp only at h
  rw [hpower] at h
  dsimp only at h
  obtain ⟨htakes, hall, -⟩ := takes_spanAt hwhole
  obtain ⟨hrest₁, hpart⟩ := fraction_spelling hpart
  obtain ⟨hrest₂, hpower⟩ := exponent_spelling hpower
  have htest : marks.any (fun d => d.isDigit || d == '_') = false := by decide
  have hwhole : ∀ c ∈ whole, isMark c = false := fun c hc => isMark_eq_false htest (hall c hc)
  split at h
  · cases h
  · split at h
    · obtain ⟨rfl, rfl⟩ := Prod.mk.inj (Except.ok.inj h)
      refine ⟨whole ++ (part ++ power), ?_, List.forall_mem_append.mpr
        ⟨hwhole, List.forall_mem_append.mpr ⟨hpart, hpower⟩⟩⟩
      rw [htakes.rest, hrest₁, hrest₂, List.append_assoc, List.append_assoc]
    · cases h

theorem decimal_end {start : Nat} (h : decimal start p = .ok (k, n)) :
    startsWith isNameStart n.rest = false := by
  unfold decimal at h
  dsimp only at h
  split at h
  · cases h
  · rename_i hname
    split at h
    · obtain ⟨rfl, rfl⟩ := Prod.mk.inj (Except.ok.inj h)
      exact Bool.eq_false_iff.mpr hname
    · cases h

/-- Behind a decimal stands no name, and a number in base sixteen is as long as possible. -/
theorem number_spelling (h : number p = .ok (k, n)) :
    ∃ u, p.rest = u ++ n.rest ∧ (∀ c ∈ u, isMark c = false) ∧
      (startsWith isNameStart n.rest = false ∨ IsHex u ∧ startsWith isHexDigit n.rest = false) := by
  have hhex {x : Char} {rest ds : List Char} (hx : x = 'x' ∨ x = 'X')
      (hrest : p.rest = '0' :: x :: rest) (hds : rest = ds ++ n.rest) (hne : ds ≠ [])
      (hall : ∀ c ∈ ds, isHexDigit c = true) (hend : startsWith isHexDigit n.rest = false) :
      ∃ u, p.rest = u ++ n.rest ∧ (∀ c ∈ u, isMark c = false) ∧
        (startsWith isNameStart n.rest = false ∨
          IsHex u ∧ startsWith isHexDigit n.rest = false) := by
    refine ⟨'0' :: x :: ds, by rw [hrest, hds]; rfl, ?_, .inr ⟨⟨x, ds, rfl, hx, hne, hall⟩, hend⟩⟩
    refine List.forall_mem_cons.mpr ⟨by decide, List.forall_mem_cons.mpr ⟨?_, fun c hc => ?_⟩⟩
    · rcases hx with rfl | rfl <;> decide
    · exact isMark_of_isHexDigit (hall c hc)
  unfold number at h
  split at h
  · obtain ⟨ds, hds, hne, hall, hend⟩ := hexadecimal_digits h
    exact hhex (.inl rfl) (by assumption) hds hne hall hend
  · obtain ⟨ds, hds, hne, hall, hend⟩ := hexadecimal_digits h
    exact hhex (.inr rfl) (by assumption) hds hne hall hend
  · obtain ⟨u, hu, hmarks⟩ := decimal_spelling h
    exact ⟨u, hu, hmarks, .inl (decimal_end h)⟩

theorem punctuator_spelling (h : punctuator p = .ok (k, n)) :
    ∃ q : Punctuator, k = .punctuator q ∧ p.rest = q.spelling.toList ++ n.rest := by
  unfold punctuator at h
  split at h
  · rename_i q rest hfind
    obtain ⟨rfl, rfl⟩ := Prod.mk.inj (Except.ok.inj h)
    obtain ⟨_, x, _, _, hx, _⟩ := List.findSome?_eq_some_iff.mp hfind
    obtain ⟨rfl, hrest, -⟩ := behind?_eq_some hx
    exact ⟨x, rfl, hrest⟩
  · cases h

/-- A punctuator holds no character of a word. -/
theorem isWordChar_spelling (q : Punctuator) : ∀ c ∈ q.spelling.toList, isWordChar c = false := by
  have hany : q.spelling.toList.any isWordChar = false := by
    cases q <;> decide
  exact fun c hc => Bool.eq_false_iff.mpr (List.any_eq_false.mp hany c hc)

theorem spelling_ne_nil (q : Punctuator) : q.spelling.toList ≠ [] := by
  cases q <;> decide

/-! ## Escape sequences -/

theorem isSome_of_mapM {α β : Type} {f : α → Option β} {xs : List α} {ys : List β}
    (h : xs.mapM f = some ys) : ∀ x ∈ xs, (f x).isSome = true := by
  induction xs generalizing ys with
  | nil => exact List.forall_mem_nil _
  | cons x xs ih =>
    rw [List.mapM_cons] at h
    obtain ⟨y, hy, h⟩ := Option.bind_eq_some_iff.mp h
    obtain ⟨ys, hys, -⟩ := Option.bind_eq_some_iff.mp h
    refine List.forall_mem_cons.mpr ⟨?_, ih hys⟩
    rw [hy]
    rfl

theorem digits_hex {start k taken : Nat} {image : Char}
    (h : escape.digits start k rest = .ok (image, taken)) :
    ∀ c ∈ rest.take k, isHexDigit c = true := by
  unfold escape.digits at h
  dsimp only at h
  split at h
  · rename_i hcoded
    split at hcoded
    · obtain ⟨values, hvalues, -⟩ := Option.bind_eq_some_iff.mp hcoded
      exact isSome_of_mapM hvalues
    · cases hcoded
  · cases h

/-- An escape sequence, without its backslash. -/
def IsEscape (v : List Char) : Prop :=
  ∃ image, escape 0 v = .ok (image, v.length)

/-- An escape sequence is a single character or a letter with digits. -/
theorem IsEscape.forms {v : List Char} (h : IsEscape v) :
    (∃ c, v = [c] ∧ c ≠ 'x' ∧ c ≠ 'u') ∨ ∃ c ds, v = c :: ds ∧
      (∀ d ∈ ds, isHexDigit d = true) ∧ (c = 'x' ∧ ds.length = 2 ∨ c = 'u' ∧ ds.length = 4) := by
  have hdigits {k : Nat} {image : Char} {ds : List Char}
      (h : escape.digits 0 k ds = .ok (image, ds.length + 1)) :
      (∀ d ∈ ds, isHexDigit d = true) ∧ ds.length = k := by
    have hlength : ds.length = k := Nat.succ.inj (digits_taken h)
    have hhex := digits_hex h
    rw [← hlength, List.take_length] at hhex
    exact ⟨hhex, hlength⟩
  obtain ⟨image, h⟩ := h
  unfold escape at h
  split at h
  · cases h
  · rename_i ds
    obtain ⟨hhex, hlength⟩ := hdigits h
    exact .inr ⟨'x', ds, rfl, hhex, .inl ⟨rfl, hlength⟩⟩
  · rename_i ds
    obtain ⟨hhex, hlength⟩ := hdigits h
    exact .inr ⟨'u', ds, rfl, hhex, .inr ⟨rfl, hlength⟩⟩
  · rename_i c rest hx hu
    obtain ⟨-, hlength⟩ := Prod.mk.inj (Except.ok.inj h)
    obtain rfl := List.length_eq_zero_iff.mp (Nat.succ.inj hlength).symm
    exact .inl ⟨c, rfl, hx, hu⟩

/-- The characters that an escape sequence takes. -/
theorem isEscape_take {start taken : Nat} {image : Char} {body : List Char}
    (h : escape start (body ++ rest) = .ok (image, taken)) (htaken : taken ≤ body.length) :
    IsEscape (body.take taken) := by
  have hlength : (body.take taken).length = taken := List.length_take_of_le htaken
  have hbody : body ++ rest = body.take taken ++ (body.drop taken ++ rest) := by
    rw [← List.append_assoc, List.take_append_drop]
  rw [hbody] at h
  have hagain := escape_again (s := []) h (Nat.le_of_eq hlength.symm) 0
  rw [List.append_nil] at hagain
  refine ⟨image, ?_⟩
  rw [hlength]
  exact hagain

/-- Characters that do not end a quoted part: the quotation mark is not among them, unless behind a
backslash, which hides the character after it. -/
inductive Guarded (quote : Char) : List Char → Prop
  | nil : Guarded quote []
  | cons {c : Char} {u : List Char} (slash : c ≠ '\\') (mark : c ≠ quote) (rest : Guarded quote u) :
      Guarded quote (c :: u)
  | escape {d : Char} {u : List Char} (rest : Guarded quote u) : Guarded quote ('\\' :: d :: u)

namespace Guarded
variable {quote : Char} {v : List Char}

theorem append (hu : Guarded quote u) (hv : Guarded quote v) : Guarded quote (u ++ v) := by
  induction hu with
  | nil => exact hv
  | cons slash mark _ ih => exact .cons slash mark ih
  | escape _ ih => exact .escape ih

theorem of_forall (h : ∀ c ∈ u, c ≠ '\\' ∧ c ≠ quote) : Guarded quote u := by
  induction u with
  | nil => exact .nil
  | cons c u ih =>
    obtain ⟨⟨hslash, hmark⟩, hu⟩ := List.forall_mem_cons.mp h
    exact .cons hslash hmark (ih hu)

/-- A backslash at the end of the part hides the character behind it, which is no quotation mark
either. -/
theorem concat (hc : c ≠ '\\') (hmark : c ≠ quote) :
    ∀ u : List Char, quote ∉ u → Guarded quote (u ++ [c])
  | [], _ => .cons hc hmark .nil
  | d :: u, h => by
    have hu : quote ∉ u := fun hmem => h (List.mem_cons_of_mem d hmem)
    have hd : d ≠ quote := fun hd => h (hd ▸ List.mem_cons_self)
    by_cases hslash : d = '\\'
    · subst hslash
      cases u with
      | nil => exact .escape .nil
      | cons e u => exact .escape (concat hc hmark u fun hmem => hu (List.mem_cons_of_mem e hmem))
    · exact .cons hslash hd (concat hc hmark u hu)

/-- An escape sequence is no end of the part: its digits are no quotation marks. -/
theorem of_isEscape (hquote : isMark quote = true) (h : IsEscape v) :
    Guarded quote ('\\' :: v) := by
  rcases h.forms with ⟨c, rfl, -, -⟩ | ⟨c, ds, rfl, hhex, -⟩
  · exact .escape .nil
  · refine .escape (of_forall fun d hd => ⟨?_, ?_⟩)
    · rintro rfl
      exact absurd (hhex _ hd) (by decide)
    · rintro rfl
      rw [isMark_of_isHexDigit (hhex _ hd)] at hquote
      cases hquote

theorem escape_append {start taken : Nat} {image : Char} {body : List Char}
    (hquote : isMark quote = true) (h : Scan.escape start (body ++ rest) = .ok (image, taken))
    (htaken : taken ≤ body.length) (hbody : Guarded quote (body.drop taken)) :
    Guarded quote ('\\' :: body) := by
  have happend := (of_isEscape hquote (isEscape_take h htaken)).append hbody
  rwa [List.cons_append, List.take_append_drop] at happend

end Guarded

/-! ## Strings -/

/-- What a string takes: the characters that it is made of, or at least one escape sequence.  Its
closing quote is the first one that no backslash hides. -/
theorem stringRest_spelling {quote : Char} {start : Nat} {text : String} {done : List Char}
    {skip o : Nat} (hmark : isMark quote = true)
    (h : stringRest quote start done skip o cs = .ok (text, n)) :
    ∃ body, cs = body ++ quote :: n.rest ∧ skip ≤ body.length ∧ Guarded quote (body.drop skip) ∧
      (skip = 0 → text.toList = done.reverse ++ body ∨ ∃ v, '\\' :: v <:+: body ∧ IsEscape v) := by
  induction cs generalizing done skip o with
  | nil => cases skip <;> cases h
  | cons c cs ih =>
    cases skip with
    | succ skip =>
      obtain ⟨body, rfl, hskip, hguarded, -⟩ := ih h
      exact ⟨c :: body, rfl, Nat.succ_le_succ hskip, hguarded, nofun⟩
    | zero =>
      unfold stringRest at h
      split at h
      · cases h
      · split at h
        · rename_i hquote
          obtain ⟨rfl, rfl⟩ := Prod.mk.inj (Except.ok.inj h)
          refine ⟨[], congrArg (· :: cs) hquote, Nat.le_refl 0, .nil, fun _ => .inl ?_⟩
          rw [String.toList_ofList, List.append_nil]
        · rename_i hquote
          split at h
          · rename_i hslash
            split at h
            · rename_i image taken hescape
              obtain ⟨body, rfl, hskip, hguarded, -⟩ := ih h
              rw [hslash]
              have hclosed := Guarded.escape_append hmark hescape hskip hguarded
              refine ⟨'\\' :: body, rfl, Nat.zero_le _, hclosed, fun _ => .inr ?_⟩
              refine ⟨body.take taken, ?_, ?_⟩
              · exact (List.prefix_cons_inj '\\' |>.mpr (List.take_prefix taken body)).isInfix
              · exact isEscape_take hescape hskip
            · cases h
          · rename_i hslash
            obtain ⟨body, rfl, -, hguarded, hbody⟩ := ih h
            refine ⟨c :: body, rfl, Nat.zero_le _, .cons hslash hquote hguarded, fun _ => ?_⟩
            refine (hbody rfl).imp (fun htext => ?_) fun ⟨v, hv, hescape⟩ => ⟨v, ?_, hescape⟩
            · rw [htext, List.reverse_cons, List.append_assoc]
              rfl
            · exact hv.trans (List.suffix_cons c body).isInfix

/-! ## Template literals -/

/-- The text stands between braces. -/
def Braced (s cs : List Char) : Prop :=
  '\x7b' :: (s ++ ['\x7d']) <:+: cs

/-- The chunks that are there when a template literal is read on are kept. -/
theorem templateRest_chunks {start : Nat} {text : List Char} {chunks parts : List Chunk}
    {mode : Template} {o : Nat} (h : templateRest start text chunks mode o cs = .ok (parts, n)) :
    chunks ⊆ parts := by
  have hflush (text : List Char) (chunks : List Chunk) : chunks ⊆ flush text chunks := by
    unfold flush
    split
    · exact List.Subset.refl chunks
    · exact List.subset_cons_self _ chunks
  fun_induction templateRest start text chunks mode o cs
  case case1 => cases h
  case case6 => cases h
  case case4 =>
    cases h
    exact fun chunk hchunk => List.mem_reverse.mpr (hflush _ _ hchunk)
  case case3 ih => exact List.Subset.trans (hflush _ _) (ih h)
  case case8 ih => exact List.Subset.trans (List.subset_cons_self _ _) (ih h)
  all_goals
    rename_i ih
    exact ih h

/-- No interpolation of the template literal holds the mark that delimits template literals. -/
def PlainChunks (chunks : List Chunk) : Prop :=
  ∀ s o, .source s o ∈ chunks → backquote ∉ s.toList

/-- The rest of a template literal with these chunks starts with the rest of an interpolation, whose
source up to here is known, and the brace that closes it. -/
def ClosesSource (parts : List Chunk) (source body : List Char) : Prop :=
  ∃ s behind o, body = s ++ '\x7d' :: behind ∧ .source (String.ofList (source ++ s)) o ∈ parts ∧
    (PlainChunks parts → Guarded backquote behind)

theorem ClosesSource.cons {parts : List Chunk} {source body : List Char}
    (h : ClosesSource parts (c :: source).reverse body) :
    ClosesSource parts source.reverse (c :: body) := by
  obtain ⟨s, behind, o, rfl, hsource, hbehind⟩ := h
  refine ⟨c :: s, behind, o, rfl, ?_, hbehind⟩
  rwa [List.reverse_cons, List.append_assoc] at hsource

/-- How the rest of a template literal with these chunks goes on. -/
def Template.Closes (parts : List Chunk) (body : List Char) : Template → Prop
  | .text skip =>
    skip ≤ body.length ∧ (PlainChunks parts → Guarded backquote (body.drop skip))
  | .code _ _ source | .quoted _ _ _ _ source => ClosesSource parts source.reverse body

/-- **A template literal whose interpolations are plain ends at the first mark that no backslash
hides.** -/
theorem templateRest_closes {start : Nat} {text : List Char} {chunks parts : List Chunk}
    {mode : Template} {o : Nat} (h : templateRest start text chunks mode o cs = .ok (parts, n)) :
    ∃ body, cs = body ++ backquote :: n.rest ∧ mode.Closes parts body := by
  fun_induction templateRest start text chunks mode o cs
  case case1 => cases h
  case case6 => cases h
  case case2 rest ih =>
    obtain ⟨body, rfl, hskip, hbody⟩ := ih h
    exact ⟨_ :: body, rfl, Nat.succ_le_succ hskip, hbody⟩
  case case3 rest ih =>
    obtain ⟨_, rfl, s, behind, o, rfl, hsource, hbehind⟩ := ih h
    refine ⟨'$' :: '\x7b' :: (s ++ '\x7d' :: behind), rfl, Nat.zero_le _, fun hplain => ?_⟩
    have hs : backquote ∉ s := by
      have hs := hplain _ _ hsource
      rwa [String.toList_ofList] at hs
    have hend : Guarded backquote (s ++ ['\x7d']) := .concat (by decide) (by decide) s hs
    have hclosed := hend.append (hbehind hplain)
    rw [List.append_assoc] at hclosed
    exact .cons (by decide) (by decide) (.cons (by decide) (by decide) hclosed)
  case case4 =>
    cases h
    exact ⟨[], rfl, Nat.zero_le _, fun _ => .nil⟩
  case case5 image taken hescape _ _ ih =>
    obtain ⟨body, rfl, hskip, hbody⟩ := ih h
    exact ⟨_, rfl, Nat.zero_le _, fun hplain =>
      .escape_append (by decide) hescape hskip (hbody hplain)⟩
  case case7 hquote hslash ih =>
    obtain ⟨body, rfl, -, hbody⟩ := ih h
    exact ⟨_ :: body, rfl, Nat.zero_le _, fun hplain => .cons hslash hquote (hbody hplain)⟩
  case case8 from' source o rest chunk ih =>
    have hchunk := templateRest_chunks h List.mem_cons_self
    obtain ⟨body, rfl, -, hbody⟩ := ih h
    refine ⟨'\x7d' :: body, rfl, [], body, from', rfl, ?_, hbody⟩
    rwa [List.append_nil]
  case case14 quote escaped from' depth source o c rest mode ih =>
    obtain ⟨body, rfl, hbody⟩ := ih h
    refine ⟨c :: body, rfl, ClosesSource.cons ?_⟩
    unfold mode at hbody
    repeat' split at hbody
    all_goals exact hbody
  all_goals
    rename_i ih
    obtain ⟨body, rfl, hbody⟩ := ih h
    exact ⟨_ :: body, rfl, ClosesSource.cons hbody⟩

/-- The sources of all interpolations stand between braces. -/
def AllBraced (cs : List Char) (chunks : List Chunk) : Prop :=
  ∀ s o, .source s o ∈ chunks → Braced s.toList cs

theorem allBraced_flush {text : List Char} {chunks : List Chunk} (h : AllBraced cs chunks) :
    AllBraced cs (flush text chunks) := by
  intro s o hs
  unfold flush at hs
  split at hs
  · exact h s o hs
  · exact h s o ((List.mem_cons.mp hs).resolve_left nofun)

/-- The text so far ends in the source of the interpolation that is being read. -/
def Template.EndsIn (pre : List Char) : Template → Prop
  | .text _ => True
  | .code _ _ source | .quoted _ _ _ _ source => '\x7b' :: source.reverse <:+ pre

theorem suffix_snoc {source pre : List Char} (h : '\x7b' :: source.reverse <:+ pre) (c : Char) :
    '\x7b' :: (c :: source).reverse <:+ pre ++ [c] := by
  obtain ⟨front, rfl⟩ := h
  refine ⟨front, ?_⟩
  rw [List.reverse_cons, List.append_assoc, List.cons_append]

/-- **Each interpolation of a template literal stands between braces in the text.** -/
theorem templateRest_braced {start : Nat} {text : List Char} {chunks parts : List Chunk}
    {mode : Template} {o : Nat} (h : templateRest start text chunks mode o cs = .ok (parts, n)) :
    ∀ pre, mode.EndsIn pre → AllBraced (pre ++ cs) chunks → AllBraced (pre ++ cs) parts := by
  fun_induction templateRest start text chunks mode o cs
  case case1 => cases h
  case case6 => cases h
  case case3 text chunks o rest ih =>
    intro pre _ hchunks
    rw [show pre ++ '$' :: '\x7b' :: rest = (pre ++ ['$']) ++ ['\x7b'] ++ rest by simp] at *
    exact ih h _ (List.suffix_append _ _) (allBraced_flush hchunks)
  case case4 =>
    intro pre _ hchunks s o hs
    cases h
    exact allBraced_flush hchunks s o (List.mem_reverse.mp hs)
  case case2 ih | case5 ih | case7 ih =>
    intro pre _ hchunks
    rw [List.append_cons] at *
    exact ih h _ trivial hchunks
  case case8 from' source o rest chunk ih =>
    intro pre hmode hchunks
    have hchunk : Braced source.reverse (pre ++ '\x7d' :: rest) := by
      obtain ⟨front, rfl⟩ := hmode
      exact ⟨front, rest, by simp⟩
    rw [List.append_cons] at *
    refine ih h _ trivial fun s o' hs => ?_
    rcases List.mem_cons.mp hs with hs | hs
    · have hs : Chunk.source s o' = .source (String.ofList source.reverse) from' := hs
      obtain ⟨rfl, -⟩ := Chunk.source.inj hs
      rwa [String.toList_ofList]
    · exact hchunks s o' hs
  case case14 quote escaped from' depth source o c rest mode ih =>
    intro pre hmode hchunks
    have hnext : mode.EndsIn (pre ++ [c]) := by
      unfold mode
      repeat' split
      all_goals exact suffix_snoc hmode c
    rw [List.append_cons pre c rest] at *
    exact ih h _ hnext hchunks
  all_goals
    rename_i ih
    intro pre hmode hchunks
    rw [List.append_cons] at *
    exact ih h _ (suffix_snoc hmode _) hchunks

/-! ## Tokens -/

/-- What a token takes: the characters, the token, and what follows. -/
inductive Lexeme : List Char → TokenKind → List Char → Prop where
  /-- Behind a decimal stands no name, and a number in base sixteen is as long as possible. -/
  | number {u rest : List Char} {x : Float} (chars : ∀ c ∈ u, isMark c = false)
      (behind : startsWith isNameStart rest = false ∨
        IsHex u ∧ startsWith isHexDigit rest = false) : Lexeme u (.number x) rest
  | string {quote : Char} {body rest : List Char} {text : String}
      (isQuote : quote = '"' ∨ quote = '\'') (guarded : Guarded quote body)
      (spelling : text.toList = body ∨ ∃ v, '\\' :: v <:+: body ∧ IsEscape v) :
      Lexeme (quote :: (body ++ [quote])) (.string text) rest
  | template {body rest : List Char} {chunks : List Chunk}
      (sources : AllBraced (backquote :: (body ++ [backquote]) ++ rest) chunks)
      (guarded : PlainChunks chunks → Guarded backquote body) :
      Lexeme (backquote :: (body ++ [backquote])) (.template chunks) rest
  | word {w rest : List Char} (first : startsWith isNameStart w = true)
      (chars : ∀ c ∈ w, isNameChar c = true) (behind : startsWith isNameChar rest = false) :
      Lexeme w (.word (String.ofList w)) rest
  | punctuator {rest : List Char} (q : Punctuator) :
      Lexeme q.spelling.toList (.punctuator q) rest

theorem lexeme_of_number (h : number p = .ok (k, n)) :
    ∃ u, p.rest = u ++ n.rest ∧ Lexeme u k n.rest := by
  obtain ⟨x, rfl⟩ := kind_of_number h
  obtain ⟨u, hu, hmarks, hend⟩ := number_spelling h
  exact ⟨u, hu, .number hmarks hend⟩

/-- Every token takes a lexeme of its kind. -/
theorem lexeme_of_token (h : token p = .ok (k, n)) (hp : p.rest ≠ []) :
    ∃ u, p.rest = u ++ n.rest ∧ Lexeme u k n.rest := by
  obtain ⟨cs, o⟩ := p
  obtain ⟨c, rest, rfl⟩ := List.exists_cons_of_ne_nil hp
  change ∃ u, c :: rest = u ++ n.rest ∧ _
  rw [token_cons] at h
  split at h
  · exact lexeme_of_number h
  · split at h
    · rename_i hquote
      rcases hstring : stringRest c o [] 0 (o + 1) rest with e | ⟨text, q⟩ <;> rw [hstring] at h
      · cases h
      · cases h
        have hmark : isMark c = true := by
          rcases hquote with rfl | rfl <;> decide
        obtain ⟨body, rfl, -, hguarded, hbody⟩ := stringRest_spelling hmark hstring
        exact ⟨c :: (body ++ [c]), by simp, .string hquote hguarded (hbody rfl)⟩
    · split at h
      · rename_i hquote
        rcases htemplate : templateRest o [] [] (.text 0) 1 rest with e | ⟨parts, q⟩ <;>
          rw [htemplate] at h
        · cases h
        · cases h
          have hbraced := templateRest_braced htemplate [c] trivial nofun
          obtain ⟨body, rfl, -, hguarded⟩ := templateRest_closes htemplate
          rw [hquote] at hbraced ⊢
          refine ⟨backquote :: (body ++ [backquote]), by simp, .template ?_ hguarded⟩
          simpa using hbraced
      · split at h
        · rename_i hname
          rcases hspan : spanAt isNameChar ⟨c :: rest, o⟩ with ⟨w, q⟩
          rw [hspan] at h
          cases h
          have hne := spanAt_ne_nil hspan (isNameChar_of_isNameStart hname)
          obtain ⟨htakes, hall, hend⟩ := takes_spanAt hspan
          obtain ⟨d, w, rfl⟩ := List.exists_cons_of_ne_nil hne
          have hrest : c :: rest = d :: w ++ q.rest := htakes.rest
          obtain ⟨rfl, -⟩ := List.cons.inj hrest
          exact ⟨c :: w, hrest, .word hname hall hend⟩
        · obtain ⟨q, rfl, hq⟩ := punctuator_spelling h
          exact ⟨q.spelling.toList, hq, .punctuator q⟩

/-- What a lexeme ends in if a name follows it. -/
theorem Lexeme.last (h : Lexeme u k rest) (hname : startsWith isNameStart rest = true) :
    u.getLast?.any isWordChar = false ∨ IsHex u ∧ startsWith isHexDigit rest = false := by
  cases h with
  | number _ behind =>
    refine .inr (behind.resolve_left fun hend => ?_)
    rw [hname] at hend
    cases hend
  | @string quote body _ text isQuote _ _ =>
    left
    rw [← List.cons_append, List.getLast?_concat]
    rcases isQuote with rfl | rfl <;> decide
  | @template body _ _ _ _ =>
    left
    rw [← List.cons_append, List.getLast?_concat]
    decide
  | word _ _ behind =>
    cases rest with
    | nil => cases hname
    | cons c rest =>
      have hchar : isNameChar c = true := isNameChar_of_isNameStart hname
      rw [show isNameChar c = false from behind] at hchar
      cases hchar
  | punctuator q =>
    left
    cases hlast : q.spelling.toList.getLast? with
    | none => rfl
    | some c => exact isWordChar_spelling q c (List.mem_of_getLast? hlast)

/-- A character of a word that starts a token is part of a name or a number. -/
theorem isNameChar_of_token {o : Nat} (h : token ⟨c :: rest, o⟩ = .ok (k, n))
    (hc : isWordChar c = true) : isNameChar c = true := by
  rw [token_cons] at h
  split at h
  · rename_i hnumber
    rcases Bool.or_eq_true_iff.mp hnumber with hdigit | hdot
    · exact isNameChar_of_isDigit hdigit
    · obtain ⟨hdot, -⟩ := Bool.and_eq_true_iff.mp hdot
      rw [eq_of_beq hdot] at hc
      exact absurd hc (by decide)
  · split at h
    · rename_i hquote
      rcases hquote with rfl | rfl <;> exact absurd hc (by decide)
    · split at h
      · rename_i hquote
        rw [hquote] at hc
        exact absurd hc (by decide)
      · split at h
        · rename_i hname
          exact isNameChar_of_isNameStart hname
        · obtain ⟨q, -, hq⟩ := punctuator_spelling h
          obtain ⟨d, ds, hds⟩ := List.exists_cons_of_ne_nil (spelling_ne_nil q)
          have hword := isWordChar_spelling q d (hds ▸ List.mem_cons_self)
          rw [hds] at hq
          obtain ⟨rfl, -⟩ := List.cons.inj hq
          rw [hword] at hc
          cases hc

/-- A word ends at the end of a word: what goes on with another character of words is no text that
falls into tokens. -/
theorem Lexed.head_behind {q : Place} {ts : List Token}
    (hend : startsWith isNameChar n.rest = false)
    (hblanks : trivia .blanks n.offset n.rest = .ok q) (h : Lexed q ts) :
    n.rest.head?.any isWordChar = false := by
  obtain ⟨cs, o⟩ := n
  cases cs with
  | nil => rfl
  | cons c rest =>
    refine Bool.eq_false_iff.mpr fun hc => ?_
    have hc : isWordChar c = true := hc
    rw [trivia_of_isWordChar hc] at hblanks
    cases hblanks
    cases h with
    | next _ _ htoken _ _ =>
      have hchar := isNameChar_of_token htoken hc
      rw [show isNameChar c = false from hend] at hchar
      cases hchar

/-! ## Where tokens stand -/

/-- The text holds the characters right behind a number in base sixteen, and they start with no such
digit. -/
def StandsBehindHex (w cs : List Char) : Prop :=
  startsWith isHexDigit w = false ∧ ∃ u, IsHex u ∧ u ++ w <:+: cs

/-- The text holds a token that is the string, and an escape sequence is part of it. -/
def StandsEscaped (t : String) (cs : List Char) : Prop :=
  ∃ u v, u <:+: cs ∧ (∃ n, Scan.token ⟨u, 0⟩ = .ok (.string t, n) ∧ n.rest = []) ∧
    '\\' :: v <:+: u ∧ IsEscape v

/-- Where a text holds what a token of it stands for. -/
def Spelled (cs : List Char) : TokenKind → Prop
  | .word w => HasWord w.toList cs ∨ StandsBehindHex w.toList cs
  | .string t => HasWord t.toList cs ∨ StandsEscaped t cs
  | .template chunks => AllBraced cs chunks
  | _ => True

/-- A text between quotes is a word of its own. -/
theorem hasWord_of_quoted {quote : Char} {w pre : List Char}
    (hquote : quote = '"' ∨ quote = '\'') :
    HasWord w (pre ++ (quote :: (w ++ [quote]) ++ rest)) := by
  have hword : isWordChar quote = false := by
    rcases hquote with rfl | rfl <;> decide
  refine ⟨pre ++ [quote], quote :: rest, by simp, ?_, ?_⟩
  · rw [List.getLast?_concat]
    exact hword
  · exact hword

/-- A number in base sixteen ends the text, and no digit of it is left. -/
def EndsInHex (pre rest : List Char) : Prop :=
  startsWith isHexDigit rest = false ∧ ∃ u, IsHex u ∧ u <:+ pre

/-- A name may start here: it is not part of a longer word, or it stands right behind a number in
base sixteen. -/
def OpensName (pre rest : List Char) : Prop :=
  startsWith isNameStart rest = true → pre.getLast?.any isWordChar = false ∨ EndsInHex pre rest

theorem Lexeme.spelled {pre : List Char} (h : Lexeme u k rest) (htoken : ∃ n,
      Scan.token ⟨u, 0⟩ = .ok (k, n) ∧ n.rest = []) (hopen : OpensName pre (u ++ rest))
    (hbehind : startsWith isNameChar rest = false → rest.head?.any isWordChar = false) :
    Spelled (pre ++ (u ++ rest)) k := by
  cases h with
  | number => trivial
  | punctuator => trivial
  | @string quote body _ text isQuote _ spelling =>
    rcases spelling with htext | ⟨v, hv, hescape⟩
    · left
      rw [htext]
      exact hasWord_of_quoted isQuote
    · refine .inr ⟨_, v, ⟨pre, rest, List.append_assoc _ _ _⟩, htoken, ?_, hescape⟩
      exact hv.trans ⟨[quote], [quote], by simp⟩
  | template sources _ =>
    intro s o hs
    exact (sources s o hs).trans (List.suffix_append pre _).isInfix
  | word first _ behind =>
    change HasWord _ _ ∨ StandsBehindHex _ _
    rw [String.toList_ofList]
    rcases hopen (startsWith_append first) with hpre | ⟨hdigit, v, hhex, front, rfl⟩
    · exact .inl ⟨pre, rest, rfl, hpre, hbehind behind⟩
    · refine .inr ⟨startsWith_of_append hdigit, v, hhex, front, rest, ?_⟩
      simp

/-- All tokens of a text are spelled in it. -/
theorem Lexed.spelled {ts : List Token} (h : Lexed p ts) :
    ∀ pre, OpensName pre p.rest → ∀ t ∈ ts, Spelled (pre ++ p.rest) t.kind := by
  induction h with
  | done =>
    intro pre _ t ht
    rw [List.mem_singleton.mp ht]
    trivial
  | @next p n q k ts bare ne htoken blanks rest ih =>
    intro pre hopen
    obtain ⟨u, hu, hlexeme⟩ := lexeme_of_token htoken ne
    obtain ⟨v, hv, hlast⟩ := trivia_last blanks
    obtain ⟨u', hu', htakes, hagain⟩ := token_again htoken ne
    obtain rfl := List.append_cancel_right (hu.symm.trans htakes.rest)
    have halone := hagain [] n.rest ⟨u, 0⟩ rfl (List.cons_ne_nil _ _).symm (List.append_nil u).symm
    rw [hu] at hopen ⊢
    refine List.forall_mem_cons.mpr ⟨?_, ?_⟩
    · exact hlexeme.spelled halone hopen fun hend => rest.head_behind hend blanks
    · rw [hv, ← List.append_assoc u, ← List.append_assoc]
      refine ih _ fun hname => ?_
      have hq : q.rest ≠ [] := by
        intro hnil
        rw [hnil] at hname
        cases hname
      cases v with
      | nil =>
        -- the next token stands right behind this one
        rw [List.append_nil, last_append_of_ne_nil hu']
        have hn : n.rest = q.rest := hv
        rw [← hn] at hname ⊢
        exact (hlexeme.last hname).imp_right fun ⟨hhex, hdigit⟩ =>
          ⟨hdigit, u, hhex, List.suffix_append pre u⟩
      | cons c v =>
        left
        rw [← List.append_assoc, last_append_of_ne_nil (List.cons_ne_nil c v)]
        exact (hlast.resolve_left hq).1

/-! ## Interpolations -/

theorem Braced.isInfix {s : List Char} (h : Braced s cs) : s <:+: cs := by
  refine List.IsInfix.trans ?_ h
  exact ⟨['\x7b'], ['\x7d'], rfl⟩

theorem hasWord_of_braced {w s : List Char} (hw : HasWord w s) (hs : Braced s cs) :
    HasWord w cs := by
  obtain ⟨pre, rest, rfl, hpre, hrest⟩ := hw
  obtain ⟨front, behind, rfl⟩ := hs
  refine ⟨front ++ '\x7b' :: pre, rest ++ '\x7d' :: behind, by simp, ?_, ?_⟩
  · rw [last_append_of_ne_nil (List.cons_ne_nil _ _)]
    exact any_last_cons hpre fun _ => by decide
  · cases rest with
    | nil => exact (by decide : isWordChar '\x7d' = false)
    | cons c rest => exact hrest

/-- What is spelled in an interpolation is spelled in the text around it. -/
theorem Spelled.of_braced {s : List Char} (h : Spelled s k) (hs : Braced s cs) : Spelled cs k := by
  cases k with
  | word w =>
    refine h.imp (hasWord_of_braced · hs) fun ⟨hdigit, u, hhex, hu⟩ => ?_
    exact ⟨hdigit, u, hhex, hu.trans hs.isInfix⟩
  | string t =>
    refine h.imp (hasWord_of_braced · hs) fun ⟨u, v, hu, htoken⟩ => ?_
    exact ⟨u, v, hu.trans hs.isInfix, htoken⟩
  | template chunks => exact fun s' o hs' => (h s' o hs').trans hs.isInfix
  | number | punctuator | eof => trivial

end Scan
open Scan

/-- **Where the tokens of a source stand in its text.** -/
theorem spelled_of_tokenize {source : String} {ts : List Token} (h : tokenize source = .ok ts) :
    ∀ t ∈ ts, Spelled source.toList t.kind := by
  obtain ⟨q, hblanks, hlexed⟩ := tokenize_eq_ok.mp h
  obtain ⟨v, hv, hlast⟩ := trivia_last hblanks
  rw [hv]
  refine hlexed.spelled v fun hname => .inl (hlast.resolve_left fun hnil => ?_).1
  rw [hnil] at hname
  cases hname

end Stencil.Script
