import Mathlib
import Stencil.Proofs.Script.Parser.Texts
import Stencil.Proofs.Script.Token.Spelling

/-! # What scanning covers

No script may read or write members with denied names, and sources are scanned for these names
before they are parsed.  The scan looks at the text, and the names are written there as they are but
for two gaps.

* In a string, a backslash in front of a letter stands for that letter, so that `'c\onstructor'` is
  the name `constructor`.  The rules for hidden names look for escapes with digits only.
* Behind a number in base sixteen a name may follow at once, so that `0x1prototype` is a number and
  the name `prototype`.  The rule looks for the name between characters that are of no word.

**In a source that the scan accepts, these are the only ways to spell a denied name**
(`denied_texts_of_scan`): all other names, keys and strings of its tree are allowed.
-/
namespace Stencil
open Text Script Scan Security

/-! ## Numbers are no names -/

theorem not_mem_digitsOf (n : Nat) : 't' ∉ Number.digitsOf n := fun h =>
  absurd (Nat.isDigit_of_mem_toDigits (by omega) (by omega) h) (by decide)

theorem not_mem_positional (d : Number.Decimal) : 't' ∉ d.positional := by
  have hdigits := not_mem_digitsOf d.digits
  unfold Number.Decimal.positional
  dsimp only
  split
  · simp [hdigits]
  · split
    · intro h
      rcases List.mem_append.mp h with h | h
      · exact hdigits (List.mem_of_mem_take h)
      · exact hdigits (List.mem_of_mem_drop ((List.mem_cons.mp h).resolve_left (by decide)))
    · simp [hdigits]

theorem not_mem_scientific (d : Number.Decimal) : 't' ∉ d.scientific := by
  have hmantissa := not_mem_digitsOf d.digits
  have hexponent := not_mem_digitsOf d.leading.natAbs
  unfold Number.Decimal.scientific
  intro h
  rcases List.mem_append.mp h with h | h
  · split at h
    · cases h
    · rename_i hdigits
      rw [hdigits] at hmantissa
      exact hmantissa h
    · rename_i c cs _ hdigits
      rw [hdigits] at hmantissa
      rcases List.mem_cons.mp h with h | h
      · exact hmantissa (h ▸ List.mem_cons_self)
      · exact hmantissa (List.mem_cons_of_mem c ((List.mem_cons.mp h).resolve_left (by decide)))
  · have h := (List.mem_cons.mp h).resolve_left (by decide)
    split at h <;> exact hexponent ((List.mem_cons.mp h).resolve_left (by decide))

theorem not_mem_signed {negative : Bool} {cs : List Char} (h : 't' ∉ cs) :
    't' ∉ (Number.signed negative cs).toList := by
  rw [Number.signed, String.toList_ofList]
  split
  · exact fun hmem => h ((List.mem_cons.mp hmem).resolve_left (by decide))
  · exact h

/-- The text of a number is no denied name. -/
theorem isDenied_text (x : Float) : isDenied (Number.text x) = false := by
  unfold Number.text
  split
  · rfl
  · rfl
  · rfl
  · rfl
  · dsimp only
    split
    · exact isDenied_eq_false (not_mem_signed (not_mem_scientific _))
    · split
      · exact isDenied_eq_false (not_mem_signed (not_mem_digitsOf _))
      · exact isDenied_eq_false (not_mem_signed (not_mem_positional _))

/-! ## Escape sequences -/

/-- **The escape sequences of an accepted source are single characters.** -/
theorem exists_of_isEscape {source : String} (hscan : scan source = .ok ()) {v : List Char}
    (hv : '\\' :: v <:+: source.toList) (h : IsEscape v) : ∃ c, v = [c] ∧ c ≠ 'x' ∧ c ≠ 'u' := by
  rcases h.forms with hsingle | ⟨c, ds, rfl, hhex, ⟨rfl, hlength⟩ | ⟨rfl, hlength⟩⟩
  · exact hsingle
  · obtain ⟨a, b, rfl⟩ := List.length_eq_two.mp hlength
    have ha := hhex a List.mem_cons_self
    have hb := hhex b (List.mem_cons_of_mem a List.mem_cons_self)
    exact absurd hv (not_isInfix_byteEscape hscan ha hb)
  · cases ds with
    | nil => cases hlength
    | cons a ds =>
      have ha := hhex a List.mem_cons_self
      have hfront : ['\\', 'u', a] <:+: '\\' :: 'u' :: a :: ds := ⟨[], ds, rfl⟩
      exact absurd (hfront.trans hv) (not_isInfix_unicodeEscape hscan ha)

/-! ## Ways to hide a name -/

/-- The text holds a token that is the string, and a backslash in it stands in front of a character
that starts no digits. -/
def HiddenByEscape (t : String) (cs : List Char) : Prop :=
  ∃ u c, u <:+: cs ∧ (∃ n, Scan.token ⟨u, 0⟩ = .ok (.string t, n) ∧ n.rest = []) ∧
    ['\\', c] <:+: u ∧ c ≠ 'x' ∧ c ≠ 'u'

/-- The text holds the name right behind a number in base sixteen. -/
def HiddenBehindHex (name : String) (cs : List Char) : Prop :=
  ∃ u, IsHex u ∧ u ++ name.toList <:+: cs

/-- The two ways to spell a denied name that the rules do not find. -/
def Hidden (name : String) (cs : List Char) : Prop :=
  HiddenByEscape name cs ∨ name = "prototype" ∧ HiddenBehindHex name cs

section Scanned
variable {source : String} (hscan : scan source = .ok ())
include hscan

theorem hidden_of_word {w : String} (h : Spelled source.toList (.word w))
    (hdenied : isDenied w = true) : Hidden w source.toList := by
  rcases h with hword | ⟨hdigit, u, hhex, hu⟩
  · exact absurd hword (not_hasWord hscan hdenied)
  · have hw : w.toList <:+: source.toList := List.IsInfix.trans (List.suffix_append u _).isInfix hu
    -- a `c` behind a number in base sixteen is a digit of it
    rcases eq_of_isInfix hscan hdenied hw with rfl | rfl
    · exact absurd hdigit (by decide)
    · exact .inr ⟨rfl, u, hhex, hu⟩

theorem hidden_of_string {t : String} (h : Spelled source.toList (.string t))
    (hdenied : isDenied t = true) : Hidden t source.toList := by
  rcases h with hword | ⟨u, v, hu, htoken, hv, hescape⟩
  · exact absurd hword (not_hasWord hscan hdenied)
  · obtain ⟨c, rfl, hx, hc⟩ := exists_of_isEscape hscan (hv.trans hu) hescape
    exact .inl ⟨u, c, hu, htoken, hv, hx, hc⟩

end Scanned

/-- The denied names among the texts of a tree are hidden in the source. -/
def hiddenTexts {source : String} (hscan : scan source = .ok ()) : TreeLogic :=
  .texts (Spelled source.toList) (fun t => isDenied t = true → Hidden t source.toList)
    (hidden_of_word hscan) (hidden_of_string hscan)
    (fun x hdenied => absurd hdenied (by rw [isDenied_text]; decide))
    fun htemplate hs hts t ht => (spelled_of_tokenize hts t ht).of_braced (htemplate _ _ hs)

/-- **A denied name in the tree of an accepted source is hidden in one of two ways**: a string
spells it with a backslash in front of a character, or it is `prototype` and stands right behind a
number in base sixteen.  No other identifier, member, key or string of the tree is denied. -/
theorem denied_texts_of_scan {source : String} {body : List Stmt} (hscan : scan source = .ok ())
    (hparse : parseProgram source = .ok body ∨ parseDeclarations source = .ok body) :
    ∀ name ∈ Stmt.textsOf body, isDenied name = true → Hidden name source.toList := by
  have htokens : ∀ ts, tokenize source = .ok ts → (hiddenTexts hscan).AllowsTokens ts :=
    fun ts hts t ht => spelled_of_tokenize hts t ht
  refine Stmt.forall_textsOf.mpr fun s hs => ?_
  rcases hparse with h | h
  · exact (hiddenTexts hscan).ofProgram htokens h s hs
  · exact (hiddenTexts hscan).ofDeclarations htokens h s hs

/-! ### An accepted source -/

/-- A member whose name is spelled with a backslash. -/
def escapedMember : String :=
  "x['c\\onstructor']"

/-- Whether a source is a program that holds the text. -/
def spells (source text : String) : Bool :=
  match parseProgram source with
  | .ok body => (Stmt.textsOf body).contains text
  | .error _ => false

theorem exists_of_spells {source text : String} (h : spells source text = true) :
    ∃ body, parseProgram source = .ok body ∧ text ∈ Stmt.textsOf body := by
  unfold spells at h
  split at h
  · exact ⟨_, by assumption, List.contains_iff_mem.mp h⟩
  · cases h

/-- The scan accepts the member, although its name is denied. -/
theorem denied_texts_of_scan_escapedMember : ∃ body,
    scan escapedMember = .ok () ∧ parseProgram escapedMember = .ok body ∧
      "constructor" ∈ Stmt.textsOf body ∧ isDenied "constructor" = true ∧
      Hidden "constructor" escapedMember.toList := by
  have hscan : scan escapedMember = .ok () := by cbv
  have hdenied : isDenied "constructor" = true := by decide
  have hspells : spells escapedMember "constructor" = true := by decide +kernel
  obtain ⟨body, hparse, hmem⟩ := exists_of_spells hspells
  exact ⟨body, hscan, hparse, hmem, hdenied,
    denied_texts_of_scan hscan (.inl hparse) _ hmem hdenied⟩

example : scan "0x1prototype" = .ok () ∧ spells "0x1prototype" "prototype" = true :=
  ⟨by cbv, by decide +kernel⟩

end Stencil
