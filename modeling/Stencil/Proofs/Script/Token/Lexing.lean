import Mathlib.Data.List.TakeDrop
import Mathlib.Data.List.TakeWhile
import Stencil.Script.Token.Scan

/-! # Lexemes do not depend on what follows them

Each function of `Scan` **takes** characters off the front of a text and says where it stopped
(`Place.Takes`).  What it takes is **settled** by little of what follows: if the text ends earlier,
but not before the place where the function stopped, the function takes the same characters and
gives the same value (`Settles`).  Strings and template literals carry their end in themselves.
Names, numbers and punctuators are as long as possible, so a shorter text can only make them
shorter; but what they take is there.  The one exception is a text cut right behind a point, as
`1.` before a name or `?.` before a digit, where the point belongs to another token.

Hence **a part of a text that is cut between two tokens falls into the same tokens**, at the same
distances (`Lexed.cut`).
-/
namespace Stencil.Script
open Stencil.Text (byteLength isBlank)

/-- The token as it stands if the place at `start` is moved to `o`. -/
def Token.moved (start o : Nat) (t : Token) : Token :=
  ⟨t.kind, o + (t.offset - start)⟩

/-- From one place to the next, the characters are taken off the front. -/
structure Place.Takes (p : Place) (u : List Char) (n : Place) : Prop where
  rest : p.rest = u ++ n.rest
  offset : n.offset = p.offset + byteLength u

namespace Place.Takes
variable {p q n : Place} {u v : List Char}

theorem nothing (p : Place) : p.Takes [] p :=
  ⟨rfl, rfl⟩

theorem trans (hu : p.Takes u q) (hv : q.Takes v n) : p.Takes (u ++ v) n := by
  refine ⟨?_, ?_⟩
  · rw [hu.rest, hv.rest, List.append_assoc]
  · rw [hv.offset, hu.offset, Text.byteLength_append, Nat.add_assoc]

theorem tail {c : Char} {rest : List Char} {o : Nat} (h : (Place.mk (c :: rest) o).Takes (c :: u) n) :
    rest = u ++ n.rest :=
  (List.cons.inj h.rest).2

theorem cons {c : Char} {rest : List Char} {o : Nat} (h : p.Takes u n) (hrest : p.rest = rest)
    (hoffset : p.offset = o + c.utf8Size) : (Place.mk (c :: rest) o).Takes (c :: u) n := by
  refine ⟨?_, ?_⟩
  · rw [← hrest, h.rest, List.cons_append]
  · rw [h.offset, hoffset, Text.byteLength_cons, Nat.add_assoc]

end Place.Takes

namespace Scan
variable {α : Type} {test : Char → Bool} {p n : Place} {u s t : List Char}

/-- What is read at a place (`reads p a n`: at `p` the value `a`, up to `n`) is settled by the
characters that it takes: it stays if the text ends earlier behind them, though not right behind a
point. -/
def Settles (reads : Place → α → Place → Prop) (p : Place) : Prop :=
  ∀ a n, reads p a n → ∃ u, p.Takes u n ∧
    ∀ s t p', n.rest = s ++ t → s ≠ ['.'] → p'.rest = u ++ s →
      ∃ n', reads p' a n' ∧ n'.rest = s

/-! ## Runs of characters -/

/-- A shorter text starts with no other character. -/
theorem startsWith_append (h : startsWith test s = true) : startsWith test (s ++ t) = true := by
  cases s with
  | nil => cases h
  | cons c s => exact h

theorem startsWith_of_append (h : startsWith test (s ++ t) = false) :
    startsWith test s = false := by
  cases hs : startsWith test s with
  | false => rfl
  | true => exact absurd ((startsWith_append hs).symm.trans h) (by decide)

theorem spanAt_eq (test : Char → Bool) (p : Place) :
    spanAt test p = (p.rest.takeWhile test,
      ⟨p.rest.dropWhile test, p.offset + byteLength (p.rest.takeWhile test)⟩) := by
  unfold spanAt
  rw [List.span_eq_takeWhile_dropWhile]

theorem startsWith_dropWhile (test : Char → Bool) (cs : List Char) :
    startsWith test (cs.dropWhile test) = false := by
  induction cs with
  | nil => rfl
  | cons c cs ih =>
    cases hc : test c with
    | true => rwa [List.dropWhile_cons_of_pos hc]
    | false =>
      rw [List.dropWhile_cons_of_neg (by rw [hc]; decide)]
      exact hc

/-- Characters that satisfy a test, up to the first one that does not. -/
theorem spanAt_append (hu : ∀ c ∈ u, test c = true) (hs : startsWith test s = false) (o : Nat) :
    spanAt test ⟨u ++ s, o⟩ = (u, ⟨s, o + byteLength u⟩) := by
  have hs' : s.takeWhile test = [] ∧ s.dropWhile test = s := by
    cases s with
    | nil => exact ⟨rfl, rfl⟩
    | cons c s =>
      have hc : ¬ test c = true := by
        rw [show test c = false from hs]
        decide
      exact ⟨List.takeWhile_cons_of_neg hc, List.dropWhile_cons_of_neg hc⟩
  rw [spanAt_eq, List.takeWhile_append_of_pos hu, List.dropWhile_append_of_pos hu, hs'.1, hs'.2,
    List.append_nil]

/-- What a run of characters takes, and what stands behind it. -/
theorem takes_spanAt (h : spanAt test p = (u, n)) :
    p.Takes u n ∧ (∀ c ∈ u, test c = true) ∧ startsWith test n.rest = false := by
  rw [spanAt_eq] at h
  obtain ⟨rfl, rfl⟩ := Prod.mk.inj h
  refine ⟨⟨List.takeWhile_append_dropWhile.symm, rfl⟩, fun c hc => ?_, startsWith_dropWhile _ _⟩
  exact List.mem_takeWhile_imp hc

/-! ## Numbers -/

/-- Characters that satisfy a test can be told from the first of them. -/
theorem startsWith_of_forall (hne : u ≠ []) (hu : ∀ c ∈ u, test c = true) :
    startsWith test (u ++ s) = true := by
  cases u with
  | nil => exact absurd rfl hne
  | cons c u => exact hu c List.mem_cons_self

/-- A run of characters is not empty if the text starts with one of them. -/
theorem spanAt_ne_nil (h : spanAt test p = (u, n)) (hp : startsWith test p.rest = true) : u ≠ [] := by
  rintro rfl
  obtain ⟨htakes, -, hend⟩ := takes_spanAt h
  rw [htakes.rest, List.nil_append, hend] at hp
  cases hp

theorem settles_fraction (p : Place) : Settles (fun p part n => fraction p = (part, n)) p := by
  intro part n h
  obtain ⟨cs, o⟩ := p
  unfold fraction at h
  split at h
  · rename_i rest hrest
    obtain rfl : cs = '.' :: rest := hrest
    split at h
    · rename_i hdigit
      rcases hspan : spanAt Char.isDigit ⟨rest, o + 1⟩ with ⟨ds, q⟩
      have hne := spanAt_ne_nil hspan hdigit
      obtain ⟨htakes, hall, hend⟩ := takes_spanAt hspan
      dsimp only at h
      rw [hspan] at h
      obtain ⟨rfl, rfl⟩ := Prod.mk.inj h
      refine ⟨_, htakes.cons rfl rfl, fun s t p' hs _ hp' => ?_⟩
      obtain ⟨cs', o'⟩ := p'
      obtain rfl : cs' = _ := hp'
      rw [hs] at hend
      refine ⟨⟨s, o' + 1 + byteLength ds⟩, ?_, rfl⟩
      simp only [fraction, List.cons_append, startsWith_of_forall hne hall, if_true,
        spanAt_append hall (startsWith_of_append hend)]
    · rename_i hdigit
      split at h
      · rename_i hname
        obtain ⟨rfl, rfl⟩ := Prod.mk.inj h
        refine ⟨[], .nothing _, fun s t p' hs hdot hp' => ⟨p', ?_, hp'⟩⟩
        obtain ⟨cs', o'⟩ := p'
        obtain rfl : cs' = s := hp'
        unfold fraction
        split
        · rename_i rest' hrest'
          obtain rfl : cs' = '.' :: rest' := hrest'
          obtain rfl : rest = rest' ++ t := (List.cons.inj hs).2
          cases rest' with
          | nil => exact absurd rfl hdot
          | cons c rest' =>
            rw [if_neg (show ¬ startsWith Char.isDigit (c :: rest') = true from hdigit),
              if_pos (show startsWith isNameStart (c :: rest') = true from hname)]
        · rfl
      · rename_i hname
        obtain ⟨rfl, rfl⟩ := Prod.mk.inj h
        have htakes : (Place.mk ('.' :: rest) o).Takes ['.'] ⟨rest, o + 1⟩ := ⟨rfl, rfl⟩
        refine ⟨['.'], htakes, fun s t p' hs _ hp' => ?_⟩
        obtain ⟨cs', o'⟩ := p'
        obtain rfl : cs' = '.' :: s := hp'
        obtain rfl : rest = s ++ t := hs
        have hdigit' : ¬ startsWith Char.isDigit s = true := fun hs => hdigit (startsWith_append hs)
        have hname' : ¬ startsWith isNameStart s = true := fun hs => hname (startsWith_append hs)
        refine ⟨⟨s, o' + 1⟩, ?_, rfl⟩
        simp only [fraction, if_neg hdigit', if_neg hname']
  · rename_i hnot
    obtain ⟨rfl, rfl⟩ := Prod.mk.inj h
    refine ⟨[], .nothing _, fun s t p' hs _ hp' => ⟨p', ?_, hp'⟩⟩
    obtain ⟨cs', o'⟩ := p'
    obtain rfl : cs' = s := hp'
    unfold fraction
    split
    · rename_i rest' hrest'
      obtain rfl : cs' = '.' :: rest' := hrest'
      exact absurd hs (hnot _)
    · rfl

theorem sign_of_digit (s : List Char) (h : startsWith Char.isDigit s = true) :
    sign ([] ++ s) = ([], s) := by
  cases s with
  | nil => rfl
  | cons c s =>
    refine if_neg fun hc => ?_
    have h : c.isDigit = true := h
    rcases hc with rfl | rfl <;> exact absurd h (by decide)

/-- A sign is taken, and it is found again in front of other digits. -/
theorem takes_sign {cs signs rest : List Char} {o : Nat} (h : sign cs = (signs, rest)) :
    (Place.mk cs o).Takes signs ⟨rest, o + signs.length⟩ ∧
      ∀ s, startsWith Char.isDigit s = true → sign (signs ++ s) = (signs, s) := by
  unfold sign at h
  split at h
  · split at h <;> obtain ⟨rfl, rfl⟩ := Prod.mk.inj h
    · rename_i hc
      refine ⟨⟨rfl, ?_⟩, fun s _ => if_pos hc⟩
      rcases hc with rfl | rfl <;> rfl
    · exact ⟨.nothing _, sign_of_digit⟩
  · obtain ⟨rfl, rfl⟩ := Prod.mk.inj h
    exact ⟨.nothing _, sign_of_digit⟩

theorem startsWith_sign (h : startsWith Char.isDigit (sign s).2 = true) :
    startsWith Char.isDigit (sign (s ++ t)).2 = true := by
  cases s with
  | nil => cases h
  | cons c s =>
    rw [List.cons_append]
    unfold sign at h ⊢
    dsimp only at h ⊢
    split at h
    · rw [if_pos (by assumption)]
      exact startsWith_append h
    · rw [if_neg (by assumption)]
      exact h

theorem settles_exponent (p : Place) : Settles (fun p power n => exponent p = (power, n)) p := by
  intro power n h
  obtain ⟨cs, o⟩ := p
  unfold exponent at h
  cases cs with
  | nil =>
    obtain ⟨rfl, rfl⟩ := Prod.mk.inj h
    refine ⟨[], .nothing _, fun s t p' hs _ hp' => ⟨p', ?_, hp'⟩⟩
    obtain ⟨rfl, -⟩ := List.append_eq_nil_iff.mp hs.symm
    unfold exponent
    rw [hp']
    rfl
  | cons c rest =>
    dsimp only at h
    split at h
    · rename_i hmark
      rcases hsign : sign rest with ⟨signs, rest'⟩
      rw [hsign] at h
      dsimp only at h
      obtain ⟨htakes, hagain⟩ := takes_sign (o := o + 1) hsign
      split at h
      · rename_i hdigit
        rcases hspan : spanAt Char.isDigit ⟨rest', o + 1 + signs.length⟩ with ⟨ds, q⟩
        rw [hspan] at h
        obtain ⟨rfl, rfl⟩ := Prod.mk.inj h
        have hne := spanAt_ne_nil hspan hdigit
        obtain ⟨hds, hall, hend⟩ := takes_spanAt hspan
        refine ⟨c :: (signs ++ ds), (htakes.trans hds).cons rfl ?_, fun s t p' hs _ hp' => ?_⟩
        · rcases hmark with rfl | rfl <;> rfl
        · obtain ⟨cs', o'⟩ := p'
          obtain rfl : cs' = _ := hp'
          rw [hs] at hend
          have hfirst := startsWith_of_forall (s := s) hne hall
          refine ⟨⟨s, o' + 1 + signs.length + byteLength ds⟩, ?_, rfl⟩
          simp only [exponent, List.cons_append, List.append_assoc, if_pos hmark, hagain _ hfirst,
            hfirst, if_true, spanAt_append hall (startsWith_of_append hend)]
      · rename_i hdigit
        obtain ⟨rfl, rfl⟩ := Prod.mk.inj h
        refine ⟨[], .nothing _, fun s t p' hs _ hp' => ⟨p', ?_, hp'⟩⟩
        obtain ⟨cs', o'⟩ := p'
        obtain rfl : cs' = s := hp'
        cases cs' with
        | nil => rfl
        | cons c' s =>
          obtain ⟨rfl, rfl⟩ := List.cons.inj hs
          have hdigit' : ¬ startsWith Char.isDigit (sign s).2 = true := fun hs => by
            have hall := startsWith_sign (t := t) hs
            rw [show sign (s ++ t) = (signs, rest') from hsign] at hall
            exact hdigit hall
          simp only [exponent, if_pos hmark, if_neg hdigit']
    · rename_i hmark
      obtain ⟨rfl, rfl⟩ := Prod.mk.inj h
      refine ⟨[], .nothing _, fun s t p' hs _ hp' => ⟨p', ?_, hp'⟩⟩
      obtain ⟨cs', o'⟩ := p'
      obtain rfl : cs' = s := hp'
      cases cs' with
      | nil => rfl
      | cons c' s =>
        obtain ⟨rfl, -⟩ := List.cons.inj hs
        simp only [exponent, if_neg hmark]

theorem settles_decimal (p : Place) :
    Settles (fun p k n => decimal p.offset p = .ok (k, n)) p := by
  intro k n h
  unfold decimal at h
  rcases hwhole : spanAt (fun c => c.isDigit || c == '_') p with ⟨whole, p₁⟩
  rcases hpart : fraction p₁ with ⟨part, p₂⟩
  rcases hpower : exponent p₂ with ⟨power, p₃⟩
  rw [hwhole] at h
  dsimp only at h
  rw [hpart] at h
  dsimp only at h
  rw [hpower] at h
  dsimp only at h
  obtain ⟨htakes₁, hall, hend⟩ := takes_spanAt hwhole
  obtain ⟨u₂, htakes₂, hagain₂⟩ := settles_fraction p₁ part p₂ hpart
  obtain ⟨u₃, htakes₃, hagain₃⟩ := settles_exponent p₂ power p₃ hpower
  split at h
  · cases h
  · rename_i hname
    rcases hread : Number.readDecimal? ((whole ++ part ++ power).filter (· != '_')) with _ | x
    · rw [hread] at h
      cases h
    · rw [hread] at h
      obtain ⟨rfl, rfl⟩ := Prod.mk.inj (Except.ok.inj h)
      refine ⟨whole ++ (u₂ ++ u₃), htakes₁.trans (htakes₂.trans htakes₃), ?_⟩
      intro s t p' hs hdot hp'
      have hrest₂ : p₂.rest = (u₃ ++ s) ++ t := by
        rw [htakes₃.rest, hs, List.append_assoc]
      have hrest₁ : p₁.rest = (u₂ ++ (u₃ ++ s)) ++ t := by
        rw [htakes₂.rest, hrest₂, List.append_assoc u₂]
      -- an exponent never takes a lone point
      have hdot₂ : u₃ ++ s ≠ ['.'] := by
        intro hdot'
        obtain ⟨n', hn', hnil⟩ := hagain₃ s t ⟨u₃ ++ s, 0⟩ hs hdot rfl
        rw [hdot'] at hn'
        cases hn'
        exact hdot hnil.symm
      obtain ⟨cs', o'⟩ := p'
      obtain rfl : cs' = whole ++ (u₂ ++ (u₃ ++ s)) := by
        rw [show cs' = whole ++ (u₂ ++ u₃) ++ s from hp', List.append_assoc, List.append_assoc]
      rw [hrest₁] at hend
      have hwhole' := spanAt_append hall (startsWith_of_append hend) o'
      obtain ⟨p₂', hpart', hrest₂'⟩ :=
        hagain₂ (u₃ ++ s) t ⟨u₂ ++ (u₃ ++ s), o' + byteLength whole⟩ hrest₂ hdot₂ rfl
      obtain ⟨p₃', hpower', hrest₃'⟩ := hagain₃ s t p₂' hs hdot hrest₂'
      have hname' : ¬ startsWith isNameStart p₃'.rest = true := by
        intro hs'
        rw [hrest₃'] at hs'
        exact hname (hs ▸ startsWith_append hs')
      refine ⟨p₃', ?_, hrest₃'⟩
      change decimal o' ⟨whole ++ (u₂ ++ (u₃ ++ s)), o'⟩ = .ok (.number x, p₃')
      unfold decimal
      rw [hwhole']
      dsimp only
      rw [hpart']
      dsimp only
      rw [hpower']
      dsimp only
      rw [if_neg hname', hread]

theorem hexadecimal_again {start o : Nat} {cs : List Char} {k : TokenKind}
    (h : hexadecimal start ⟨cs, o⟩ = .ok (k, n)) : ∃ u, (Place.mk cs o).Takes u n ∧
      ∀ s t start' o', n.rest = s ++ t →
        ∃ n', hexadecimal start' ⟨u ++ s, o'⟩ = .ok (k, n') ∧ n'.rest = s := by
  unfold hexadecimal at h
  rcases hspan : spanAt (fun c => (Text.digitValue? 16 c).isSome) ⟨cs, o⟩ with ⟨ds, q⟩
  rw [hspan] at h
  dsimp only at h
  obtain ⟨htakes, hall, hend⟩ := takes_spanAt hspan
  rcases hread : Number.readBounded? 16 (Nat.pow 2 64) ds with _ | x
  · rw [hread] at h
    cases h
  · rw [hread] at h
    obtain ⟨rfl, rfl⟩ := Prod.mk.inj (Except.ok.inj h)
    refine ⟨ds, htakes, fun s t start' o' hs => ⟨⟨s, o' + byteLength ds⟩, ?_, rfl⟩⟩
    rw [hs] at hend
    unfold hexadecimal
    rw [spanAt_append hall (startsWith_of_append hend)]
    dsimp only
    rw [hread]

theorem settles_number (p : Place) : Settles (fun p k n => number p = .ok (k, n)) p := by
  intro k n h
  obtain ⟨cs, o⟩ := p
  unfold number at h
  split at h
  · rename_i rest hrest
    obtain rfl : cs = '0' :: 'x' :: rest := hrest
    obtain ⟨u, htakes, hagain⟩ := hexadecimal_again h
    have htakes' : (Place.mk ('0' :: 'x' :: rest) o).Takes ('0' :: 'x' :: u) n :=
      (htakes.cons (o := o + 1) rfl rfl).cons rfl rfl
    refine ⟨'0' :: 'x' :: u, htakes', fun s t p' hs _ hp' => ?_⟩
    obtain ⟨cs', o'⟩ := p'
    obtain rfl : cs' = '0' :: 'x' :: (u ++ s) := hp'
    exact hagain s t o' (o' + 2) hs
  · rename_i rest hrest
    obtain rfl : cs = '0' :: 'X' :: rest := hrest
    obtain ⟨u, htakes, hagain⟩ := hexadecimal_again h
    have htakes' : (Place.mk ('0' :: 'X' :: rest) o).Takes ('0' :: 'X' :: u) n :=
      (htakes.cons (o := o + 1) rfl rfl).cons rfl rfl
    refine ⟨'0' :: 'X' :: u, htakes', fun s t p' hs _ hp' => ?_⟩
    obtain ⟨cs', o'⟩ := p'
    obtain rfl : cs' = '0' :: 'X' :: (u ++ s) := hp'
    exact hagain s t o' (o' + 2) hs
  · rename_i hlower hupper
    obtain ⟨u, htakes, hagain⟩ := settles_decimal ⟨cs, o⟩ k n h
    refine ⟨u, htakes, fun s t p' hs hdot hp' => ?_⟩
    obtain ⟨n', hn', hrest'⟩ := hagain s t p' hs hdot hp'
    refine ⟨n', ?_, hrest'⟩
    have hcs : cs = p'.rest ++ t := by
      rw [hp', List.append_assoc, ← hs]
      exact htakes.rest
    change number p' = _
    unfold number
    split
    · rename_i rest hrest
      rw [hrest] at hcs
      exact absurd hcs (hlower _)
    · rename_i rest hrest
      rw [hrest] at hcs
      exact absurd hcs (hupper _)
    · exact hn'

/-! ## Strings and template literals -/

theorem digits_again {start k : Nat} {x : Char × Nat} {r : List Char} (hk : k ≤ u.length)
    (h : escape.digits start k (u ++ r) = .ok x) (start' : Nat) :
    escape.digits start' k (u ++ s) = .ok x := by
  unfold escape.digits at h ⊢
  rw [List.take_append_of_le_length hk] at h ⊢
  dsimp only at h ⊢
  split at h
  · exact h
  · cases h

theorem digits_taken {start k taken : Nat} {image : Char} {r : List Char}
    (h : escape.digits start k r = .ok (image, taken)) : taken = k + 1 := by
  unfold escape.digits at h
  dsimp only at h
  split at h
  · exact (Prod.mk.inj (Except.ok.inj h)).2.symm
  · cases h

/-- An escape sequence is settled by the characters that it takes. -/
theorem escape_again {start taken : Nat} {image : Char} {r : List Char}
    (h : escape start (u ++ r) = .ok (image, taken)) (htaken : taken ≤ u.length) (start' : Nat) :
    escape start' (u ++ s) = .ok (image, taken) := by
  cases u with
  | nil =>
    obtain rfl : taken = 0 := Nat.le_zero.mp htaken
    unfold escape at h
    split at h
    · cases h
    · cases digits_taken h
    · cases digits_taken h
    · cases h
  | cons c u =>
    rw [List.cons_append] at h ⊢
    unfold escape at h
    split at h
    · rename_i hnil
      cases hnil
    · rename_i rest hrest
      obtain ⟨rfl, rfl⟩ := List.cons.inj hrest
      obtain rfl := digits_taken h
      exact digits_again (Nat.le_of_succ_le_succ htaken) h start'
    · rename_i rest hrest
      obtain ⟨rfl, rfl⟩ := List.cons.inj hrest
      obtain rfl := digits_taken h
      exact digits_again (Nat.le_of_succ_le_succ htaken) h start'
    · rename_i d rest hx hu hrest
      obtain ⟨rfl, rfl⟩ := List.cons.inj hrest
      unfold escape
      split
      · rename_i hnil
        cases hnil
      · rename_i rest hrest
        exact absurd (List.cons.inj hrest).1 hx
      · rename_i rest hrest
        exact absurd (List.cons.inj hrest).1 hu
      · rename_i d' rest' _ _ hrest
        obtain ⟨rfl, -⟩ := List.cons.inj hrest
        exact h

theorem string_again {quote : Char} {start : Nat} {text : String} {cs : List Char} :
    ∀ {done : List Char} {skip o : Nat}, stringRest quote start done skip o cs = .ok (text, n) →
      ∃ u, (Place.mk cs o).Takes u n ∧ skip < u.length ∧
        ∀ s start' o', ∃ n', stringRest quote start' done skip o' (u ++ s) = .ok (text, n') ∧
          n'.rest = s := by
  induction cs with
  | nil =>
    intro done skip o h
    cases skip <;> cases h
  | cons c cs ih =>
    intro done skip o h
    cases skip with
    | succ skip =>
      obtain ⟨u, htakes, hskip, hagain⟩ := ih h
      refine ⟨c :: u, htakes.cons rfl rfl, Nat.succ_lt_succ hskip, fun s start' o' => ?_⟩
      exact hagain s start' (o' + c.utf8Size)
    | zero =>
      unfold stringRest at h
      split at h
      · cases h
      · rename_i hline
        split at h
        · rename_i hquote
          obtain ⟨rfl, rfl⟩ := Prod.mk.inj (Except.ok.inj h)
          have htakes : (Place.mk (c :: cs) o).Takes [c] ⟨cs, o + c.utf8Size⟩ :=
            (Place.Takes.nothing _).cons rfl rfl
          refine ⟨[c], htakes, Nat.zero_lt_one, fun s start' o' => ⟨⟨s, o' + c.utf8Size⟩, ?_, rfl⟩⟩
          change stringRest quote start' done 0 o' (c :: s) = _
          unfold stringRest
          rw [if_neg hline, if_pos hquote]
        · rename_i hquote
          split at h
          · rename_i hslash
            rcases hescape : escape start cs with e | ⟨image, taken⟩
            · rw [hescape] at h
              cases h
            · rw [hescape] at h
              obtain ⟨u, htakes, hskip, hagain⟩ := ih h
              have hsize : c.utf8Size = 1 := by
                rw [hslash]
                rfl
              refine ⟨c :: u, htakes.cons rfl (by rw [hsize]), Nat.succ_pos _, fun s start' o' => ?_⟩
              rw [show cs = u ++ n.rest from htakes.rest] at hescape
              obtain ⟨n', hn', hrest⟩ := hagain s start' (o' + 1)
              refine ⟨n', ?_, hrest⟩
              rw [List.cons_append]
              unfold stringRest
              rw [if_neg hline, if_neg hquote, if_pos hslash,
                escape_again hescape (Nat.le_of_lt hskip) start']
              exact hn'
          · rename_i hslash
            obtain ⟨u, htakes, -, hagain⟩ := ih h
            refine ⟨c :: u, htakes.cons rfl rfl, Nat.succ_pos _, fun s start' o' => ?_⟩
            obtain ⟨n', hn', hrest⟩ := hagain s start' (o' + c.utf8Size)
            refine ⟨n', ?_, hrest⟩
            rw [List.cons_append]
            unfold stringRest
            rw [if_neg hline, if_neg hquote, if_neg hslash]
            exact hn'

/-- How many characters of an escape sequence are still to be passed. -/
def Template.skip : Template → Nat
  | .text skip => skip
  | _ => 0

/-- The characters settle what is read of a template literal from here on. -/
structure SettlesTemplate (text : List Char) (chunks : List Chunk) (mode : Template) (o : Nat)
    (parts : List Chunk) (u : List Char) : Prop where
  skip : mode.skip < u.length
  again : ∀ s start, ∃ n, templateRest start text chunks mode o (u ++ s) = .ok (parts, n) ∧ n.rest = s

/-- One character is taken, and the rest from a different state on. -/
theorem settlesTemplate_cons {text text' : List Char} {chunks chunks' parts : List Chunk}
    {mode mode' : Template} {start o w : Nat} {c : Char} {rest : List Char}
    (h : ∃ u, (Place.mk rest (start + (o + w))).Takes u n ∧
      SettlesTemplate text' chunks' mode' (o + w) parts u)
    (hw : c.utf8Size = w) (hskip : mode.skip ≤ mode'.skip + 1)
    (hstep : ∀ u s start, rest = u ++ n.rest → mode'.skip < u.length →
      templateRest start text chunks mode o (c :: (u ++ s)) =
        templateRest start text' chunks' mode' (o + w) (u ++ s)) :
    ∃ u, (Place.mk (c :: rest) (start + o)).Takes u n ∧
      SettlesTemplate text chunks mode o parts u := by
  obtain ⟨u, htakes, hsettles⟩ := h
  have hskip' := hsettles.skip
  refine ⟨c :: u, htakes.cons rfl ?_, ?_, fun s start => ?_⟩
  · rw [hw, Nat.add_assoc]
  · rw [List.length_cons]
    omega
  · obtain ⟨n', hn, hrest⟩ := hsettles.again s start
    exact ⟨n', (hstep u s start htakes.rest hskip').trans hn, hrest⟩

/-- A template literal is settled by the characters that it takes. -/
theorem template_again {start : Nat} {text : List Char} {chunks parts : List Chunk}
    {mode : Template} {o : Nat} {cs : List Char}
    (h : templateRest start text chunks mode o cs = .ok (parts, n)) :
    ∃ u, (Place.mk cs (start + o)).Takes u n ∧ SettlesTemplate text chunks mode o parts u := by
  fun_induction templateRest start text chunks mode o cs
  case case1 => cases h
  case case6 => cases h
  case case2 ih => exact settlesTemplate_cons (ih h) rfl (Nat.le_refl _) fun _ _ _ _ _ => rfl
  case case3 text chunks o rest ih =>
    obtain ⟨u, htakes, hsettles⟩ := ih h
    have htakes' : (Place.mk ('$' :: '\x7b' :: rest) (start + o)).Takes ('$' :: '\x7b' :: u) n :=
      (htakes.cons (o := start + o + 1) rfl rfl).cons rfl rfl
    exact ⟨'$' :: '\x7b' :: u, htakes', Nat.succ_pos _, fun s start => hsettles.again s start⟩
  case case4 text chunks o rest _ =>
    obtain ⟨rfl, rfl⟩ := Prod.mk.inj (Except.ok.inj h)
    refine ⟨[backquote], (Place.Takes.nothing _).cons rfl rfl, Nat.zero_lt_one, fun s start => ?_⟩
    exact ⟨⟨s, start + (o + 1)⟩, rfl, rfl⟩
  case case5 hescape _ _ ih =>
    refine settlesTemplate_cons (ih h) rfl (Nat.zero_le _) fun u s start hrest hskip => ?_
    rw [hrest] at hescape
    rw [templateRest, if_neg (by decide), if_pos rfl,
      escape_again hescape (Nat.le_of_lt hskip) start]
    nofun
  case case7 text chunks o c rest hdollar hquote hslash ih =>
    refine settlesTemplate_cons (ih h) rfl (Nat.zero_le _) fun u s start hrest hskip => ?_
    rw [templateRest, if_neg hquote, if_neg hslash]
    -- what follows a dollar sign is no brace, for it has not been one
    rintro rest' rfl hbrace
    cases u with
    | nil => exact absurd hskip (Nat.lt_irrefl 0)
    | cons d u =>
      obtain ⟨rfl, -⟩ := List.cons.inj hbrace
      exact hdollar (u ++ n.rest) rfl hrest
  case case13 h₁ h₂ h₃ h₄ h₅ ih =>
    refine settlesTemplate_cons (ih h) rfl (Nat.zero_le _) fun u s start _ _ => ?_
    rw [templateRest] <;> assumption
  case case14 ih => exact settlesTemplate_cons (ih h) rfl (Nat.zero_le _) fun _ _ _ _ _ => rfl
  all_goals
    rename_i ih
    exact settlesTemplate_cons (ih h) rfl (Nat.zero_le _) fun _ _ _ _ _ => rfl

/-! ## Punctuators and tokens -/

theorem strip?_append (a b : List Char) : strip? a (a ++ b) = some b := by
  induction a with
  | nil => rfl
  | cons c a ih => exact (if_pos rfl).trans ih

theorem eq_append_of_strip? {a cs : List Char} (h : strip? a cs = some s) : cs = a ++ s := by
  induction a generalizing cs with
  | nil => exact Option.some.inj h
  | cons c a ih =>
    cases cs with
    | nil => cases h
    | cons d cs =>
      unfold strip? at h
      split at h
      · rename_i hcd
        rw [hcd, ih h, List.cons_append]
      · cases h

theorem spelling_utf8ByteSize (q : Punctuator) :
    q.spelling.utf8ByteSize = byteLength q.spelling.toList := by
  cases q <;> rfl

theorem behind?_eq_some {cs : List Char} {x q : Punctuator} (h : behind? cs x = some (q, s)) :
    x = q ∧ cs = q.spelling.toList ++ s ∧
      ¬ (q = .optionalChain ∧ startsWith Char.isDigit s = true) := by
  unfold behind? at h
  split at h
  · rename_i rest hstrip
    split at h
    · cases h
    · rename_i hdigit
      obtain ⟨rfl, rfl⟩ := Prod.mk.inj (Option.some.inj h)
      refine ⟨rfl, eq_append_of_strip? hstrip, fun hq => hdigit ?_⟩
      rw [hq.1, hq.2]
      rfl
  · cases h

theorem behind?_append {q : Punctuator}
    (h : ¬ (q = .optionalChain ∧ startsWith Char.isDigit s = true)) :
    behind? (q.spelling.toList ++ s) q = some (q, s) := by
  unfold behind?
  rw [strip?_append]
  refine if_neg fun hq => h ?_
  obtain ⟨hq, hdigit⟩ := Bool.and_eq_true_iff.mp hq
  exact ⟨of_decide_eq_true hq, hdigit⟩

/-- A punctuator that does not stand at the front of a text does not stand at the front of a shorter
one, but for a question mark and a point before a digit. -/
theorem behind?_eq_none {cs : List Char} {x : Punctuator} (h : behind? (cs ++ t) x = none)
    (hcs : cs ≠ ['?', '.']) : behind? cs x = none := by
  rcases hx : behind? cs x with _ | ⟨q, s⟩
  · rfl
  · obtain ⟨rfl, rfl, hdigit⟩ := behind?_eq_some hx
    rw [List.append_assoc, behind?_append] at h
    · cases h
    · rintro ⟨rfl, hdigit'⟩
      refine hdigit ⟨rfl, ?_⟩
      cases s with
      | nil => exact absurd rfl hcs
      | cons c s => exact hdigit'

/-- The one punctuator that takes a question mark and a point. -/
theorem eq_optionalChain {x : Punctuator} (hs : s ≠ ['.'])
    (h : x.spelling.toList ++ s = ['?', '.']) : x = .optionalChain ∧ s = [] := by
  cases x
  case question => exact absurd (List.cons.inj h).2 hs
  case optionalChain => exact ⟨rfl, (List.cons.inj (List.cons.inj h).2).2⟩
  case nullish => cases (List.cons.inj (List.cons.inj h).2).1
  all_goals cases (List.cons.inj h).1

theorem settles_punctuator (p : Place) : Settles (fun p k n => punctuator p = .ok (k, n)) p := by
  intro k n h
  obtain ⟨cs, o⟩ := p
  unfold punctuator at h
  rcases hfind : Punctuator.all.findSome? (behind? cs) with _ | ⟨q, rest⟩
  · rw [hfind] at h
    cases h
  · rw [hfind] at h
    obtain ⟨rfl, rfl⟩ := Prod.mk.inj (Except.ok.inj h)
    obtain ⟨front, x, behind, hall, hx, hfront⟩ := List.findSome?_eq_some_iff.mp hfind
    obtain ⟨rfl, rfl, hdigit⟩ := behind?_eq_some hx
    refine ⟨x.spelling.toList, ⟨rfl, ?_⟩, fun s t p' hs hdot hp' => ?_⟩
    · exact congrArg (o + ·) (spelling_utf8ByteSize x)
    obtain ⟨cs', o'⟩ := p'
    obtain rfl : cs' = x.spelling.toList ++ s := hp'
    obtain rfl : rest = s ++ t := hs
    have hx' : behind? (x.spelling.toList ++ s) x = some (x, s) :=
      behind?_append fun ⟨hx, hs⟩ => hdigit ⟨hx, startsWith_append hs⟩
    have hfind' : Punctuator.all.findSome? (behind? (x.spelling.toList ++ s)) = some (x, s) := by
      by_cases hcs : x.spelling.toList ++ s = ['?', '.']
      · obtain ⟨rfl, rfl⟩ := eq_optionalChain hdot hcs
        rfl
      · refine List.findSome?_eq_some_iff.mpr ⟨front, x, behind, hall, hx', fun y hy => ?_⟩
        have hy := hfront y hy
        rw [← List.append_assoc] at hy
        exact behind?_eq_none hy hcs
    refine ⟨⟨s, o' + x.spelling.utf8ByteSize⟩, ?_, rfl⟩
    change punctuator ⟨x.spelling.toList ++ s, o'⟩ = _
    unfold punctuator
    rw [hfind']

theorem isNameChar_of_isNameStart {c : Char} (h : isNameStart c = true) : isNameChar c = true := by
  simp only [isNameStart, isNameChar, Text.isAlphanumeric, Bool.or_eq_true] at h ⊢
  rcases h with (h | h) | h
  · exact .inl (.inl (.inl h))
  · exact .inl (.inr h)
  · exact .inr h

/-- Whether a text starts with a number. -/
def startsNumber (c : Char) (rest : List Char) : Bool :=
  c.isDigit || (c == '.' && startsWith Char.isDigit rest)

theorem startsNumber_append {c : Char} (h : startsNumber c s = true) :
    startsNumber c (s ++ t) = true := by
  simp only [startsNumber, Bool.or_eq_true, Bool.and_eq_true] at h ⊢
  exact h.imp_right fun h => ⟨h.1, startsWith_append h.2⟩

/-- A number is settled, and so is that it is one. -/
theorem number_again {c : Char} {rest : List Char} {o : Nat} {k : TokenKind}
    (hc : startsNumber c rest = true) (h : number ⟨c :: rest, o⟩ = .ok (k, n)) :
    ∃ u, (Place.mk (c :: rest) o).Takes (c :: u) n ∧ ∀ s t o', n.rest = s ++ t → s ≠ ['.'] →
      startsNumber c (u ++ s) = true ∧
        ∃ n', number ⟨c :: (u ++ s), o'⟩ = .ok (k, n') ∧ n'.rest = s := by
  obtain ⟨u, htakes, hagain⟩ := settles_number ⟨c :: rest, o⟩ k n h
  cases u with
  | nil =>
    obtain ⟨n', hn', -⟩ := hagain [] n.rest ⟨[], 0⟩ rfl (List.cons_ne_nil _ _).symm rfl
    cases hn'
  | cons d u =>
    obtain ⟨rfl, hrest⟩ := List.cons.inj htakes.rest
    refine ⟨u, htakes, fun s t o' hs hdot => ?_⟩
    obtain ⟨n', hn', hs'⟩ := hagain s t ⟨c :: (u ++ s), o'⟩ hs hdot rfl
    refine ⟨?_, n', hn', hs'⟩
    rw [show rest = (u ++ s) ++ t by rw [List.append_assoc, ← hs]; exact hrest] at hc
    simp only [startsNumber, Bool.or_eq_true, Bool.and_eq_true] at hc ⊢
    refine hc.imp_right fun hc => ⟨hc.1, ?_⟩
    -- a lone point is no number
    cases hrest' : u ++ s with
    | nil =>
      rw [hrest', eq_of_beq hc.1] at hn'
      cases hn'
    | cons d rest' =>
      rw [hrest'] at hc
      exact hc.2

theorem punctuator_again {c : Char} {rest : List Char} {o : Nat} {k : TokenKind}
    (h : punctuator ⟨c :: rest, o⟩ = .ok (k, n)) :
    ∃ u, (Place.mk (c :: rest) o).Takes (c :: u) n ∧ ∀ s t o', n.rest = s ++ t → s ≠ ['.'] →
      ∃ n', punctuator ⟨c :: (u ++ s), o'⟩ = .ok (k, n') ∧ n'.rest = s := by
  obtain ⟨u, htakes, hagain⟩ := settles_punctuator ⟨c :: rest, o⟩ k n h
  cases u with
  | nil =>
    obtain ⟨n', hn', -⟩ := hagain [] n.rest ⟨[], 0⟩ rfl (List.cons_ne_nil _ _).symm rfl
    cases hn'
  | cons d u =>
    obtain ⟨rfl, -⟩ := List.cons.inj htakes.rest
    exact ⟨u, htakes, fun s t o' hs hdot => hagain s t ⟨c :: (u ++ s), o'⟩ hs hdot rfl⟩

theorem word_again {c : Char} {rest name : List Char} {o : Nat} (hc : test c = true)
    (h : spanAt test ⟨c :: rest, o⟩ = (name, n)) :
    ∃ u, (Place.mk (c :: rest) o).Takes (c :: u) n ∧ ∀ s t o', n.rest = s ++ t →
      ∃ n', spanAt test ⟨c :: (u ++ s), o'⟩ = (name, n') ∧ n'.rest = s := by
  have hne := spanAt_ne_nil h hc
  obtain ⟨htakes, hall, hend⟩ := takes_spanAt h
  obtain ⟨d, u, rfl⟩ := List.exists_cons_of_ne_nil hne
  obtain ⟨rfl, -⟩ := List.cons.inj htakes.rest
  refine ⟨u, htakes, fun s t o' hs => ⟨⟨s, o' + byteLength (c :: u)⟩, ?_, rfl⟩⟩
  rw [hs] at hend
  exact spanAt_append hall (startsWith_of_append hend) o'

theorem token_cons (c : Char) (rest : List Char) (o : Nat) :
    token ⟨c :: rest, o⟩ =
      if startsNumber c rest then number ⟨c :: rest, o⟩
      else if c = '"' ∨ c = '\'' then
        (stringRest c o [] 0 (o + 1) rest).map fun x => (.string x.1, x.2)
      else if c = backquote then
        (templateRest o [] [] (.text 0) 1 rest).map fun x => (.template x.1, x.2)
      else if isNameStart c then
        .ok (.word (String.ofList (spanAt isNameChar ⟨c :: rest, o⟩).1),
          (spanAt isNameChar ⟨c :: rest, o⟩).2)
      else punctuator ⟨c :: rest, o⟩ :=
  rfl

/-- What `token` takes is settled. -/
theorem settles_token (p : Place) : Settles (fun p k n => token p = .ok (k, n)) p := by
  intro k n h
  obtain ⟨cs, o⟩ := p
  cases cs with
  | nil =>
    obtain ⟨rfl, rfl⟩ := Prod.mk.inj (Except.ok.inj h)
    refine ⟨[], .nothing _, fun s t p' hs _ hp' => ⟨p', ?_, hp'⟩⟩
    obtain ⟨rfl, -⟩ := List.append_eq_nil_iff.mp hs.symm
    obtain ⟨cs', o'⟩ := p'
    obtain rfl : cs' = [] := hp'
    rfl
  | cons c rest =>
    have h : token ⟨c :: rest, o⟩ = .ok (k, n) := h
    change ∃ u, _ ∧ ∀ s t p', _ → _ → _ → ∃ n', token p' = .ok (k, n') ∧ _
    rw [token_cons] at h
    split at h
    · rename_i hc
      obtain ⟨u, htakes, hagain⟩ := number_again hc h
      refine ⟨c :: u, htakes, fun s t p' hs hdot hp' => ?_⟩
      obtain ⟨cs', o'⟩ := p'
      obtain rfl : cs' = c :: (u ++ s) := hp'
      obtain ⟨hc', hn'⟩ := hagain s t o' hs hdot
      rwa [token_cons, if_pos hc']
    · rename_i hc
      have hc' {u s t : List Char} (hrest : rest = u ++ n.rest) (hs : n.rest = s ++ t) :
          ¬ startsNumber c (u ++ s) = true := by
        intro hnumber
        rw [hrest, hs, ← List.append_assoc] at hc
        exact hc (startsNumber_append hnumber)
      split at h
      · rename_i hquote
        rcases hstring : stringRest c o [] 0 (o + 1) rest with e | ⟨text, q⟩
        · rw [hstring] at h
          cases h
        · rw [hstring] at h
          obtain ⟨rfl, rfl⟩ := Prod.mk.inj (Except.ok.inj h)
          obtain ⟨u, htakes, -, hagain⟩ := string_again hstring
          refine ⟨c :: u, htakes.cons rfl ?_, fun s t p' hs _ hp' => ?_⟩
          · rcases hquote with rfl | rfl <;> rfl
          · obtain ⟨cs', o'⟩ := p'
            obtain rfl : cs' = c :: (u ++ s) := hp'
            obtain ⟨n', hn', hs'⟩ := hagain s o' (o' + 1)
            refine ⟨n', ?_, hs'⟩
            rw [token_cons, if_neg (hc' htakes.rest hs), if_pos hquote, hn']
            rfl
      · rename_i hquote
        split at h
        · rename_i hback
          rcases htemplate : templateRest o [] [] (.text 0) 1 rest with e | ⟨parts, q⟩
          · rw [htemplate] at h
            cases h
          · rw [htemplate] at h
            obtain ⟨rfl, rfl⟩ := Prod.mk.inj (Except.ok.inj h)
            obtain ⟨u, htakes, hagain⟩ := template_again htemplate
            refine ⟨c :: u, htakes.cons rfl (by rw [hback]; rfl), fun s t p' hs _ hp' => ?_⟩
            obtain ⟨cs', o'⟩ := p'
            obtain rfl : cs' = c :: (u ++ s) := hp'
            obtain ⟨n', hn', hs'⟩ := hagain.again s o'
            refine ⟨n', ?_, hs'⟩
            rw [token_cons, if_neg (hc' htakes.rest hs), if_neg hquote, if_pos hback, hn']
            rfl
        · rename_i hback
          split at h
          · rename_i hname
            rcases hspan : spanAt isNameChar ⟨c :: rest, o⟩ with ⟨name, q⟩
            rw [hspan] at h
            obtain ⟨rfl, rfl⟩ := Prod.mk.inj (Except.ok.inj h)
            obtain ⟨u, htakes, hagain⟩ := word_again (isNameChar_of_isNameStart hname) hspan
            refine ⟨c :: u, htakes, fun s t p' hs _ hp' => ?_⟩
            obtain ⟨cs', o'⟩ := p'
            obtain rfl : cs' = c :: (u ++ s) := hp'
            obtain ⟨n', hn', hs'⟩ := hagain s t o' hs
            refine ⟨n', ?_, hs'⟩
            rw [token_cons, if_neg (hc' htakes.tail hs), if_neg hquote, if_neg hback, if_pos hname,
              hn']
          · rename_i hname
            obtain ⟨u, htakes, hagain⟩ := punctuator_again h
            refine ⟨c :: u, htakes, fun s t p' hs hdot hp' => ?_⟩
            obtain ⟨cs', o'⟩ := p'
            obtain rfl : cs' = c :: (u ++ s) := hp'
            obtain ⟨n', hn', hs'⟩ := hagain s t o' hs hdot
            refine ⟨n', ?_, hs'⟩
            rw [token_cons, if_neg (hc' htakes.tail hs), if_neg hquote, if_neg hback, if_neg hname,
              hn']

theorem kind_of_hexadecimal {start : Nat} {k : TokenKind} (h : hexadecimal start p = .ok (k, n)) :
    ∃ x, k = .number x := by
  unfold hexadecimal at h
  dsimp only at h
  split at h
  · obtain ⟨rfl, -⟩ := Prod.mk.inj (Except.ok.inj h)
    exact ⟨_, rfl⟩
  · cases h

theorem kind_of_number {k : TokenKind} (h : number p = .ok (k, n)) : ∃ x, k = .number x := by
  unfold number at h
  split at h
  · exact kind_of_hexadecimal h
  · exact kind_of_hexadecimal h
  · unfold decimal at h
    dsimp only at h
    split at h
    · cases h
    · split at h
      · obtain ⟨rfl, -⟩ := Prod.mk.inj (Except.ok.inj h)
        exact ⟨_, rfl⟩
      · cases h

/-- Characters are not read as `eof`. -/
theorem token_ne_eof {k : TokenKind} (h : token p = .ok (k, n)) (hp : p.rest ≠ []) : k ≠ .eof := by
  obtain ⟨cs, o⟩ := p
  obtain ⟨c, rest, rfl⟩ := List.exists_cons_of_ne_nil hp
  rintro rfl
  rw [token_cons] at h
  split at h
  · obtain ⟨x, hx⟩ := kind_of_number h
    cases hx
  · split at h
    · cases hs : stringRest c o [] 0 (o + 1) rest <;> rw [hs] at h <;> cases h
    · split at h
      · cases hs : templateRest o [] [] (.text 0) 1 rest <;> rw [hs] at h <;> cases h
      · split at h
        · cases h
        · unfold punctuator at h
          split at h <;> cases h

/-- A token takes characters, and they settle it. -/
theorem token_again {k : TokenKind} (h : token p = .ok (k, n)) (hp : p.rest ≠ []) :
    ∃ u, u ≠ [] ∧ p.Takes u n ∧ ∀ s t p', n.rest = s ++ t → s ≠ ['.'] → p'.rest = u ++ s →
      ∃ n', token p' = .ok (k, n') ∧ n'.rest = s := by
  obtain ⟨u, htakes, hagain⟩ := settles_token p k n h
  refine ⟨u, ?_, htakes, hagain⟩
  rintro rfl
  obtain ⟨n', hn', -⟩ := hagain [] n.rest ⟨[], 0⟩ rfl (List.cons_ne_nil _ _).symm rfl
  cases hn'
  exact token_ne_eof h hp rfl

/-! ## Blanks and comments -/

/-- Comments are told apart by where they start, which does not matter but for the error. -/
def Trivia.at (start : Nat) : Trivia → Trivia
  | .comment _ => .comment start
  | mode => mode

/-- The characters are skipped, up to any end behind them. -/
def Skips (mode : Trivia) (u : List Char) (rest : List Char) : Prop :=
  ∀ s t start o, rest = s ++ t →
    trivia (mode.at start) o (u ++ s) = .ok ⟨s, o + byteLength u⟩

theorem Skips.cons {mode mode' : Trivia} {c : Char} {rest : List Char} (h : Skips mode' u rest)
    (hstep : ∀ s t start o, rest = s ++ t → ∃ start', trivia (mode.at start) o (c :: (u ++ s)) =
      trivia (mode'.at start') (o + c.utf8Size) (u ++ s)) : Skips mode (c :: u) rest := by
  intro s t start o hs
  obtain ⟨start', hstep⟩ := hstep s t start o hs
  rw [List.cons_append, hstep, h s t start' _ hs, Text.byteLength_cons, Nat.add_assoc]

theorem trivia_blanks_cons {c : Char} {rest : List Char} {o : Nat}
    (hline : ∀ s, c = '/' → rest = '/' :: s → False)
    (hcomment : ∀ s, c = '/' → rest = '*' :: s → False) :
    trivia .blanks o (c :: rest) =
      if isBlank c then trivia .blanks (o + c.utf8Size) rest else .ok ⟨c :: rest, o⟩ := by
  rw [trivia.eq_def]
  split
  · rename_i hmode hcs
    obtain ⟨hc, hrest⟩ := List.cons.inj hcs
    exact absurd hrest (hline _ hc)
  · rename_i hmode hcs
    obtain ⟨hc, hrest⟩ := List.cons.inj hcs
    exact absurd hrest (hcomment _ hc)
  · rename_i hmode hcs
    obtain ⟨rfl, rfl⟩ := List.cons.inj hcs
    rfl
  all_goals
    rename_i hmode _
    cases hmode

theorem trivia_comment_cons {c : Char} {rest : List Char} {start o : Nat}
    (hend : ∀ s, c = '*' → rest = '/' :: s → False) :
    trivia (.comment start) o (c :: rest) = trivia (.comment start) (o + c.utf8Size) rest := by
  conv_lhs => rw [trivia.eq_def]
  split
  case h_5 hmode hcs =>
    obtain ⟨hc, hrest⟩ := List.cons.inj hcs
    exact absurd hrest (hend _ hc)
  case h_6 hmode hcs =>
    obtain ⟨rfl, rfl⟩ := List.cons.inj hcs
    cases hmode
    rfl
  all_goals
    rename_i hmode hcs
    cases hmode <;> cases hcs

/-- Blanks and comments are skipped again, up to any end behind them. -/
theorem trivia_again {mode : Trivia} {o : Nat} {cs : List Char} (h : trivia mode o cs = .ok n) :
    ∃ u, (Place.mk cs o).Takes u n ∧ Skips mode u n.rest := by
  fun_induction trivia mode o cs
  case case1 o rest ih =>
    obtain ⟨u, htakes, hskips⟩ := ih h
    have htakes' : (Place.mk ('/' :: '/' :: rest) o).Takes ('/' :: '/' :: u) n :=
      (htakes.cons (o := o + 1) rfl rfl).cons rfl rfl
    refine ⟨'/' :: '/' :: u, htakes', fun s t start o' hs => ?_⟩
    have hagain := hskips s t start (o' + 2) hs
    rw [Text.byteLength_cons, Text.byteLength_cons, ← Nat.add_assoc, ← Nat.add_assoc]
    exact hagain
  case case2 o rest ih =>
    obtain ⟨u, htakes, hskips⟩ := ih h
    have htakes' : (Place.mk ('/' :: '*' :: rest) o).Takes ('/' :: '*' :: u) n :=
      (htakes.cons (o := o + 1) rfl rfl).cons rfl rfl
    refine ⟨'/' :: '*' :: u, htakes', fun s t start o' hs => ?_⟩
    have hagain := hskips s t o' (o' + 2) hs
    rw [Text.byteLength_cons, Text.byteLength_cons, ← Nat.add_assoc, ← Nat.add_assoc]
    exact hagain
  case case3 c rest hline hcomment hblank ih =>
    obtain ⟨u, htakes, hskips⟩ := ih h
    have hslash : c ≠ '/' := by
      rintro rfl
      exact absurd hblank (by decide)
    refine ⟨c :: u, htakes.cons rfl rfl, hskips.cons fun s t start o' hs => ⟨start, ?_⟩⟩
    refine (trivia_blanks_cons (fun _ hc => absurd hc hslash) fun _ hc => absurd hc hslash).trans ?_
    rw [if_pos hblank]
    rfl
  case case4 o c rest hline hcomment hblank =>
    cases h
    refine ⟨[], .nothing _, fun s t start o' hs => ?_⟩
    cases s with
    | nil => rfl
    | cons d s =>
      obtain ⟨rfl, rfl⟩ := List.cons.inj hs
      refine (trivia_blanks_cons (fun s' hc hs' => ?_) fun s' hc hs' => ?_).trans (if_neg hblank)
      · exact hline (s' ++ t) hc (by rw [hs']; rfl)
      · exact hcomment (s' ++ t) hc (by rw [hs']; rfl)
  case case5 o c rest ih =>
    obtain ⟨u, htakes, hskips⟩ := ih h
    refine ⟨c :: u, htakes.cons rfl rfl, hskips.cons fun s t start o' hs => ⟨start, ?_⟩⟩
    change trivia (if c = '\n' then .blanks else .lineComment) _ _ = _
    split <;> rfl
  case case6 o rest ih =>
    obtain ⟨u, htakes, hskips⟩ := ih h
    have htakes' : (Place.mk ('*' :: '/' :: rest) o).Takes ('*' :: '/' :: u) n :=
      (htakes.cons (o := o + 1) rfl rfl).cons rfl rfl
    refine ⟨'*' :: '/' :: u, htakes', fun s t start o' hs => ?_⟩
    have hagain := hskips s t start (o' + 2) hs
    rw [Text.byteLength_cons, Text.byteLength_cons, ← Nat.add_assoc, ← Nat.add_assoc]
    exact hagain
  case case7 start o c rest hend ih =>
    obtain ⟨u, htakes, hskips⟩ := ih h
    refine ⟨c :: u, htakes.cons rfl rfl, hskips.cons fun s t start' o' hs => ⟨start', ?_⟩⟩
    refine trivia_comment_cons fun rest' hc hrest' => ?_
    -- the comment ends behind `u`, so that `u` is not empty
    cases u with
    | nil => cases hskips [] n.rest 0 0 rfl
    | cons d u =>
      obtain ⟨rfl, -⟩ := List.cons.inj hrest'
      exact hend (u ++ n.rest) hc htakes.rest
  case case8 => cases h
  case case9 mode o hmode =>
    cases h
    refine ⟨[], .nothing _, fun s t start o' hs => ?_⟩
    obtain ⟨rfl, -⟩ := List.append_eq_nil_iff.mp hs.symm
    cases mode with
    | comment start => exact absurd rfl (hmode start)
    | _ => rfl

/-- Behind blanks and comments there are no more of them. -/
theorem trivia_trivia {mode : Trivia} {o : Nat} {cs : List Char} (h : trivia mode o cs = .ok n) :
    trivia .blanks n.offset n.rest = .ok n := by
  fun_induction trivia mode o cs
  case case4 hline hcomment hblank =>
    cases h
    exact (trivia_blanks_cons hline hcomment).trans (if_neg hblank)
  case case8 => cases h
  case case9 =>
    cases h
    rfl
  all_goals
    rename_i ih
    exact ih h

/-! ## Texts as tokens -/

/-- The tokens from a place on that is not in front of blanks. -/
inductive Lexed : Place → List Token → Prop where
  | done {o : Nat} : Lexed ⟨[], o⟩ [⟨.eof, o⟩]
  | next {p n q : Place} {k : TokenKind} {ts : List Token}
      (bare : trivia .blanks p.offset p.rest = .ok p) (ne : p.rest ≠ [])
      (token : token p = .ok (k, n)) (blanks : trivia .blanks n.offset n.rest = .ok q)
      (rest : Lexed q ts) : Lexed p (⟨k, p.offset⟩ :: ts)

theorem tokens_succ {fuel : Nat} {done : List Token} {q : Place}
    (h : trivia .blanks p.offset p.rest = .ok q) :
    tokens done (fuel + 1) p =
      if q.rest.isEmpty then .ok (done.reverse ++ [⟨.eof, q.offset⟩])
      else match token q with
        | .ok (k, n) => tokens (⟨k, q.offset⟩ :: done) fuel n
        | .error e => .error e := by
  rw [tokens, h]
  change (if q.rest.isEmpty then _ else _) = _
  cases token q <;> rfl

theorem token_length {k : TokenKind} {q : Place} (hblanks : trivia .blanks p.offset p.rest = .ok q)
    (htoken : token q = .ok (k, n)) (hq : q.rest ≠ []) : n.rest.length < p.rest.length := by
  obtain ⟨u, hblank, -⟩ := trivia_again hblanks
  obtain ⟨v, hv, htakes, -⟩ := token_again htoken hq
  have := List.length_pos_iff.mpr hv
  have hrest : p.rest = u ++ q.rest := hblank.rest
  rw [hrest, htakes.rest, List.length_append, List.length_append]
  omega

theorem exists_lexed {fuel : Nat} {done ts : List Token} (hfuel : p.rest.length < fuel)
    (h : tokens done fuel p = .ok ts) :
    ∃ q ts', trivia .blanks p.offset p.rest = .ok q ∧ Lexed q ts' ∧ ts = done.reverse ++ ts' := by
  induction fuel generalizing p done with
  | zero => exact absurd hfuel (Nat.not_lt_zero _)
  | succ fuel ih =>
    rcases hblanks : trivia .blanks p.offset p.rest with e | q
    · rw [tokens, hblanks] at h
      cases h
    · rw [tokens_succ hblanks] at h
      split at h
      · rename_i hend
        obtain ⟨cs, o⟩ := q
        obtain rfl := List.isEmpty_iff.mp hend
        cases h
        exact ⟨_, _, rfl, .done, rfl⟩
      · rename_i hend
        have hq : q.rest ≠ [] := fun hnil => hend (List.isEmpty_iff.mpr hnil)
        rcases htoken : token q with e | ⟨k, n⟩
        · rw [htoken] at h
          cases h
        · rw [htoken] at h
          have hlt := token_length hblanks htoken hq
          obtain ⟨q', ts', hblanks', hlexed, rfl⟩ := ih (by omega) h
          refine ⟨q, _, rfl, .next (trivia_trivia hblanks) hq htoken hblanks' hlexed, ?_⟩
          rw [List.reverse_cons, List.append_assoc]
          rfl

/-- With more turns than there are characters to come, the turns do not run out. -/
theorem tokens_congr_fuel {fuel fuel' : Nat} {done : List Token} (hfuel : p.rest.length < fuel)
    (hfuel' : p.rest.length < fuel') : tokens done fuel p = tokens done fuel' p := by
  induction fuel generalizing p done fuel' with
  | zero => exact absurd hfuel (Nat.not_lt_zero _)
  | succ fuel ih =>
    obtain ⟨fuel', rfl⟩ := Nat.exists_eq_add_one_of_ne_zero (Nat.ne_zero_of_lt hfuel')
    rcases hblanks : trivia .blanks p.offset p.rest with e | q
    · rw [tokens, tokens, hblanks]
      rfl
    · rw [tokens_succ hblanks, tokens_succ hblanks]
      split
      · rfl
      · rename_i hend
        have hq : q.rest ≠ [] := fun hnil => hend (List.isEmpty_iff.mpr hnil)
        rcases htoken : token q with e | ⟨k, n⟩
        · rfl
        · have hlt := token_length hblanks htoken hq
          exact ih (by omega) (by omega)

theorem Lexed.tokens_eq {fuel : Nat} {done ts : List Token} {q : Place} (h : Lexed q ts)
    (hblanks : trivia .blanks p.offset p.rest = .ok q) (hfuel : p.rest.length < fuel) :
    tokens done fuel p = .ok (done.reverse ++ ts) := by
  induction h generalizing p done fuel with
  | done =>
    cases fuel with
    | zero => exact absurd hfuel (Nat.not_lt_zero _)
    | succ fuel =>
      rw [tokens_succ hblanks]
      rfl
  | next bare ne htoken hblanks' rest ih =>
    cases fuel with
    | zero => exact absurd hfuel (Nat.not_lt_zero _)
    | succ fuel =>
      have hlt := token_length hblanks htoken ne
      rw [tokens_succ hblanks, if_neg fun hend => ne (List.isEmpty_iff.mp hend), htoken]
      dsimp only
      rw [ih hblanks' (by omega), List.reverse_cons, List.append_assoc]
      rfl

/-- The last token is the one `eof`. -/
theorem Lexed.exists_init {ts : List Token} (h : Lexed p ts) :
    ∃ init o, ts = init ++ [⟨.eof, o⟩] ∧ ∀ t ∈ init, t.kind ≠ .eof := by
  induction h with
  | @done o => exact ⟨[], o, rfl, List.forall_mem_nil _⟩
  | @next p n q k ts bare ne htoken blanks rest ih =>
    obtain ⟨init, o, rfl, hinit⟩ := ih
    refine ⟨⟨k, p.offset⟩ :: init, o, rfl, fun t ht => ?_⟩
    rcases List.mem_cons.mp ht with rfl | ht
    · exact token_ne_eof htoken ne
    · exact hinit t ht

/-- The first token starts where the text does. -/
theorem Lexed.head_offset {t : Token} {ts : List Token} (h : Lexed p (t :: ts)) :
    t.offset = p.offset := by
  cases h <;> rfl

theorem Lexed.of_cons {x : Token} {ts : List Token} (h : Lexed p (x :: ts)) (hts : ts ≠ []) :
    trivia .blanks p.offset p.rest = .ok p ∧ p.rest ≠ [] ∧
      ∃ n q, token p = .ok (x.kind, n) ∧ trivia .blanks n.offset n.rest = .ok q ∧ Lexed q ts := by
  cases h with
  | done => exact absurd rfl hts
  | next bare ne htoken blanks rest => exact ⟨bare, ne, _, _, htoken, blanks, rest⟩

theorem bare_append {o : Nat} (h : trivia .blanks p.offset p.rest = .ok p) (hp : p.rest = s ++ t) :
    trivia .blanks o s = .ok ⟨s, o⟩ := by
  obtain ⟨u, htakes, hskips⟩ := trivia_again h
  obtain rfl : u = [] := List.append_left_eq_self.mp htakes.rest.symm
  exact hskips s t 0 o hp

/-- A lone point is one token. -/
theorem Lexed.of_point {o : Nat} {ts : List Token} (h : Lexed ⟨['.'], o⟩ ts) :
    ts.map Token.kind = [.punctuator .dot, .eof] := by
  cases h with
  | next bare ne htoken blanks rest =>
    cases htoken
    cases blanks
    cases rest with
    | done => rfl
    | next _ ne => exact absurd rfl ne

theorem Lexed.bare {ts : List Token} (h : Lexed p ts) : trivia .blanks p.offset p.rest = .ok p := by
  cases h with
  | done => rfl
  | next bare => exact bare

/-- No token stands in front of the place where the text starts. -/
theorem Lexed.le_offset {ts : List Token} (h : Lexed p ts) : ∀ t ∈ ts, p.offset ≤ t.offset := by
  induction h with
  | done => exact List.forall_mem_singleton.mpr (Nat.le_refl _)
  | next bare ne htoken blanks rest ih =>
    obtain ⟨a, -, ha, -⟩ := token_again htoken ne
    obtain ⟨v, hv, -⟩ := trivia_again blanks
    refine List.forall_mem_cons.mpr ⟨Nat.le_refl _, fun t ht => ?_⟩
    exact Nat.le_trans (by rw [hv.offset, ha.offset]; omega) (ih t ht)

/-- **A text that is cut in front of a token falls into the tokens in front of the cut**, wherever it
stands, if none of them is a point right there. -/
theorem Lexed.cut {u r : List Token} (h : Lexed p (u ++ r)) (hr : r ≠ [])
    (hlast : ∀ t ∈ u.getLast?, t.kind ≠ .punctuator .dot) :
    ∃ w q, p.Takes w q ∧ Lexed q r ∧
      ∀ o, Lexed ⟨w, o⟩ (u.map (Token.moved p.offset o) ++ [⟨.eof, o + byteLength w⟩]) := by
  induction u generalizing p with
  | nil => exact ⟨[], p, .nothing p, h, fun o => .done⟩
  | cons x u ih =>
    obtain ⟨bare, ne, n, q, htoken, hblanks, hrest⟩ :=
      Lexed.of_cons h fun hnil => hr (List.append_eq_nil_iff.mp hnil).2
    have hlast' : ∀ t ∈ u.getLast?, t.kind ≠ .punctuator .dot := by
      intro t ht
      refine hlast t ?_
      rw [List.getLast?_cons, show u.getLast? = some t from ht]
      rfl
    obtain ⟨w, q', htakes, hlexed, hpart⟩ := ih hrest hlast'
    obtain ⟨a, ha, hap, hagain⟩ := token_again htoken ne
    obtain ⟨v, hv, hskips⟩ := trivia_again hblanks
    have hdot : v ++ w ≠ ['.'] := by
      intro hpoint
      rcases List.append_eq_singleton_iff.mp hpoint with ⟨rfl, rfl⟩ | ⟨rfl, rfl⟩
      · have hpoint' := (hpart 0).of_point
        rw [List.map_append, List.map_map] at hpoint'
        have hkind : u.map Token.kind = [.punctuator .dot] := List.append_cancel_right hpoint'
        obtain ⟨t, rfl, ht⟩ := List.map_eq_singleton_iff.mp hkind
        exact hlast' t rfl ht
      · cases hskips [] q.rest 0 0 rfl
    have hn : n.rest = (v ++ w) ++ q'.rest := by
      rw [List.append_assoc, ← htakes.rest]
      exact hv.rest
    have hq : q.offset = p.offset + byteLength (a ++ v) := (hap.trans hv).offset
    refine ⟨a ++ (v ++ w), q', hap.trans (hv.trans htakes), hlexed, fun o => ?_⟩
    obtain ⟨n', hn', hrest'⟩ := hagain _ _ ⟨a ++ (v ++ w), o⟩ hn hdot rfl
    have hne : a ++ (v ++ w) ≠ [] := fun hnil => ha (List.append_eq_nil_iff.mp hnil).1
    -- the token takes the same characters in the part
    have hoffset : n'.offset = o + byteLength a := by
      obtain ⟨a', -, hap', -⟩ := token_again hn' hne
      have heq : a ++ (v ++ w) = a' ++ (v ++ w) := hrest' ▸ hap'.rest
      rw [List.append_cancel_right heq]
      exact hap'.offset
    have hmoved : u.map (Token.moved p.offset o) =
        u.map (Token.moved q.offset (o + byteLength (a ++ v))) := by
      refine List.map_congr_left fun t ht => congrArg (Token.mk t.kind) ?_
      have hle := hrest.le_offset t (List.mem_append_left r ht)
      omega
    have hend : o + byteLength (a ++ (v ++ w)) = o + byteLength (a ++ v) + byteLength w := by
      rw [← List.append_assoc, Text.byteLength_append, Nat.add_assoc]
    have hlexed' : Lexed ⟨w, n'.offset + byteLength v⟩
        (u.map (Token.moved p.offset o) ++ [⟨.eof, o + byteLength (a ++ (v ++ w))⟩]) := by
      rw [hmoved, hend, hoffset, Nat.add_assoc, ← Text.byteLength_append]
      exact hpart _
    have hx : Token.moved p.offset o x = ⟨x.kind, o⟩ := by
      rw [Token.moved, h.head_offset, Nat.sub_self, Nat.add_zero]
    rw [List.map_cons, List.cons_append, hx]
    refine .next (bare_append (t := q'.rest) bare ?_) hne hn' ?_ hlexed'
    · rw [hap.rest, hn, ← List.append_assoc]
    · rw [hrest']
      exact hskips w _ 0 _ htakes.rest

/-- The tokens of a part that is cut off are those of the text in front of the cut. -/
theorem Lexed.part {u r : List Token} (h : Lexed p (u ++ r)) (hr : r ≠ [])
    (hlast : ∀ t ∈ u.getLast?, t.kind ≠ .punctuator .dot) :
    ∃ w q, p.Takes w q ∧ Lexed q r ∧ ∀ o, ∃ u' o',
      Lexed ⟨w, o⟩ (u' ++ [⟨.eof, o'⟩]) ∧ u'.map Token.kind = u.map Token.kind := by
  obtain ⟨w, q, htakes, hlexed, hpart⟩ := h.cut hr hlast
  refine ⟨w, q, htakes, hlexed, fun o => ⟨_, _, hpart o, ?_⟩⟩
  rw [List.map_map]
  rfl

end Scan

/-- A text falls into tokens if there are tokens behind the blanks in front of it. -/
theorem tokenize_eq_ok {source : String} {ts : List Token} :
    tokenize source = .ok ts ↔
      ∃ q, Scan.trivia .blanks 0 source.toList = .ok q ∧ Scan.Lexed q ts := by
  constructor
  · intro h
    obtain ⟨q, ts', hblanks, hlexed, rfl⟩ := Scan.exists_lexed (Nat.lt_succ_self _) h
    exact ⟨q, hblanks, hlexed⟩
  · rintro ⟨q, hblanks, hlexed⟩
    exact hlexed.tokens_eq (p := ⟨source.toList, 0⟩) hblanks (Nat.lt_succ_self _)

end Stencil.Script
