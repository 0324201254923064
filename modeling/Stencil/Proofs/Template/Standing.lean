import Stencil.Proofs.Template.Pieces

/-! # Where braces open and close blocks

What double braces do depends on what stands before them: within quotes they do nothing, and a
brace that is open has to be closed before the block is.  All of this is a matter of three things,
which every character changes in its way (`Standing.step`).

Looking for the braces is looking for **the first place at which they stand and the text so far
admits them** (`seek?`); this is what the ends of blocks, the first block and the first nested block
have in common (`close?_eq_seek?`, `breakOn?_eq_seek?`, `breakUnquoted?_eq_seek?`), and what makes
them `firstBlock`.
-/
namespace Stencil.Template
open Stencil.Text

/-- What matters of the source of an expression, up to a place in it. -/
structure Standing where
  /-- Braces that are open; one that closes nothing does not count. -/
  depth : Nat := 0
  /-- The quotation mark that is open. -/
  quote : Option Char := none
  /-- Whether the next character stands behind a backslash, within quotes. -/
  escaped : Bool := false
  deriving DecidableEq, Repr

namespace Standing

/-- One character further. -/
def step (s : Standing) (c : Char) : Standing :=
  match s.quote with
  | some q =>
    if s.escaped then { s with escaped := false }
    else if c = '\\' then { s with escaped := true }
    else if c = q then { s with quote := none }
    else s
  | none =>
    if isQuote c then { s with quote := some c }
    else if c = '\x7b' then { s with depth := s.depth + 1 }
    else if c = '\x7d' then { s with depth := s.depth - 1 }
    else s

/-- Behind a text. -/
def after (s : Standing) (cs : List Char) : Standing :=
  cs.foldl step s

/-- Whether nothing is quoted. -/
def isCode (s : Standing) : Bool :=
  s.quote.isNone

/-- Whether nothing is quoted and no brace is open. -/
def isOutside (s : Standing) : Bool :=
  s.quote.isNone && s.depth == 0

variable {depth : Nat} {q c : Char}

@[simp] theorem after_nil (s : Standing) : s.after [] = s := rfl

@[simp] theorem after_cons (s : Standing) (c : Char) (cs : List Char) :
    s.after (c :: cs) = (s.step c).after cs := rfl

theorem step_escaped : step ⟨depth, some q, true⟩ c = ⟨depth, some q, false⟩ := rfl

theorem step_backslash : step ⟨depth, some q, false⟩ '\\' = ⟨depth, some q, true⟩ := rfl

theorem step_quoted (hc : c ≠ '\\') : step ⟨depth, some q, false⟩ c =
    ⟨depth, if c = q then none else some q, false⟩ := by
  simp only [step, Bool.false_eq_true, if_false, hc]
  split <;> rfl

theorem step_quote (hc : isQuote c) : step ⟨depth, none, false⟩ c = ⟨depth, some c, false⟩ :=
  if_pos hc

theorem step_open : step ⟨depth, none, false⟩ '\x7b' = ⟨depth + 1, none, false⟩ := rfl

theorem step_close : step ⟨depth, none, false⟩ '\x7d' = ⟨depth - 1, none, false⟩ := rfl

theorem step_other (hquote : ¬ isQuote c) (hopen : c ≠ '\x7b') (hclose : c ≠ '\x7d') :
    step ⟨depth, none, false⟩ c = ⟨depth, none, false⟩ := by
  simp only [step, hquote, hopen, hclose, Bool.false_eq_true, if_false]

/-- What is not quoted stays so up to the next quotation mark. -/
theorem step_code (hquote : ¬ isQuote c) :
    ∃ depth', step ⟨depth, none, false⟩ c = ⟨depth', none, false⟩ := by
  by_cases hopen : c = '\x7b'
  · exact ⟨depth + 1, hopen ▸ step_open⟩
  · by_cases hclose : c = '\x7d'
    · exact ⟨depth - 1, hclose ▸ step_close⟩
    · exact ⟨depth, step_other hquote hopen hclose⟩

end Standing

/-! ## The first place that admits a mark -/

/-- The text before the first place at which a mark stands and is admitted, and the text behind
the mark. -/
def seek? (mark : List Char) (admits : Standing → Bool) (s : Standing) :
    List Char → Option (List Char × List Char)
  | [] => none
  | c :: cs =>
    if admits s && mark.isPrefixOf (c :: cs) then some ([], (c :: cs).drop mark.length)
    else (seek? mark admits (s.step c) cs).map (Prod.map (c :: ·) id)

/-- A mark stands behind the first part of a text and is admitted there. -/
structure Admitted (mark : List Char) (admits : Standing → Bool) (s : Standing)
    (cs before behind : List Char) : Prop where
  eq : cs = before ++ mark ++ behind
  admits : admits (s.after before)

section Seeking
variable {mark : List Char} {admits : Standing → Bool} {s : Standing} {c : Char}
  {cs before behind : List Char}

theorem seek?_here (mark behind : List Char) (hadmits : admits s) (hne : mark ≠ []) :
    seek? mark admits s (mark ++ behind) = some ([], behind) := by
  cases mark with
  | nil => exact (hne rfl).elim
  | cons m mark =>
    have hstarts : (m :: mark).isPrefixOf (m :: (mark ++ behind)) :=
      List.isPrefixOf_iff_prefix.mpr ⟨behind, rfl⟩
    rw [List.cons_append, seek?, hadmits, hstarts]
    simp

theorem seek?_next (h : ¬ (admits s ∧ mark <+: c :: cs)) :
    seek? mark admits s (c :: cs) =
      (seek? mark admits (s.step c) cs).map (Prod.map (c :: ·) id) := by
  rw [seek?, if_neg]
  rwa [Bool.and_eq_true, List.isPrefixOf_iff_prefix]

/-- A mark is admitted at the start, or behind the first character. -/
theorem admitted_cons : Admitted mark admits s (c :: cs) before behind ↔
    (before = [] ∧ admits s ∧ c :: cs = mark ++ behind) ∨
      ∃ before', before = c :: before' ∧ Admitted mark admits (s.step c) cs before' behind := by
  constructor
  · rintro ⟨heq, hadmits⟩
    cases before with
    | nil => exact .inl ⟨rfl, hadmits, heq⟩
    | cons b before =>
      obtain ⟨rfl, htail⟩ := List.cons.inj heq
      exact .inr ⟨before, rfl, htail, hadmits⟩
  · rintro (⟨rfl, hadmits, heq⟩ | ⟨before, rfl, heq, hadmits⟩)
    · exact ⟨heq, hadmits⟩
    · exact ⟨by rw [heq]; rfl, hadmits⟩

/-- **The first place is found if there is one.** -/
theorem seek?_spec (hne : mark ≠ []) (admits : Standing → Bool) (s : Standing) (cs : List Char) :
    (seek? mark admits s cs = none → ∀ before behind,
        ¬ Admitted mark admits s cs before behind) ∧
      ∀ before behind, seek? mark admits s cs = some (before, behind) →
        Admitted mark admits s cs before behind ∧
          ∀ before' behind', Admitted mark admits s cs before' behind' → before <+: before' := by
  induction cs generalizing s with
  | nil =>
    refine ⟨fun _ before behind h => hne ?_, fun before behind h => ?_⟩
    · exact (List.append_eq_nil_iff.mp (List.append_eq_nil_iff.mp h.eq.symm).1).2
    · cases h
  | cons c cs ih =>
    by_cases hhere : admits s ∧ mark <+: c :: cs
    · obtain ⟨hadmits, rest, hrest⟩ := hhere
      rw [← hrest, seek?_here mark rest hadmits hne]
      refine ⟨fun h => (Option.some_ne_none _ h).elim, fun before behind h => ?_⟩
      cases h
      exact ⟨⟨rfl, hadmits⟩, fun before' _ _ => List.nil_prefix⟩
    · rw [seek?_next hhere]
      obtain ⟨hnone, hsome⟩ := ih (s.step c)
      refine ⟨fun h before behind hhas => ?_, fun before behind h => ?_⟩
      · obtain ⟨-, hadmits, heq⟩ | ⟨before', -, hnext⟩ := admitted_cons.mp hhas
        · exact hhere ⟨hadmits, behind, heq.symm⟩
        · exact hnone (Option.map_eq_none_iff.mp h) before' behind hnext
      · obtain ⟨⟨before', behind'⟩, hnext, hpieces⟩ := Option.map_eq_some_iff.mp h
        cases hpieces
        obtain ⟨hfound, hfirst⟩ := hsome before' behind' hnext
        refine ⟨admitted_cons.mpr (.inr ⟨before', rfl, hfound⟩), fun u v hhas => ?_⟩
        obtain ⟨-, hadmits, heq⟩ | ⟨u', rfl, hthere⟩ := admitted_cons.mp hhas
        · exact (hhere ⟨hadmits, v, heq.symm⟩).elim
        · exact List.cons_prefix_cons.mpr ⟨rfl, hfirst u' v hthere⟩

end Seeking

/-! ## Blocks -/

/-- What is found stands behind the characters that were passed, which come last first. -/
def behindSeen (seen : List Char) (found : Option (List Char × List Char)) :
    Option (List Char × List Char) :=
  found.map (Prod.map (seen.reverse ++ ·) id)

theorem behindSeen_nil (found : Option (List Char × List Char)) : behindSeen [] found = found :=
  Option.map_id'

theorem behindSeen_cons (c : Char) (seen : List Char) (found : Option (List Char × List Char)) :
    behindSeen (c :: seen) found = behindSeen seen (found.map (Prod.map (c :: ·) id)) := by
  cases found with
  | none => rfl
  | some pieces =>
    obtain ⟨before, behind⟩ := pieces
    simp [behindSeen]

theorem double_prefix_cons {m c : Char} {cs : List Char} :
    [m, m] <+: c :: cs ↔ c = m ∧ ∃ behind, cs = m :: behind := by
  constructor
  · rintro ⟨behind, h⟩
    cases h
    exact ⟨rfl, behind, rfl⟩
  · rintro ⟨rfl, behind, rfl⟩
    exact ⟨behind, rfl⟩

/-- The braces that close a block are the first that stand outside. -/
theorem close?_eq_seek? (seen : List Char) (depth : Nat) (quote : Option Char) (cs : List Char) :
    close? seen depth quote cs =
      behindSeen seen (seek? closing Standing.isOutside ⟨depth, quote, false⟩ cs) := by
  have hnot {s : Standing} {c : Char} {cs : List Char}
      (h : s.isOutside → c = '\x7d' → ∀ behind, cs ≠ '\x7d' :: behind) :
      ¬ (s.isOutside ∧ closing <+: c :: cs) := by
    rintro ⟨houtside, hstarts⟩
    obtain ⟨hc, behind, hcs⟩ := double_prefix_cons.mp hstarts
    exact h houtside hc behind hcs
  fun_induction close? seen depth quote cs with
  | case1 | case2 => rfl
  | case3 seen depth q d cs ih =>
    rw [ih, behindSeen_cons, behindSeen_cons, seek?_next (hnot fun h => by cases h),
      Standing.step_backslash, seek?_next (hnot fun h => by cases h), Standing.step_escaped]
  | case4 seen depth c cs q hc ih =>
    rw [ih, behindSeen_cons, seek?_next (hnot fun h => by cases h), Standing.step_quoted hc]
  | case5 seen depth c cs hquote ih =>
    rw [ih, behindSeen_cons, seek?_next (hnot fun _ hc => ?_), Standing.step_quote hquote]
    exact absurd (hc ▸ hquote) (by decide)
  | case6 seen depth cs hquote ih =>
    rw [ih, behindSeen_cons, seek?_next (hnot fun _ hc => absurd hc (by decide)),
      Standing.step_open]
  | case7 seen behind hquote hopen =>
    have hhere := seek?_here closing behind
      (show Standing.isOutside ⟨0, none, false⟩ by rfl) (by decide)
    rw [show '\x7d' :: '\x7d' :: behind = closing ++ behind from rfl, hhere]
    simp [behindSeen]
  | case8 seen depth cs hend hquote hopen ih =>
    rw [ih, behindSeen_cons, seek?_next (hnot fun houtside _ behind hcs => ?_),
      Standing.step_close]
    exact hend behind (beq_iff_eq.mp houtside) hcs
  | case9 seen depth c cs hquote hopen hclose ih =>
    rw [ih, behindSeen_cons, seek?_next (hnot fun _ hc => absurd hc hclose),
      Standing.step_other hquote hopen hclose]

/-- The braces that open the first block are the first that there are. -/
theorem breakOn?_eq_seek? (cs : List Char) :
    breakOn? opening cs = seek? opening (fun _ => true) {} cs := by
  suffices hgo : ∀ seen s, breakOn?.go opening seen cs =
      behindSeen seen (seek? opening (fun _ => true) s cs) from
    (hgo [] {}).trans (behindSeen_nil _)
  induction cs with
  | nil => exact fun _ _ => rfl
  | cons c cs ih =>
    intro seen s
    by_cases hhere : opening <+: c :: cs
    · obtain ⟨behind, hbehind⟩ := hhere
      rw [breakOn?.go, if_pos (List.isPrefixOf_iff_prefix.mpr ⟨behind, hbehind⟩), ← hbehind,
        seek?_here opening behind rfl (by decide)]
      simp [behindSeen]
    · rw [breakOn?.go, if_neg (mt List.isPrefixOf_iff_prefix.mp hhere), ih _ (s.step c),
        behindSeen_cons, seek?_next fun h => hhere h.2]

/-- The braces that open the first nested block are the first that are not quoted. -/
theorem breakUnquoted?_eq_seek? (seen : List Char) (quote : Option Char) (cs : List Char)
    (depth : Nat) : breakUnquoted? seen quote cs =
      behindSeen seen (seek? opening Standing.isCode ⟨depth, quote, false⟩ cs) := by
  have hnot {s : Standing} {c : Char} {cs : List Char}
      (h : s.isCode → c = '\x7b' → ∀ behind, cs ≠ '\x7b' :: behind) :
      ¬ (s.isCode ∧ opening <+: c :: cs) := by
    rintro ⟨hcode, hstarts⟩
    obtain ⟨hc, behind, hcs⟩ := double_prefix_cons.mp hstarts
    exact h hcode hc behind hcs
  fun_induction breakUnquoted? seen quote cs generalizing depth with
  | case1 | case2 => rfl
  | case3 seen q d cs ih =>
    rw [ih depth, behindSeen_cons, behindSeen_cons, seek?_next (hnot fun h => by cases h),
      Standing.step_backslash, seek?_next (hnot fun h => by cases h), Standing.step_escaped]
  | case4 seen c cs q hc ih =>
    rw [ih depth, behindSeen_cons, seek?_next (hnot fun h => by cases h), Standing.step_quoted hc]
  | case5 seen c cs hquote ih =>
    rw [ih depth, behindSeen_cons, seek?_next (hnot fun _ hc => ?_), Standing.step_quote hquote]
    exact absurd (hc ▸ hquote) (by decide)
  | case6 seen behind hquote =>
    have hhere := seek?_here opening behind
      (show Standing.isCode ⟨depth, none, false⟩ by rfl) (by decide)
    rw [show '\x7b' :: '\x7b' :: behind = opening ++ behind from rfl, hhere]
    simp [behindSeen]
  | case7 seen c cs hopens hquote ih =>
    obtain ⟨depth', hstep⟩ := Standing.step_code hquote
    rw [ih depth', behindSeen_cons, seek?_next (hnot fun _ hc behind hcs => hopens behind hc hcs),
      hstep]

/-- The first block among those that are opened where the text so far admits it. -/
def firstBlock (admits : Standing → Bool) (cs : List Char) : Block :=
  match seek? opening admits {} cs with
  | some (before, body) => enclose before body
  | none => .none

theorem nextBlock_eq_firstBlock (cs : List Char) : nextBlock cs = firstBlock (fun _ => true) cs := by
  unfold nextBlock
  exact breakOn?_eq_seek? cs ▸ rfl

theorem nextNestedBlock_eq_firstBlock (cs : List Char) :
    nextNestedBlock cs = firstBlock Standing.isCode cs := by
  have hbreak : breakUnquoted? [] none cs = seek? opening Standing.isCode {} cs :=
    (breakUnquoted?_eq_seek? [] none cs 0).trans (behindSeen_nil _)
  unfold nextNestedBlock
  exact hbreak ▸ rfl

theorem enclose_eq (before body : List Char) :
    enclose before body = match seek? closing Standing.isOutside {} body with
      | some (inner, after) => .found before inner after
      | none => .unclosed before body := by
  have hclose : close? [] 0 none body = seek? closing Standing.isOutside {} body :=
    (close?_eq_seek? [] 0 none body).trans (behindSeen_nil _)
  unfold enclose
  exact hclose ▸ rfl

end Stencil.Template
