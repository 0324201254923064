import Stencil.Proofs.Script.Parser.Limits
import Stencil.Proofs.Script.Parser.Locality

/-! # Operators by precedence

Operands with operators between them are read as one tree (`OperatorTree`).  An operator is what one
of the tokens of `Joint.token` stands for, and an operand is what `unary` reads where it stands
(`IsOperand`), so it is followed by no token that goes on with it.
Below each operator of the tree, those on its left bind at least as strongly and those on its right
more strongly; below a power it is the other way round (`OperatorTree.WellShaped`).

This leaves one tree for each sequence (`OperatorTree.WellShaped.unique`).  No operator in a
well-shaped tree binds less strongly than the one at its root; so if two operators were the roots of
trees for the same sequence, each would bind more strongly than the other.

`operators` reads the tree from left to right.  What it has read so far is well-shaped, and the next
operator does not bind strongly enough to go into the right operand of its root
(`OperatorTree.Precedes`); so all of it is the left operand of the next operator.  The right operand
is read by the same loop with a higher least power, behind which no operator follows that binds as
strongly.  Hence **operands with operators between them are read as their well-shaped tree**
(`binary_eq_tree`).
-/
namespace Stencil.Script.Parser

/-! ## Binding powers -/

/-- The power with which an operator binds. -/
def Joint.power : Joint → Nat
  | .logical .nullish => 1
  | .logical .or => 2
  | .logical .and => 3
  | .binary .eq | .binary .notEq | .binary .strictEq | .binary .strictNotEq => 4
  | .binary .lt | .binary .ltEq | .binary .gt | .binary .gtEq | .binary .mem => 5
  | .binary .add | .binary .sub => 6
  | .binary .mul | .binary .div | .binary .rem => 7
  | .binary .pow => 8

/-- The token that stands for an operator. -/
def Joint.token : Joint → TokenKind
  | .logical .nullish => .punctuator .nullish
  | .logical .or => .punctuator .or
  | .logical .and => .punctuator .and
  | .binary .eq => .punctuator .equal
  | .binary .notEq => .punctuator .notEqual
  | .binary .strictEq => .punctuator .strictEqual
  | .binary .strictNotEq => .punctuator .strictNotEqual
  | .binary .lt => .punctuator .less
  | .binary .ltEq => .punctuator .lessEqual
  | .binary .gt => .punctuator .greater
  | .binary .gtEq => .punctuator .greaterEqual
  | .binary .mem => .word "in"
  | .binary .add => .punctuator .plus
  | .binary .sub => .punctuator .minus
  | .binary .mul => .punctuator .times
  | .binary .div => .punctuator .divide
  | .binary .rem => .punctuator .remainder
  | .binary .pow => .punctuator .power

theorem operator?_token (joint : Joint) : operator? joint.token = some (joint.power, joint) := by
  cases joint with
  | logical op => cases op <;> rfl
  | binary op => cases op <;> rfl

/-- The parser knows the tokens of the operators and no others. -/
theorem token_of_operator? {k : TokenKind} {power : Nat} {joint : Joint}
    (h : operator? k = some (power, joint)) : k = joint.token := by
  unfold operator? at h
  split at h
  case h_18 =>
    split at h <;> cases h
    rename_i hword
    rw [hword]
    rfl
  all_goals
    cases h <;> rfl

theorem operator?_eq_none_iff {k : TokenKind} :
    operator? k = none ↔ ∀ joint : Joint, k ≠ joint.token := by
  constructor
  · rintro h joint rfl
    rw [operator?_token] at h
    cases h
  · intro h
    cases hop : operator? k with
    | none => rfl
    | some found => exact absurd (token_of_operator? hop) (h found.2)

/-- No operator binds as strongly as a power. -/
theorem Joint.power_lt_of_ne_pow {joint : Joint} (h : joint ≠ .binary .pow) : joint.power < 8 := by
  cases joint with
  | logical op => cases op <;> decide
  | binary op => cases op <;> first | decide | exact absurd rfl h

theorem rightPower_of_ne_pow {joint : Joint} (h : joint ≠ .binary .pow) (power : Nat) :
    rightPower power joint = power + 1 :=
  if_neg h

/-! ## Trees -/

/-- Operands that operators join. -/
inductive OperatorTree where
  | operand (e : Expr)
  | node (joint : Joint) (left right : OperatorTree)

namespace OperatorTree

/-- The expression that the tree stands for. -/
def toExpr : OperatorTree → Expr
  | operand e => e
  | node (.binary op) left right => .binary op left.toExpr right.toExpr
  | node (.logical op) left right => .logical op left.toExpr right.toExpr

/-- The leftmost operand. -/
def first : OperatorTree → Expr
  | operand e => e
  | node _ left _ => left.first

/-- The operators from left to right, each with the operand behind it. -/
def terms : OperatorTree → List (Joint × Expr)
  | operand _ => []
  | node joint left right => left.terms ++ (joint, right.first) :: right.terms

/-- The operator at the root, unless the tree is an operand. -/
def root? : OperatorTree → Option Joint
  | operand _ => none
  | node joint _ _ => some joint

/-- Operators to the left of an operator bind at least as strongly, and those to its right more
strongly; below a power it is the other way round. -/
inductive WellShaped : OperatorTree → Prop
  | operand (e : Expr) : WellShaped (operand e)
  | left {joint : Joint} {l r : OperatorTree} (hjoint : joint ≠ .binary .pow) (hl : WellShaped l)
      (hr : WellShaped r) (left_power : ∀ j ∈ l.root?, joint.power ≤ j.power)
      (right_power : ∀ j ∈ r.root?, joint.power < j.power) : WellShaped (node joint l r)
  | right {joint : Joint} {l r : OperatorTree} (hjoint : joint = .binary .pow) (hl : WellShaped l)
      (hr : WellShaped r) (left_power : ∀ j ∈ l.root?, joint.power < j.power)
      (right_power : ∀ j ∈ r.root?, joint.power ≤ j.power) : WellShaped (node joint l r)

/-- An operator binds less strongly than what is needed to go into the right operand of the root. -/
def Precedes (t : OperatorTree) (joint : Joint) : Prop :=
  ∀ j ∈ t.root?, joint.power < rightPower j.power j

variable {joint : Joint} {t t' l r : OperatorTree}

/-- The parser joins two operands to what the tree of them stands for. -/
theorem join_toExpr (joint : Joint) (l r : OperatorTree) :
    joint.join l.toExpr r.toExpr = (node joint l r).toExpr := by
  cases joint <;> rfl

/-! ### Uniqueness -/

/-- Where a list is cut at an element in two ways, the elements are the same or stand on different
sides of each other. -/
theorem append_cons_cases {α : Type} {u u' v v' : List α} {a a' : α}
    (h : u ++ a :: v = u' ++ a' :: v') :
    (u = u' ∧ a = a' ∧ v = v') ∨ (a ∈ u' ∧ a' ∈ v) ∨ (a' ∈ u ∧ a ∈ v') := by
  rcases List.append_eq_append_iff.mp h with ⟨c, rfl, hv⟩ | ⟨c, rfl, hv⟩
  · cases c with
    | nil =>
      obtain ⟨ha, hv⟩ := List.cons.inj hv
      exact .inl ⟨(List.append_nil u).symm, ha, hv⟩
    | cons b c =>
      obtain ⟨rfl, rfl⟩ := List.cons.inj hv
      exact .inr (.inl ⟨List.mem_append_right u List.mem_cons_self,
        List.mem_append_right c List.mem_cons_self⟩)
  · cases c with
    | nil =>
      obtain ⟨ha, hv⟩ := List.cons.inj hv
      exact .inl ⟨List.append_nil u', ha.symm, hv.symm⟩
    | cons b c =>
      obtain ⟨rfl, rfl⟩ := List.cons.inj hv
      exact .inr (.inr ⟨List.mem_append_right u' List.mem_cons_self,
        List.mem_append_right c List.mem_cons_self⟩)

namespace WellShaped

theorem le_of_root (h : (node joint l r).WellShaped) :
    (∀ j ∈ l.root?, joint.power ≤ j.power) ∧ ∀ j ∈ r.root?, joint.power ≤ j.power := by
  cases h with
  | left _ _ _ hleft hright => exact ⟨hleft, fun j hj => Nat.le_of_lt (hright j hj)⟩
  | right _ _ _ hleft hright => exact ⟨fun j hj => Nat.le_of_lt (hleft j hj), hright⟩

theorem children (h : (node joint l r).WellShaped) : l.WellShaped ∧ r.WellShaped := by
  cases h with
  | left _ hl hr => exact ⟨hl, hr⟩
  | right _ hl hr => exact ⟨hl, hr⟩

/-- No operator of a well-shaped tree binds less strongly than the one at its root. -/
theorem exists_root_le (h : t.WellShaped) {term : Joint × Expr} (hterm : term ∈ t.terms) :
    ∃ j ∈ t.root?, j.power ≤ term.1.power := by
  induction t with
  | operand e => cases hterm
  | node joint l r ihl ihr =>
    refine ⟨joint, rfl, ?_⟩
    obtain ⟨hl, hr⟩ := h.children
    obtain ⟨hleft, hright⟩ := h.le_of_root
    rcases List.mem_append.mp hterm with hterm | hterm
    · obtain ⟨j, hj, hle⟩ := ihl hl hterm
      exact Nat.le_trans (hleft j hj) hle
    · rcases List.mem_cons.mp hterm with rfl | hterm
      · exact Nat.le_refl _
      · obtain ⟨j, hj, hle⟩ := ihr hr hterm
        exact Nat.le_trans (hright j hj) hle

/-- An operator to the left of the root binds at least as strongly, and more strongly than a
power. -/
theorem le_of_mem_left (h : (node joint l r).WellShaped) {term : Joint × Expr}
    (hterm : term ∈ l.terms) :
    joint.power ≤ term.1.power ∧ (joint = .binary .pow → joint.power < term.1.power) := by
  obtain ⟨j, hj, hle⟩ := h.children.1.exists_root_le hterm
  cases h with
  | left hjoint _ _ hleft _ =>
    exact ⟨Nat.le_trans (hleft j hj) hle, fun hpow => absurd hpow hjoint⟩
  | right _ _ _ hleft _ =>
    have hlt := Nat.lt_of_lt_of_le (hleft j hj) hle
    exact ⟨Nat.le_of_lt hlt, fun _ => hlt⟩

/-- An operator to the right of the root binds more strongly, unless the root is a power. -/
theorem le_of_mem_right (h : (node joint l r).WellShaped) {term : Joint × Expr}
    (hterm : term ∈ r.terms) :
    joint.power ≤ term.1.power ∧ (joint ≠ .binary .pow → joint.power < term.1.power) := by
  obtain ⟨j, hj, hle⟩ := h.children.2.exists_root_le hterm
  cases h with
  | left _ _ _ _ hright =>
    have hlt := Nat.lt_of_lt_of_le (hright j hj) hle
    exact ⟨Nat.le_of_lt hlt, fun _ => hlt⟩
  | right hjoint _ _ _ hright =>
    exact ⟨Nat.le_trans (hright j hj) hle, fun hpow => absurd hjoint hpow⟩

/-- The root of one well-shaped tree is not to the right of the root of another one whose root is to
the left of its own. -/
theorem not_crossed {joint' : Joint} {l' r' : OperatorTree} (h : (node joint l r).WellShaped)
    (h' : (node joint' l' r').WellShaped) {e e' : Expr} (hleft : (joint, e) ∈ l'.terms)
    (hright : (joint', e') ∈ r.terms) : False := by
  obtain ⟨hle, hlt⟩ := h.le_of_mem_right hright
  obtain ⟨hle', hlt'⟩ := h'.le_of_mem_left hleft
  by_cases hpow : joint = .binary .pow
  · -- nothing binds as strongly as a power but another one, which would have to bind more strongly
    have hpow' : joint' = .binary .pow := by
      refine Decidable.not_not.mp fun hne => ?_
      rw [hpow] at hle
      exact absurd hle (Nat.not_le_of_lt (Joint.power_lt_of_ne_pow hne))
    exact absurd (hlt' hpow') (Nat.not_lt_of_le hle)
  · exact absurd (hlt hpow) (Nat.not_lt_of_le hle')

/-- **There is one well-shaped tree for a sequence** of operands and operators. -/
theorem unique (h : t.WellShaped) (h' : t'.WellShaped) (hfirst : t.first = t'.first)
    (hterms : t.terms = t'.terms) : t = t' := by
  induction t generalizing t' with
  | operand e =>
    cases t' with
    | operand e' => exact congrArg OperatorTree.operand hfirst
    | node joint' l' r' => exact absurd hterms.symm (by simp [terms])
  | node joint l r ihl ihr =>
    cases t' with
    | operand e' => exact absurd hterms (by simp [terms])
    | node joint' l' r' =>
      rcases append_cons_cases hterms with ⟨hl, hroot, hr⟩ | ⟨hleft, hright⟩ | ⟨hleft, hright⟩
      · obtain ⟨rfl, hright⟩ := Prod.mk.inj hroot
        rw [ihl h.children.1 h'.children.1 hfirst hl, ihr h.children.2 h'.children.2 hright hr]
      · exact (not_crossed h h' hleft hright).elim
      · exact (not_crossed h' h hleft hright).elim

end WellShaped

/-! ### Joining -/

/-- What has been read is the left operand of an operator that precedes nothing of it, and what binds
strongly enough for it is its right operand. -/
theorem WellShaped.join (hl : l.WellShaped) (hr : r.WellShaped) (hleft : l.Precedes joint)
    (hright : ∀ j ∈ r.root?, rightPower joint.power joint ≤ j.power) :
    (node joint l r).WellShaped := by
  by_cases hjoint : joint = .binary .pow
  · subst hjoint
    refine .right rfl hl hr (fun j hj => ?_) hright
    -- no operator goes on in front of a power
    have hlt : 8 < rightPower j.power j := hleft j hj
    by_cases hpow : j = .binary .pow
    · rw [hpow] at hlt
      exact absurd hlt (Nat.lt_irrefl 8)
    · rw [rightPower_of_ne_pow hpow] at hlt
      exact absurd (Joint.power_lt_of_ne_pow hpow) (Nat.not_lt_of_le (Nat.le_of_lt_succ hlt))
  · refine .left hjoint hl hr (fun j hj => ?_) fun j hj => ?_
    · have hlt := hleft j hj
      by_cases hpow : j = .binary .pow
      · rw [hpow] at hlt ⊢
        exact Nat.le_of_lt hlt
      · rw [rightPower_of_ne_pow hpow] at hlt
        exact Nat.le_of_lt_succ hlt
    · have hle := hright j hj
      rw [rightPower_of_ne_pow hjoint] at hle
      exact hle

end OperatorTree

/-! ## Sequences of tokens -/

/-- An operand in front of other tokens, if syntax may nest so deep. -/
def IsOperand (depth : Nat) (ctx : ParseContext) (ts : List Token) (e : Expr) (s : List Token) :
    Prop :=
  (grammar depth).unary ctx ts = .ok (e, s)

/-- Operators, each with an operand behind it, in front of a token that is no operator. -/
inductive Behind (operand : List Token → Expr → List Token → Prop) (rest : List Token) :
    List Token → List (Joint × Expr) → Prop
  | done (h : ∀ joint : Joint, kindAt rest ≠ joint.token) : Behind operand rest rest []
  | next {t : Token} {s s' : List Token} {joint : Joint} {e : Expr}
      {terms : List (Joint × Expr)} (hop : t.kind = joint.token)
      (he : operand s e s') (h : Behind operand rest s' terms) :
      Behind operand rest (t :: s) ((joint, e) :: terms)

/-- An operand and operators, each with an operand behind it, in front of a token that is no
operator. -/
inductive Sequence (operand : List Token → Expr → List Token → Prop) (rest : List Token) :
    List Token → Expr → List (Joint × Expr) → Prop
  | mk {ts s : List Token} {e : Expr} {terms : List (Joint × Expr)} (he : operand ts e s)
      (h : Behind operand rest s terms) : Sequence operand rest ts e terms

section Sequences
variable {operand operand' : List Token → Expr → List Token → Prop} {ts s rest : List Token}
  {e : Expr} {terms : List (Joint × Expr)} {ctx : ParseContext}

theorem Behind.mono (hop : ∀ ts e s, operand ts e s → operand' ts e s)
    (h : Behind operand rest s terms) : Behind operand' rest s terms := by
  induction h with
  | done h => exact .done h
  | next hkind he _ ih => exact .next hkind (hop _ _ _ he) ih

theorem IsOperand.mono {low high : Nat} (h : low ≤ high) (he : IsOperand low ctx ts e s) :
    IsOperand high ctx ts e s :=
  ((within_grammar h).unary ctx ts).of_ok he

/-- There is a depth that is enough for all operands. -/
theorem Behind.exists_depth
    (h : Behind (fun ts e s => ∃ depth, IsOperand depth ctx ts e s) rest s terms) :
    ∃ depth, Behind (IsOperand depth ctx) rest s terms := by
  induction h with
  | done h => exact ⟨0, .done h⟩
  | next hkind he _ ih =>
    obtain ⟨low, he⟩ := he
    obtain ⟨high, h⟩ := ih
    refine ⟨max low high, .next hkind (he.mono (Nat.le_max_left _ _)) ?_⟩
    exact h.mono fun _ _ _ he => he.mono (Nat.le_max_right _ _)

theorem Sequence.exists_depth
    (h : Sequence (fun ts e s => ∃ depth, IsOperand depth ctx ts e s) rest ts e terms) :
    ∃ depth, Sequence (IsOperand depth ctx) rest ts e terms := by
  obtain ⟨⟨low, he⟩, h⟩ := h
  obtain ⟨high, h⟩ := h.exists_depth
  refine ⟨max low high, .mk (he.mono (Nat.le_max_left _ _)) ?_⟩
  exact h.mono fun _ _ _ he => he.mono (Nat.le_max_right _ _)

theorem IsOperand.length_lt {depth : Nat} (he : IsOperand depth ctx ts e s) :
    s.length < ts.length :=
  ((reads_grammar depth).unary ctx ts).length_add_le he

/-- There are no more operators than tokens. -/
theorem Behind.length_le {depth : Nat} (h : Behind (IsOperand depth ctx) rest s terms) :
    terms.length ≤ s.length := by
  induction h with
  | done h => exact Nat.zero_le _
  | next _ he _ ih => exact Nat.succ_le_succ (Nat.le_trans ih (Nat.le_of_lt he.length_lt))

end Sequences

/-! ## Reading -/

/-- The parser reads a well-shaped tree of operators that bind at least as strongly as `min`, up to
the first one that does not. -/
structure Climbs (operand : List Token → Expr → List Token → Prop) (rest : List Token) (min : Nat)
    (e : Expr) (terms : List (Joint × Expr)) (x : Except ScriptError (Expr × List Token))
    (t : OperatorTree) (left : List (Joint × Expr)) (s : List Token) : Prop where
  run : x = .ok (t.toExpr, s)
  wellShaped : t.WellShaped
  power : ∀ j ∈ t.root?, min ≤ j.power
  first : t.first = e
  terms : terms = t.terms ++ left
  behind : Behind operand rest s left
  stops : ∀ term ∈ left.head?, term.1.power < min

section Reading
variable {operand : List Token → Expr → List Token → Prop} {rest : List Token} {ctx : ParseContext}
  {n : Nat}

theorem Climbs.of_eq {min : Nat} {e : Expr} {terms left : List (Joint × Expr)}
    {x y : Except ScriptError (Expr × List Token)} {t : OperatorTree} {s : List Token}
    (h : Climbs operand rest min e terms x t left s) (heq : y = x) :
    Climbs operand rest min e terms y t left s :=
  heq.symm ▸ h

/-- What is read of sequences with fewer than `n` operators. -/
def ClimbsBelow (operand : List Token → Expr → List Token → Prop) (rest : List Token)
    (ctx : ParseContext) (n : Nat) (p : Nat → Parser Expr) : Prop :=
  ∀ min ts e terms, terms.length < n → Sequence operand rest ts e terms →
    ∃ t left s, Climbs operand rest min e terms (p min ctx ts) t left s

/-- One operator and its right operand further, the tree that has been read is well-shaped. -/
theorem climbs_operators {right : Nat → Parser Expr}
    (hright : ClimbsBelow operand rest ctx n right) (min : Nat) (fuel : Nat) {t : OperatorTree}
    {s : List Token} {terms : List (Joint × Expr)} (hn : terms.length ≤ n)
    (hfuel : terms.length < fuel) (hs : Behind operand rest s terms) (ht : t.WellShaped)
    (hpower : ∀ j ∈ t.root?, min ≤ j.power) (hnext : ∀ term ∈ terms.head?, t.Precedes term.1) :
    ∃ t' left s', Climbs operand rest min t.first (t.terms ++ terms)
      (operators right min t.toExpr fuel ctx s) t' left s' := by
  induction fuel generalizing t s terms with
  | zero => exact absurd hfuel (Nat.not_lt_zero _)
  | succ fuel ih =>
    unfold operators
    rw [run_ahead]
    cases hs with
    | done hend =>
      rw [operator?_eq_none_iff.mpr hend]
      exact ⟨t, [], _, rfl, ht, hpower, rfl, rfl, .done hend, fun _ h => by cases h⟩
    | next hop he hs =>
      rename_i tok s s' joint e terms
      rw [kindAt_cons, hop, operator?_token]
      dsimp only
      split
      · rename_i hlt
        refine ⟨t, _, _, rfl, ht, hpower, rfl, rfl, .next hop he hs, fun term hterm => ?_⟩
        cases hterm
        exact hlt
      · rename_i hle
        obtain ⟨r, left, u, hr⟩ := hright (rightPower joint.power joint) s e terms hn (.mk he hs)
        have hlen : left.length ≤ terms.length := by
          rw [hr.terms, List.length_append]
          exact Nat.le_add_left _ _
        have hless : terms.length < n ∧ terms.length < fuel := ⟨hn, Nat.lt_of_succ_lt_succ hfuel⟩
        have hjoin : (OperatorTree.node joint t r).WellShaped :=
          ht.join hr.wellShaped (hnext _ rfl) hr.power
        have hroot : ∀ j ∈ (OperatorTree.node joint t r).root?, min ≤ j.power := fun j hj => by
          cases hj
          exact Nat.le_of_not_lt hle
        have hprecedes : ∀ term ∈ left.head?, (OperatorTree.node joint t r).Precedes term.1 := by
          intro term hterm j hj
          cases hj
          exact hr.stops term hterm
        have hterms : (OperatorTree.node joint t r).terms ++ left =
            t.terms ++ (joint, e) :: terms := by
          rw [OperatorTree.terms, List.append_assoc, List.cons_append, ← hr.terms, hr.first]
        obtain ⟨t', left', u', h⟩ := ih (by omega) (by omega) hr.behind hjoin hroot hprecedes
        rw [hterms] at h
        have hskip : skip ctx (tok :: s) = .ok ((), s) := rfl
        refine ⟨t', left', u', h.of_eq ((run_bind_of_ok hskip).trans ?_)⟩
        rw [run_bind_of_ok hr.run, OperatorTree.join_toExpr]

theorem climbs_binaryBody {g : Grammar} (hright : ClimbsBelow operand rest ctx n g.binary)
    (hunary : ∀ ts e s, operand ts e s → unaryBody g ctx ts = .ok (e, s)) (hn : n ≤ ctx.size) :
    ClimbsBelow operand rest ctx (n + 1) (binaryBody g) := by
  intro min ts e terms hlen hs
  obtain ⟨he, hs⟩ := hs
  obtain ⟨t, left, s', h⟩ := climbs_operators hright min (ctx.size + 1) (t := .operand e)
    (Nat.le_of_lt_succ hlen) (Nat.lt_of_lt_of_le hlen (Nat.succ_le_succ hn)) hs (.operand e)
    (fun j hj => by cases hj) (fun term _ j hj => by cases hj)
  exact ⟨t, left, s', h.of_eq (run_bind_of_ok (hunary _ _ _ he))⟩

/-- With enough levels for the operands and for as many right operands within each other as there are
operators, a sequence is read. -/
theorem climbs_binary {low : Nat} (n : Nat) (hn : n ≤ ctx.size + 1) {depth : Nat}
    (hdepth : low + n ≤ depth + 1) :
    ClimbsBelow (IsOperand low ctx) rest ctx n (grammar depth).binary := by
  induction n generalizing depth with
  | zero => exact fun _ _ _ _ hlen => absurd hlen (Nat.not_lt_zero _)
  | succ n ih =>
    have hle : low ≤ depth := by omega
    cases depth with
    | zero =>
      obtain rfl := Nat.le_zero.mp hle
      rintro _ ts _ _ _ ⟨he, _⟩
      cases ts <;> cases he
    | succ depth =>
      refine climbs_binaryBody (ih (by omega) (by omega)) (fun ts e s he => ?_) (by omega)
      exact he.mono hle

end Reading

/-- **Operands with operators between them are read as their well-shaped tree.**  The limit on
nesting can prevent this, but no other outcome is possible; and it does not if it is high enough. -/
theorem binary_eq_tree {ctx : ParseContext} {ts rest : List Token} {e : Expr}
    {terms : List (Joint × Expr)}
    (h : Sequence (fun ts e s => ∃ depth, IsOperand depth ctx ts e s) rest ts e terms)
    (hsize : ts.length ≤ ctx.size) :
    ∃ t : OperatorTree, (∀ t', t'.WellShaped ∧ t'.first = e ∧ t'.terms = terms ↔ t' = t) ∧
      (∀ depth, EqOrTooDeep ((grammar depth).binary 0 ctx ts) (.ok (t.toExpr, rest))) ∧
      ∃ enough, ∀ depth, enough ≤ depth → (grammar depth).binary 0 ctx ts = .ok (t.toExpr, rest) := by
  obtain ⟨low, h⟩ := h.exists_depth
  have hlen : terms.length ≤ ctx.size := by
    obtain ⟨he, hs⟩ := h
    exact Nat.le_trans hs.length_le (Nat.le_trans (Nat.le_of_lt he.length_lt) hsize)
  have hread (depth : Nat) (hdepth : low + terms.length ≤ depth) :=
    climbs_binary (terms.length + 1) (Nat.succ_le_succ hlen) (Nat.succ_le_succ hdepth) 0 ts e terms
      (Nat.lt_succ_self _) h
  obtain ⟨t, left, s, ht⟩ := hread _ (Nat.le_refl _)
  obtain rfl : left = [] := by
    cases left with
    | nil => rfl
    | cons term left => exact absurd (ht.stops term rfl) (Nat.not_lt_zero _)
  obtain ⟨-⟩ := ht.behind
  have hterms : terms = t.terms := ht.terms.trans (List.append_nil _)
  have hlow (depth : Nat) (hdepth : low + terms.length ≤ depth) :
      (grammar depth).binary 0 ctx ts = .ok (t.toExpr, rest) :=
    ((within_grammar hdepth).binary 0 ctx ts).of_ok ht.run
  refine ⟨t, fun t' => ⟨fun ⟨hshaped, hfirst, hterms'⟩ => ?_, ?_⟩, fun depth => ?_, _, hlow⟩
  · exact hshaped.unique ht.wellShaped (hfirst.trans ht.first.symm) (hterms'.trans hterms)
  · rintro rfl
    exact ⟨ht.wellShaped, ht.first, hterms.symm⟩
  · have hwithin := (within_grammar (Nat.le_max_left depth (low + terms.length))).binary 0 ctx ts
    rw [hlow _ (Nat.le_max_right _ _)] at hwithin
    exact hwithin

/-- The tokens of `a - b - c * d ** e ** f && g`. -/
def mixedTokens : List Token :=
  [⟨.word "a", 0⟩, ⟨.punctuator .minus, 2⟩, ⟨.word "b", 4⟩, ⟨.punctuator .minus, 6⟩,
    ⟨.word "c", 8⟩, ⟨.punctuator .times, 10⟩, ⟨.word "d", 12⟩, ⟨.punctuator .power, 14⟩,
    ⟨.word "e", 17⟩, ⟨.punctuator .power, 19⟩, ⟨.word "f", 22⟩, ⟨.punctuator .and, 24⟩,
    ⟨.word "g", 27⟩, ⟨.eof, 28⟩]

/-- The differences are joined from the left and the powers from the right, and the conjunction
last. -/
theorem binary_eq_tree_mixed :
    let ctx : ParseContext := ⟨0, false, 14⟩
    let powers := OperatorTree.node (.binary .pow) (.operand (.name "d"))
      (.node (.binary .pow) (.operand (.name "e")) (.operand (.name "f")))
    let difference := OperatorTree.node (.binary .sub)
      (.node (.binary .sub) (.operand (.name "a")) (.operand (.name "b")))
      (.node (.binary .mul) (.operand (.name "c")) powers)
    let t := OperatorTree.node (.logical .and) difference (.operand (.name "g"))
    let e := Expr.logical .and
      (.binary .sub (.binary .sub (.name "a") (.name "b"))
        (.binary .mul (.name "c")
          (.binary .pow (.name "d") (.binary .pow (.name "e") (.name "f")))))
      (.name "g")
    Sequence (fun ts e s => ∃ depth, IsOperand depth ctx ts e s) [⟨.eof, 28⟩] mixedTokens
        (.name "a")
        [(.binary .sub, .name "b"), (.binary .sub, .name "c"), (.binary .mul, .name "d"),
          (.binary .pow, .name "e"), (.binary .pow, .name "f"), (.logical .and, .name "g")] ∧
      mixedTokens.length ≤ ctx.size ∧
      (∀ t', t'.WellShaped ∧ t'.first = t.first ∧ t'.terms = t.terms ↔ t' = t) ∧
      (∀ depth, EqOrTooDeep ((grammar depth).binary 0 ctx mixedTokens) (.ok (e, [⟨.eof, 28⟩]))) ∧
      ∃ enough, ∀ depth, enough ≤ depth →
        (grammar depth).binary 0 ctx mixedTokens = .ok (e, [⟨.eof, 28⟩]) := by
  intro ctx powers difference t e
  have hoperand (e : Expr) : (OperatorTree.operand e).WellShaped := .operand e
  have hpowers : powers.WellShaped := by
    refine .right rfl (hoperand _) (.right rfl (hoperand _) (hoperand _) ?_ ?_) ?_ ?_
    all_goals simp [OperatorTree.root?, Joint.power]
  have hdifference : difference.WellShaped := by
    refine .left (by decide) (.left (by decide) (hoperand _) (hoperand _) ?_ ?_)
      (.left (by decide) (hoperand _) hpowers ?_ ?_) ?_ ?_
    all_goals simp [powers, OperatorTree.root?, Joint.power]
  have ht : t.WellShaped := by
    refine .left (by decide) hdifference (hoperand _) ?_ ?_
    all_goals simp [difference, OperatorTree.root?, Joint.power]
  have hsequence : Sequence (fun ts e s => ∃ depth, IsOperand depth ctx ts e s) [⟨.eof, 28⟩]
      mixedTokens t.first t.terms :=
    .mk ⟨1, rfl⟩ (.next rfl ⟨1, rfl⟩ (.next rfl ⟨1, rfl⟩ (.next rfl ⟨1, rfl⟩ (.next rfl ⟨1, rfl⟩
      (.next rfl ⟨1, rfl⟩ (.next rfl ⟨1, rfl⟩ (.done (operator?_eq_none_iff.mp rfl))))))))
  obtain ⟨t', hunique, hlow, henough⟩ := binary_eq_tree hsequence (Nat.le_refl 14)
  obtain rfl : t = t' := (hunique t).mp ⟨ht, rfl, rfl⟩
  exact ⟨hsequence, Nat.le_refl 14, hunique, hlow, henough⟩

end Stencil.Script.Parser
