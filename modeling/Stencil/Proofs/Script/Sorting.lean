import Mathlib.Order.Defs.Unbundled
import Stencil.Proofs.Script.Steps

/-! # Sorting

How two items compare is asked of a function of the script, which may answer as it likes, do what it
likes, and fail.  What a sort does apart from asking is an **inquiry**: a tree of questions with a
result at the end of every branch (`Inquiry`).  A run of the sort goes down one branch of that tree
(`sortBy_eq_answeredBy`), and the questions it asks on the way, each with its answer, are the
**comparisons** of the run (`Inquiry.comparisons`).

The sort fails exactly if one of its comparisons does.  Otherwise its result is a permutation of the
items, whatever the answers were; and if the answers were those of a strict weak order, it is the
stable sort by that order (`sort_stable`).  The order by texts, which is used without a function, is
one (`strictWeakOrder_defaultBefore`).
-/
namespace Stencil.Script.Method
open Value (argument)

/-! ## Inquiries -/

/-- A computation that asks whether one item comes before another and goes on by the answers. -/
inductive Inquiry (α β : Type) where
  | done (result : β)
  | ask (x y : α) (next : Bool → Inquiry α β)

/-- A question that was asked, and the answer or the error that came back. -/
structure Comparison (α : Type) where
  first : α
  second : α
  answer : Except ScriptError Bool

namespace Inquiry
variable {α β γ : Type}

/-- Asks one question. -/
def query (x y : α) : Inquiry α Bool :=
  .ask x y .done

/-- Goes on with the result of an inquiry. -/
def bind : Inquiry α β → (β → Inquiry α γ) → Inquiry α γ
  | .done b, f => f b
  | .ask x y next, f => .ask x y fun b => (next b).bind f

instance : Monad (Inquiry α) where
  pure := .done
  bind := .bind

/-- Asks the questions of a step. -/
def answeredBy (before : α → α → Eval Bool) : Inquiry α β → Eval β
  | .done b => pure b
  | .ask x y next => before x y >>= fun b => (next b).answeredBy before

/-- Answers the questions by a relation. -/
def settledBy (r : α → α → Bool) : Inquiry α β → β
  | .done b => b
  | .ask x y next => (next (r x y)).settledBy r

/-- The questions that are asked of a step on a machine, in order; after one that fails there are no
more. -/
def comparisons (before : α → α → Eval Bool) (c : Context) : Inquiry α β → Machine →
    List (Comparison α)
  | .done _, _ => []
  | .ask x y next, m =>
    match (before x y).outcome c m with
    | (.ok b, m') => ⟨x, y, .ok b⟩ :: (next b).comparisons before c m'
    | (.error e, _) => [⟨x, y, .error e⟩]

/-- Every result is as `P` says. -/
def Ends (P : β → Prop) : Inquiry α β → Prop
  | .done b => P b
  | .ask _ _ next => ∀ b, (next b).Ends P

section
variable {P : β → Prop} {Q : γ → Prop} {before : α → α → Eval Bool} {r : α → α → Bool}
  {c : Context}

theorem answeredBy_bind (i : Inquiry α β) (f : β → Inquiry α γ) :
    (i >>= f).answeredBy before = i.answeredBy before >>= fun b => (f b).answeredBy before := by
  induction i with
  | done b => exact (pure_bind b fun b => (f b).answeredBy before).symm
  | ask x y next ih =>
    change (before x y >>= fun b => (next b >>= f).answeredBy before) = _
    simp only [ih, answeredBy, bind_assoc]

theorem answeredBy_query (x y : α) : (query x y).answeredBy before = before x y :=
  bind_pure (before x y)

@[simp]
theorem settledBy_pure (b : β) : (pure b : Inquiry α β).settledBy r = b := rfl

@[simp]
theorem settledBy_bind (i : Inquiry α β) (f : β → Inquiry α γ) :
    (i >>= f).settledBy r = (f (i.settledBy r)).settledBy r := by
  induction i with
  | done b => rfl
  | ask x y next ih => exact ih (r x y)

@[simp]
theorem settledBy_query (x y : α) : (query x y).settledBy r = r x y := rfl

theorem Ends.imp {R : β → Prop} {i : Inquiry α β} (hi : i.Ends P) (h : ∀ b, P b → R b) :
    i.Ends R := by
  induction i with
  | done b => exact h b hi
  | ask x y next ih => exact fun b => ih b (hi b)

theorem Ends.bind {i : Inquiry α β} {f : β → Inquiry α γ} (hi : i.Ends P)
    (hf : ∀ b, P b → (f b).Ends Q) : (i >>= f).Ends Q := by
  induction i with
  | done b => exact hf b hi
  | ask x y next ih => exact fun b => ih b (hi b)

/-- Questions that are answered without touching the machine leave it as it was. -/
theorem answeredBy_settled (i : Inquiry α β) :
    i.answeredBy (fun x y => pure (r x y)) = pure (i.settledBy r) := by
  induction i with
  | done b => rfl
  | ask x y next ih => exact (pure_bind (r x y) _).trans (ih (r x y))

theorem Ends.settledBy {i : Inquiry α β} (hi : i.Ends P) : P (i.settledBy r) := by
  induction i with
  | done b => exact hi
  | ask x y next ih => exact ih (r x y) (hi (r x y))

/-- An inquiry fails exactly if one of its comparisons does, and with that error. -/
theorem answeredBy_eq_error (i : Inquiry α β) (m : Machine) (e : ScriptError) :
    ((i.answeredBy before).outcome c m).1 = .error e ↔
      ∃ q ∈ i.comparisons before c m, q.answer = .error e := by
  induction i generalizing m with
  | done b => simp [answeredBy, comparisons]
  | ask x y next ih =>
    rw [answeredBy, Eval.outcome_bind, comparisons]
    rcases (before x y).outcome c m with ⟨_ | b, m'⟩
    · simp
    · simp [ih]

/-- If no comparison fails, one of the results comes out. -/
theorem Ends.answeredBy {i : Inquiry α β} (hi : i.Ends P) (m : Machine)
    (h : ∀ q ∈ i.comparisons before c m, ∃ b, q.answer = .ok b) :
    ∃ b, ((i.answeredBy before).outcome c m).1 = .ok b ∧ P b := by
  induction i generalizing m with
  | done b => exact ⟨b, rfl, hi⟩
  | ask x y next ih =>
    rw [Inquiry.answeredBy, Eval.outcome_bind]
    rcases hcall : (before x y).outcome c m with ⟨e | b, m'⟩ <;> rw [comparisons, hcall] at h
    · obtain ⟨b, hb⟩ := h _ List.mem_cons_self
      cases hb
    · exact ih b (hi b) m' fun q hq => h q (List.mem_cons_of_mem _ hq)

/-- Comparisons that are answered as a relation says lead to the result that the relation leads
to. -/
theorem answeredBy_eq_settledBy (i : Inquiry α β) (m : Machine)
    (h : ∀ q ∈ i.comparisons before c m, q.answer = .ok (r q.first q.second)) :
    ((i.answeredBy before).outcome c m).1 = .ok (i.settledBy r) := by
  induction i generalizing m with
  | done b => rfl
  | ask x y next ih =>
    rw [answeredBy, Eval.outcome_bind]
    rcases hcall : (before x y).outcome c m with ⟨e | b, m'⟩ <;> rw [comparisons, hcall] at h
    · have herror := h _ List.mem_cons_self
      cases herror
    · obtain ⟨hb, hrest⟩ := List.forall_mem_cons.mp h
      obtain rfl : b = r x y := Except.ok.inj hb
      exact ih _ m' hrest

end
end Inquiry

section Tree
variable {α : Type} (before : α → α → Eval Bool)

theorem mergeBy_eq_answeredBy (fuel : Nat) (done xs ys : List α) :
    mergeBy before done xs ys fuel =
      (mergeBy Inquiry.query done xs ys fuel).answeredBy before := by
  induction fuel generalizing done xs ys with
  | zero => rfl
  | succ fuel ih =>
    rcases xs with _ | ⟨x, xs⟩
    · rfl
    · rcases ys with _ | ⟨y, ys⟩
      · rfl
      · unfold mergeBy
        rw [Inquiry.answeredBy_bind, Inquiry.answeredBy_query]
        refine congrArg (before y x >>= ·) (funext fun b => ?_)
        cases b
        · exact ih _ _ _
        · exact ih _ _ _

theorem sortHalves_eq_answeredBy (fuel : Nat) (xs : List α) :
    sortHalves before fuel xs = (sortHalves Inquiry.query fuel xs).answeredBy before := by
  induction fuel generalizing xs with
  | zero => rfl
  | succ fuel ih =>
    unfold sortHalves
    split
    · rfl
    · simp only [Inquiry.answeredBy_bind, ← ih, ← mergeBy_eq_answeredBy]

/-- A sort asks the questions of one inquiry, whoever answers them. -/
theorem sortBy_eq_answeredBy (xs : List α) :
    sortBy before xs = (sortBy Inquiry.query xs).answeredBy before :=
  sortHalves_eq_answeredBy before _ xs

end Tree

/-! ## Whatever the answers -/

section Permutations
variable {α : Type}

theorem ends_mergeBy (fuel : Nat) (done xs ys : List α) :
    (mergeBy Inquiry.query done xs ys fuel).Ends (·.Perm (done.reverse ++ xs ++ ys)) := by
  induction fuel generalizing done xs ys with
  | zero => exact .refl _
  | succ fuel ih =>
    rcases xs with _ | ⟨x, xs⟩
    · exact .refl _
    · rcases ys with _ | ⟨y, ys⟩
      · exact .refl _
      · intro b
        cases b
        · have h := ih (x :: done) xs (y :: ys)
          rwa [List.reverse_cons, List.append_assoc done.reverse] at h
        · -- The item of the second list goes in front of all that is left of the first.
          have h := ih (y :: done) (x :: xs) ys
          have hperm : ((y :: done).reverse ++ (x :: xs) ++ ys).Perm
              (done.reverse ++ (x :: xs) ++ y :: ys) := by
            have hmiddle : (x :: xs ++ y :: ys).Perm (y :: (x :: xs ++ ys)) := List.perm_middle
            simp only [List.reverse_cons, List.append_assoc, List.singleton_append]
            exact hmiddle.symm.append_left _
          exact h.imp fun zs hzs => hzs.trans hperm

theorem ends_sortHalves (fuel : Nat) (xs : List α) :
    (sortHalves Inquiry.query fuel xs).Ends (·.Perm xs) := by
  induction fuel generalizing xs with
  | zero => exact .refl _
  | succ fuel ih =>
    unfold sortHalves
    split
    · exact .refl _
    · refine (ih _).bind fun left hleft => (ih _).bind fun right hright => ?_
      refine (ends_mergeBy _ [] left right).imp fun zs hzs => hzs.trans ?_
      have hhalves := hleft.append hright
      rwa [List.take_append_drop] at hhalves

end Permutations
/-! ## Answers that order the items -/

section Orders
variable {α : Type} {r : α → α → Bool}

/-- Neither item comes before the other. -/
def ties (r : α → α → Bool) (x y : α) : Bool :=
  !r x y && !r y x

/-- The second list has the items of the first in the order of a relation, and those that tie as
they stood. -/
structure StablySorted (r : α → α → Bool) (xs ys : List α) : Prop where
  perm : ys.Perm xs
  ordered : ys.Pairwise fun x y => r y x = false
  stable : ∀ x, ys.filter (ties r x) = xs.filter (ties r x)

/-- An item that comes first in one of two lists may stand in front of the other. -/
def mayPrecede (r : α → α → Bool) (x y : α) : Bool :=
  !r y x

theorem settledBy_mergeBy (fuel : Nat) (done xs ys : List α) (h : xs.length + ys.length ≤ fuel) :
    (mergeBy Inquiry.query done xs ys fuel).settledBy r =
      done.reverse ++ xs.merge ys (mayPrecede r) := by
  induction fuel generalizing done xs ys with
  | zero =>
    obtain rfl : xs = [] := List.length_eq_zero_iff.mp (by omega)
    obtain rfl : ys = [] := List.length_eq_zero_iff.mp (by omega)
    simp [mergeBy]
  | succ fuel ih =>
    rcases xs with _ | ⟨x, xs⟩
    · simp [mergeBy]
    · rcases ys with _ | ⟨y, ys⟩
      · simp [mergeBy]
      · unfold mergeBy
        rw [Inquiry.settledBy_bind, Inquiry.settledBy_query, List.cons_merge_cons, mayPrecede]
        simp only [List.length_cons] at h
        cases r y x
        · rw [if_neg (by simp), if_pos (by simp), ih (x :: done) xs (y :: ys) (by simp; omega)]
          simp
        · rw [if_pos rfl, if_neg (by simp), ih (y :: done) (x :: xs) ys (by simp; omega)]
          simp

section WeakOrder
variable [IsStrictWeakOrder α (r · · = true)]

theorem asymm_of_strictWeakOrder {x y : α} (h : r x y = true) : r y x = false := by
  refine Bool.eq_false_iff.mpr fun h' => ?_
  exact Std.Irrefl.irrefl (r := (r · · = true)) x (IsTrans.trans (r := (r · · = true)) x y x h h')

/-- What comes before an item comes before or after every other. -/
theorem split_of_strictWeakOrder {x y : α} (z : α) (h : r x y = true) :
    r x z = true ∨ r z y = true := by
  cases hxz : r x z with
  | true => exact .inl rfl
  | false =>
    cases hzy : r z y with
    | true => exact .inr rfl
    | false =>
      -- Neither `z` before `x` nor `y` before `z` goes with `h`, so `z` ties with both.
      have hzx : ¬ r z x = true := fun hzx =>
        absurd (IsTrans.trans (r := (r · · = true)) z x y hzx h) (by simp [hzy])
      have hyz : ¬ r y z = true := fun hyz =>
        absurd (IsTrans.trans (r := (r · · = true)) x y z h hyz) (by simp [hxz])
      have hxz : ¬ r x z = true := Bool.eq_false_iff.mp hxz
      have hzy : ¬ r z y = true := Bool.eq_false_iff.mp hzy
      have htie := @IsStrictWeakOrder.incomp_trans _ (r · · = true) _ x z y ⟨hxz, hzx⟩ ⟨hzy, hyz⟩
      exact absurd h htie.1

theorem mayPrecede_trans (x y z : α) (hxy : mayPrecede r x y = true)
    (hyz : mayPrecede r y z = true) : mayPrecede r x z = true := by
  simp only [mayPrecede, Bool.not_eq_true'] at *
  refine Bool.eq_false_iff.mpr fun hzx => ?_
  rcases split_of_strictWeakOrder y hzx with h | h
  · exact Bool.false_ne_true (hyz.symm.trans h)
  · exact Bool.false_ne_true (hxy.symm.trans h)

theorem mayPrecede_total (x y : α) : (mayPrecede r x y || mayPrecede r y x) = true := by
  simp only [mayPrecede]
  cases h : r x y
  · simp
  · simp [asymm_of_strictWeakOrder h]

/-- Items that tie with one item tie with each other. -/
theorem mayPrecede_of_ties {x y z : α} (hy : ties r x y = true) (hz : ties r x z = true) :
    mayPrecede r y z = true := by
  simp only [ties, Bool.and_eq_true, Bool.not_eq_true'] at hy hz
  refine mayPrecede_trans y x z ?_ ?_ <;> simp [mayPrecede, hy, hz]

/-- Merging keeps items that tie in their order, those of the first list in front. -/
theorem filter_merge (x : α) {xs ys : List α}
    (hxs : xs.Pairwise fun a b => mayPrecede r a b = true) :
    (xs.merge ys (mayPrecede r)).filter (ties r x) =
      xs.filter (ties r x) ++ ys.filter (ties r x) := by
  induction xs generalizing ys with
  | nil => simp
  | cons a xs ihx =>
    induction ys with
    | nil => simp
    | cons b ys ihy =>
      obtain ⟨ha, hxs'⟩ := List.pairwise_cons.mp hxs
      rw [List.cons_merge_cons]
      split
      · rw [List.filter_cons, ihx hxs', List.filter_cons (x := a)]
        split <;> rfl
      · rename_i hab
        -- An item of the first list that tied with `b` could not stand behind it.
        have hnone : ties r x b = true → (a :: xs).filter (ties r x) = [] := by
          intro hb
          refine List.filter_eq_nil_iff.mpr fun z hz htie => hab ?_
          rcases List.mem_cons.mp hz with rfl | hz
          · exact mayPrecede_of_ties htie hb
          · exact mayPrecede_trans a z b (ha z hz) (mayPrecede_of_ties htie hb)
        rw [List.filter_cons, ihy, List.filter_cons (x := b)]
        split
        · rename_i hb
          rw [hnone hb, List.nil_append, List.nil_append]
        · rfl

theorem settledBy_sortHalves (fuel : Nat) (xs : List α) (h : xs.length ≤ Nat.pow 2 fuel) :
    StablySorted r xs ((sortHalves Inquiry.query fuel xs).settledBy r) := by
  have hshort : ∀ xs : List α, xs.length ≤ 1 → StablySorted r xs xs := by
    intro xs h
    refine ⟨.refl _, ?_, fun _ => rfl⟩
    rcases xs with _ | ⟨x, _ | ⟨y, xs⟩⟩
    · exact .nil
    · exact List.pairwise_singleton _ _
    · simp at h
  induction fuel generalizing xs with
  | zero => exact hshort xs h
  | succ fuel ih =>
    have hperm : ((sortHalves Inquiry.query (fuel + 1) xs).settledBy r).Perm xs :=
      (ends_sortHalves _ _).settledBy
    unfold sortHalves at hperm ⊢
    split
    · rename_i hle
      exact hshort xs hle
    · rename_i hlong
      have hpow : Nat.pow 2 (fuel + 1) = Nat.pow 2 fuel * 2 := rfl
      have hleft := ih (xs.take (xs.length / 2)) (by rw [List.length_take]; omega)
      have hright := ih (xs.drop (xs.length / 2)) (by rw [List.length_drop]; omega)
      rw [if_neg hlong] at hperm
      simp only [Inquiry.settledBy_bind] at hperm ⊢
      have hfuel : ((sortHalves Inquiry.query fuel (xs.take (xs.length / 2))).settledBy r).length +
          ((sortHalves Inquiry.query fuel (xs.drop (xs.length / 2))).settledBy r).length
            ≤ xs.length := by
        rw [hleft.perm.length_eq, hright.perm.length_eq, List.length_take, List.length_drop]
        omega
      rw [settledBy_mergeBy _ _ _ _ hfuel, List.reverse_nil, List.nil_append] at hperm ⊢
      have hleft' := hleft.ordered.imp (S := fun x y => mayPrecede r x y = true) fun h => by
        simpa [mayPrecede] using h
      have hright' := hright.ordered.imp (S := fun x y => mayPrecede r x y = true) fun h => by
        simpa [mayPrecede] using h
      refine ⟨hperm, ?_, fun x => ?_⟩
      · refine (List.pairwise_merge mayPrecede_trans mayPrecede_total _ _ hleft' hright').imp
          fun h => ?_
        simpa [mayPrecede] using h
      · rw [filter_merge x hleft', hleft.stable, hright.stable, ← List.filter_append,
          List.take_append_drop]

/-- **Questions that are answered by a strict weak order lead to the stable sort by it.** -/
theorem settledBy_sortBy (xs : List α) :
    StablySorted r xs ((sortBy Inquiry.query xs).settledBy r) :=
  settledBy_sortHalves _ xs (Nat.le_of_lt Nat.lt_log2_self)

end WeakOrder
end Orders

/-! ## The order by texts -/

theorem isUndefined_eq_true {v : Value} : v.isUndefined = true ↔ v = .undefined := by
  cases v <;> simp [Value.isUndefined]

theorem defaultBefore_eq_true {v w : Value} : defaultBefore v w = true ↔
    v.isUndefined = false ∧ (w.isUndefined = true ∨ v.text < w.text) := by
  unfold defaultBefore
  cases v.isUndefined <;> cases w.isUndefined <;> simp

/-- Two values tie if both are `undefined`, or neither is and their texts are the same. -/
theorem not_defaultBefore {v w : Value} :
    ¬ defaultBefore v w = true ∧ ¬ defaultBefore w v = true ↔
      v.isUndefined = w.isUndefined ∧ (v.isUndefined = false → v.text = w.text) := by
  have htext : ¬ v.text < w.text ∧ ¬ w.text < v.text ↔ v.text = w.text :=
    ⟨fun h => String.le_antisymm (String.not_lt.mp h.2) (String.not_lt.mp h.1),
      fun h => h ▸ ⟨String.lt_irrefl _, String.lt_irrefl _⟩⟩
  simp only [defaultBefore_eq_true]
  cases v.isUndefined <;> cases w.isUndefined <;>
    simp only [Bool.false_eq_true, Bool.true_eq_false, true_and, false_and, false_or, true_or,
      not_true, not_false_iff, and_true, and_false, forall_const, false_implies, htext]

theorem strictWeakOrder_defaultBefore :
    IsStrictWeakOrder Value (defaultBefore · · = true) where
  irrefl v := by
    rw [defaultBefore_eq_true]
    rintro ⟨hv, hundefined | hlt⟩
    · exact Bool.false_ne_true (hv.symm.trans hundefined)
    · exact String.lt_irrefl _ hlt
  trans u v w huv hvw := by
    rw [defaultBefore_eq_true] at *
    obtain ⟨hu, huv⟩ := huv
    obtain ⟨hv, hvw⟩ := hvw
    rcases huv with hundefined | huv
    · exact absurd (hv.symm.trans hundefined) Bool.false_ne_true
    · exact ⟨hu, hvw.imp id (String.lt_trans huv)⟩
  incomp_trans u v w huv hvw := by
    rw [not_defaultBefore] at *
    exact ⟨huv.1.trans hvw.1, fun hu => (huv.2 hu).trans (hvw.2 (huv.1 ▸ hu))⟩

/-- Sorted by texts, the values that are not `undefined` stand in front, in ascending order. -/
theorem exists_front {vs : List Value} (h : vs.Pairwise fun v w => defaultBefore w v = false) :
    ∃ front n, vs = front ++ List.replicate n .undefined ∧ (∀ v ∈ front, v ≠ .undefined) ∧
      front.Pairwise fun v w => v.text ≤ w.text := by
  induction vs with
  | nil => exact ⟨[], 0, rfl, List.forall_mem_nil _, .nil⟩
  | cons v rest ih =>
    obtain ⟨hv, hrest⟩ := List.pairwise_cons.mp h
    cases hundefined : v.isUndefined with
    | true =>
      -- Only what is `undefined` itself does not come before `undefined`.
      have hall : ∀ w ∈ rest, w = .undefined := fun w hw => by
        have hw := hv w hw
        rw [← Bool.not_eq_true, defaultBefore_eq_true] at hw
        simpa [hundefined, isUndefined_eq_true] using hw
      refine ⟨[], rest.length + 1, ?_, List.forall_mem_nil _, .nil⟩
      rw [isUndefined_eq_true.mp hundefined, List.eq_replicate_of_mem hall, List.length_replicate]
      rfl
    | false =>
      obtain ⟨front, n, rfl, hfront, hordered⟩ := ih hrest
      refine ⟨v :: front, n, rfl, List.forall_mem_cons.mpr ⟨?_, hfront⟩,
        List.pairwise_cons.mpr ⟨fun w hw => ?_, hordered⟩⟩
      · exact fun hv => by simp [hv, Value.isUndefined] at hundefined
      · have hvw := hv w (List.mem_append_left _ hw)
        rw [← Bool.not_eq_true, defaultBefore_eq_true] at hvw
        have hw : w.isUndefined = false := Bool.eq_false_iff.mpr fun h =>
          hfront w hw (isUndefined_eq_true.mp h)
        exact String.not_lt.mp fun hlt => hvw ⟨hw, .inr hlt⟩

/-- **Sorting is a stable sort.**  A sort asks the questions of one inquiry, and it fails with an
error exactly if one of its comparisons does.  If none does, its result is a permutation of the
items, whatever was answered; and if the comparisons were answered as a strict weak order has it,
the result is in that order, and items that tie stand as they stood.  A function of the script says
that an item comes before another by a negative number.  Without a function the items come in the
order of their texts, with every `undefined` last. -/
theorem sort_stable (c : Context) (m : Machine) :
    (∀ (before : Value → Value → Eval Bool) (items : List Value),
      let sort := (sortBy before items).outcome c m
      let comparisons := (sortBy Inquiry.query items).comparisons before c m
      sortBy before items = (sortBy Inquiry.query items).answeredBy before ∧
      (∀ e, sort.1 = .error e ↔ ∃ q ∈ comparisons, q.answer = .error e) ∧
      ((∀ q ∈ comparisons, ∃ b, q.answer = .ok b) → ∃ vs, sort.1 = .ok vs ∧ vs.Perm items) ∧
      ∀ r : Value → Value → Bool, IsStrictWeakOrder Value (r · · = true) →
        (∀ q ∈ comparisons, q.answer = .ok (r q.first q.second)) →
        ∃ vs, sort.1 = .ok vs ∧ StablySorted r items vs) ∧
    (∀ call compare items, compare.isCallable = true → sorted call compare items =
      sortBy (fun v w => do return (← call compare [v, w]).toNumber < 0) items) ∧
    ∀ call compare items, compare.isCallable = false →
      ∃ front n, (∀ v ∈ front, v ≠ .undefined) ∧ (front.Pairwise fun v w => v.text ≤ w.text) ∧
        let vs := front ++ List.replicate n .undefined
        (sorted call compare items).outcome c m = (.ok vs, m) ∧
          StablySorted defaultBefore items vs := by
  refine ⟨fun before items => ⟨sortBy_eq_answeredBy before items, ?_, ?_, ?_⟩,
    fun _ _ _ hcompare => if_pos hcompare, ?_⟩
  · intro e
    rw [sortBy_eq_answeredBy]
    exact Inquiry.answeredBy_eq_error _ m e
  · intro h
    rw [sortBy_eq_answeredBy]
    exact (ends_sortHalves _ items).answeredBy m h
  · intro r hr h
    rw [sortBy_eq_answeredBy]
    exact ⟨_, Inquiry.answeredBy_eq_settledBy _ m h, settledBy_sortBy items⟩
  · intro call compare items hcompare
    have := strictWeakOrder_defaultBefore
    have hsorted : StablySorted defaultBefore items
        ((sortBy Inquiry.query items).settledBy defaultBefore) := settledBy_sortBy items
    obtain ⟨front, n, hvs, hfront, hordered⟩ := exists_front hsorted.ordered
    refine ⟨front, n, hfront, hordered, ?_, hvs ▸ hsorted⟩
    rw [sorted, if_neg (by simp [hcompare]), sortBy_eq_answeredBy, Inquiry.answeredBy_settled, hvs,
      Eval.outcome_pure]

/-- Compares by texts, which counts as work. -/
def countedBefore (v w : Value) : Eval Bool := do
  Eval.tick
  return defaultBefore v w

/-- A text and a boolean with the same text tie, and keep their order when a third value is moved in
front of them. -/
theorem sort_stable_ties :
    let c : Context := { budget := { limit := 5000 } }
    let items : List Value := [.string "true", .bool true, .bool false]
    (∀ q ∈ (sortBy Inquiry.query items).comparisons countedBefore c { next := 6 },
      q.answer = .ok (defaultBefore q.first q.second)) ∧
      ∃ vs, ((sortBy countedBefore items).outcome c { next := 6 }).1 = .ok vs ∧
        StablySorted defaultBefore items vs := by
  intro c items
  have hcomparisons : (sortBy Inquiry.query [.string "true", .bool true, .bool false]).comparisons
      countedBefore { budget := { limit := 5000 } } { next := 6 } =
      [⟨.bool false, .bool true, .ok true⟩, ⟨.bool false, .string "true", .ok true⟩,
        ⟨.bool true, .string "true", .ok false⟩] := rfl
  have h : ∀ q ∈ (sortBy Inquiry.query items).comparisons countedBefore c { next := 6 },
      q.answer = .ok (defaultBefore q.first q.second) := by
    rw [hcomparisons]
    simp only [List.forall_mem_cons]
    exact ⟨rfl, rfl, rfl, List.forall_mem_nil _⟩
  exact ⟨h, ((sort_stable c { next := 6 }).1 countedBefore items).2.2.2 defaultBefore
    strictWeakOrder_defaultBefore h⟩

end Stencil.Script.Method
