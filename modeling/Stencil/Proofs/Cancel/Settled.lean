import Stencil.Cancel.Clones

/-! # Work is settled once

A token has two pieces of state that have to agree, how the work stands and the reason why it was
cancelled.  They do because both are settled by the same thing: **a token is a function of what was
the first to settle its work** (`CancelToken.settledBy`), and settling it once more leaves this first
one where it is (`CancelToken.settle_settledBy`).

Tokens are made, cloned and settled in any order, each through any of its clones (`ofHistory`).
Whatever has been done so far, of all that tried to settle the work of one token exactly the first
has won; the token stands as that one has left it, and does so from then on (`settles_once`).  What
is done to other tokens makes no difference.
-/
namespace Stencil

/-- The reason that is given, if the work is to be cancelled. -/
def Settlement.reason? : Settlement → Option String
  | .cancel reason => some reason
  | .complete => none

/-! ## One token -/

namespace CancelToken

/-- The token of work that was first settled so, if it was settled at all. -/
def settledBy : Option Settlement → CancelToken
  | none => .pending
  | some (.cancel reason) => ⟨.cancelled, some reason⟩
  | some .complete => ⟨.completed, none⟩

/-- Settling work wins if nothing was first, and leaves what was first where it is. -/
theorem settle_settledBy (first : Option Settlement) (how : Settlement) :
    (settledBy first).settle how = (first.isNone, settledBy (first.or (some how))) := by
  rcases first with _ | _ | _ <;> cases how <;> rfl

theorem isSettled_settledBy (first : Option Settlement) :
    (settledBy first).isSettled = first.isSome := by
  rcases first with _ | _ | _ <;> rfl

theorem isCancelled_settledBy (first : Option Settlement) :
    (settledBy first).isCancelled = (first.bind Settlement.reason?).isSome := by
  rcases first with _ | _ | _ <;> rfl

theorem reason?_settledBy (first : Option Settlement) :
    (settledBy first).reason? = first.bind Settlement.reason? := by
  rcases first with _ | _ | _ <;> rfl

end CancelToken

/-! ## Histories -/

namespace TokenPool

/-- The tokens that a history leaves, and the answers it gave, in order.  A history has its last step
in front. -/
def ofHistory : List Step → TokenPool × List Answer
  | [] => ({}, [])
  | step :: earlier =>
    let (pool, answers) := ofHistory earlier
    let (answer, pool) := pool.perform step
    (pool, answers ++ answer.toList)

/-- The answers about the token at a place. -/
def about (place : Nat) (answers : List Answer) : List Answer :=
  answers.filter (·.place == place)

/-- What was the first to settle the work of the token at a place. -/
def first? (place : Nat) (answers : List Answer) : Option Settlement :=
  (about place answers).head?.map (·.how)

variable {place : Nat} {answers : List Answer} {pool : TokenPool}

theorem about_append (more : List Answer) :
    about place (answers ++ more) = about place answers ++ about place more :=
  List.filter_append ..

theorem about_self (a : Answer) : about a.place [a] = [a] :=
  List.filter_cons_of_pos (beq_self_eq_true a.place)

theorem about_other {a : Answer} (h : a.place ≠ place) : about place [a] = [] :=
  List.filter_cons_of_neg (by simpa using h)

theorem first?_append (more : List Answer) :
    first? place (answers ++ more) = (first? place answers).or (first? place more) := by
  unfold first?
  rw [about_append]
  cases about place answers <;> rfl

theorem first?_self (a : Answer) : first? a.place [a] = some a.how := by
  rw [first?, about_self]
  rfl

theorem first?_eq_none : first? place answers = none ↔ about place answers = [] := by
  unfold first?
  rw [Option.map_eq_none_iff, List.head?_eq_none_iff]

/-- What settling through a clone comes to: nothing, if there is no such clone, and else an answer
about the token of the clone. -/
theorem settle_cases (pool : TokenPool) (through : Nat) (how : Settlement) :
    (pool.clones[through]? = none ∧ pool.settle through how = (none, pool)) ∨
    ∃ place t, pool.clones[through]? = some place ∧ pool.tokens[place]? = some t ∧
      (pool.settle through how).1 = some ⟨place, how, (t.settle how).1⟩ ∧
      (pool.settle through how).2.tokens = pool.tokens.set place (t.settle how).2 := by
  unfold settle
  split
  · rename_i h
    exact .inl ⟨h, rfl⟩
  · rename_i place h
    have hplace := pool.reaches place (List.mem_of_getElem? h)
    exact .inr ⟨place, pool.tokens[place], h, List.getElem?_eq_getElem hplace, rfl, rfl⟩

/-- The answers tell all about the tokens: each is about a token that there is, the first one about
each token has won and no later one has, and the token is settled by what was the first. -/
structure Told (pool : TokenPool) (answers : List Answer) : Prop where
  within : ∀ a ∈ answers, a.place < pool.tokens.length
  won : ∀ (place i : Nat) (a : Answer), (about place answers)[i]? = some a → a.won = decide (i = 0)
  token : ∀ (place : Nat) (t : CancelToken), pool.tokens[place]? = some t →
    t = CancelToken.settledBy (first? place answers)

namespace Told

theorem start : Told (ofHistory []).1 (ofHistory []).2 where
  within := List.forall_mem_nil _
  won _ _ a h := (Option.some_ne_none a h.symm).elim
  token _ t h := (Option.some_ne_none t h.symm).elim

variable (h : Told pool answers)
include h

/-- Nothing is said about a token before it is made. -/
theorem first?_eq_none_of_le (hplace : pool.tokens.length ≤ place) : first? place answers = none := by
  refine first?_eq_none.mpr (List.filter_eq_nil_iff.mpr fun a ha hsame => ?_)
  have hlt : a.place < pool.tokens.length := h.within a ha
  have hsame : a.place = place := eq_of_beq hsame
  omega

theorem create : Told pool.create answers where
  within a ha := by
    rw [TokenPool.create, List.length_append]
    exact Nat.lt_add_right _ (h.within a ha)
  won := h.won
  token place t ht := by
    rcases Nat.lt_or_ge place pool.tokens.length with hlt | hge
    · rw [TokenPool.create, List.getElem?_append_left hlt] at ht
      exact h.token place t ht
    · rw [TokenPool.create, List.getElem?_append_right hge] at ht
      obtain rfl : t = .pending := List.mem_singleton.mp (List.mem_of_getElem? ht)
      rw [h.first?_eq_none_of_le hge]
      rfl

theorem clone (of : Nat) : Told (pool.clone of) answers :=
  ⟨h.within, h.won, h.token⟩

/-- An answer that wins if it is the first one about its token. -/
theorem won_append {a : Answer} (ha : a.won = (first? a.place answers).isNone) (place i : Nat)
    (b : Answer) (hb : (about place (answers ++ [a]))[i]? = some b) : b.won = decide (i = 0) := by
  rw [about_append] at hb
  by_cases hplace : a.place = place
  · subst hplace
    rw [about_self] at hb
    rcases Nat.lt_or_ge i (about a.place answers).length with hlt | hge
    · rw [List.getElem?_append_left hlt] at hb
      exact h.won a.place i b hb
    · rw [List.getElem?_append_right hge] at hb
      obtain rfl : b = a := List.mem_singleton.mp (List.mem_of_getElem? hb)
      have hi : i - (about b.place answers).length < [b].length :=
        (List.getElem?_eq_some_iff.mp hb).1
      rw [ha, first?, Option.isNone_map]
      cases habout : about b.place answers with
      | nil => simpa [habout] using hi
      | cons c rest =>
        have : i ≠ 0 := by
          rw [habout, List.length_cons] at hge
          omega
        simpa using this
  · rw [about_other hplace, List.append_nil] at hb
    exact h.won place i b hb

theorem settle (through : Nat) (how : Settlement) :
    Told (pool.settle through how).2 (answers ++ (pool.settle through how).1.toList) := by
  obtain ⟨-, hnone⟩ | ⟨place, t, -, ht, hanswer, htokens⟩ := pool.settle_cases through how
  · rw [hnone, Option.toList_none, List.append_nil]
    exact h
  obtain rfl := h.token place t ht
  rw [CancelToken.settle_settledBy] at hanswer htokens
  have hplace : place < pool.tokens.length := (List.getElem?_eq_some_iff.mp ht).1
  rw [hanswer]
  refine ⟨?_, h.won_append rfl, fun place' t' ht' => ?_⟩
  · rw [htokens, List.length_set]
    exact List.forall_mem_append.mpr ⟨h.within, List.forall_mem_singleton.mpr hplace⟩
  · rw [htokens, List.getElem?_set] at ht'
    rw [first?_append]
    split at ht'
    · rename_i heq
      subst heq
      rw [← Option.some.inj ht', Option.toList_some, first?_self ⟨place, how, _⟩]
    · rename_i hne
      rw [Option.toList_some, first?_eq_none.mpr (about_other hne), Option.or_none]
      exact h.token place' t' ht'

theorem perform (step : Step) :
    Told (pool.perform step).2 (answers ++ (pool.perform step).1.toList) := by
  cases step with
  | create => exact (List.append_nil answers).symm ▸ h.create
  | clone of => exact (List.append_nil answers).symm ▸ h.clone of
  | settle through how => exact h.settle through how

end Told

/-- The answers of a history tell all about the tokens that it leaves. -/
theorem told_ofHistory (history : List Step) :
    Told (ofHistory history).1 (ofHistory history).2 := by
  induction history with
  | nil => exact .start
  | cons step earlier ih => exact ih.perform step

/-! ## Later histories -/

/-- A later history has the same clones and answers, and maybe more. -/
theorem ofHistory_append (later history : List Step) :
    (ofHistory history).1.clones <+: (ofHistory (later ++ history)).1.clones ∧
      (ofHistory history).2 <+: (ofHistory (later ++ history)).2 := by
  induction later with
  | nil => exact ⟨List.prefix_rfl, List.prefix_rfl⟩
  | cons step later ih =>
    refine ⟨ih.1.trans ?_, ih.2.trans (List.prefix_append _ _)⟩
    cases step with
    | create => exact List.prefix_append _ _
    | clone of => exact List.prefix_append _ _
    | settle through how =>
      show _ <+: ((ofHistory (later ++ history)).1.settle through how).2.clones
      unfold settle
      split <;> exact List.prefix_rfl

/-- A clone stands for a token, and this is settled by what was the first. -/
theorem token?_ofHistory {history : List Step} {clone : Nat}
    (hclone : (ofHistory history).1.clones[clone]? = some place) :
    (ofHistory history).1.token? clone =
      some (CancelToken.settledBy (first? place (ofHistory history).2)) := by
  have hplace := (ofHistory history).1.reaches place (List.mem_of_getElem? hclone)
  have htoken := List.getElem?_eq_getElem hplace
  unfold token?
  rw [hclone, Option.bind_some, htoken, (told_ofHistory history).token place _ htoken]

/-- **Work is settled once.**  After any history, through any clone of a token: of the answers about
the token the first says that it won and no other does.  The token is settled if there is an answer,
it is cancelled if the winner was to cancel the work, and its reason is that of the winner.  Once it
is settled it stays as it is, whatever is done later. -/
theorem settles_once (history : List Step) (clone place : Nat)
    (hclone : (ofHistory history).1.clones[clone]? = some place) :
    let answers := about place (ofHistory history).2
    let winner := answers.head?.map (·.how)
    (∀ i a, answers[i]? = some a → a.won = decide (i = 0)) ∧
    ∃ t, (ofHistory history).1.token? clone = some t ∧
      t.isSettled = winner.isSome ∧
      (t.isCancelled ↔ ∃ reason, winner = some (.cancel reason)) ∧
      t.reason? = winner.bind Settlement.reason? ∧
      (t.isSettled → ∀ later, (ofHistory (later ++ history)).1.token? clone = some t) := by
  intro answers winner
  refine ⟨(told_ofHistory history).won place, _, token?_ofHistory hclone,
    CancelToken.isSettled_settledBy _, ?_, CancelToken.reason?_settledBy _, ?_⟩
  · rw [CancelToken.isCancelled_settledBy]
    change (winner.bind Settlement.reason?).isSome ↔ _
    rcases winner with _ | reason | _ <;> simp [Settlement.reason?]
  · intro hsettled later
    obtain ⟨⟨clones, hclones⟩, ⟨more, hmore⟩⟩ := ofHistory_append later history
    have hlt := (List.getElem?_eq_some_iff.mp hclone).1
    have hlater : (ofHistory (later ++ history)).1.clones[clone]? = some place := by
      rw [← hclones, List.getElem?_append_left hlt, hclone]
    rw [CancelToken.isSettled_settledBy] at hsettled
    obtain ⟨how, hhow⟩ := Option.isSome_iff_exists.mp hsettled
    rw [token?_ofHistory hlater, ← hmore, first?_append, hhow]
    rfl

/-- Two tokens, the first with two clones: a reason comes before the end of the work and before
another reason, and neither reaches the token that is left alone. -/
theorem settles_once_two_clones :
    let history := [Step.settle 0 (.cancel "late"), .settle 2 .complete, .settle 0 (.cancel "early"),
      .clone 0, .create, .create]
    (ofHistory history).1.clones[2]? = some 0 ∧
      (about 0 (ofHistory history).2).map (·.won) = [true, false, false] ∧
      ∃ t, (ofHistory history).1.token? 2 = some t ∧ t.reason? = some "early" ∧
        (ofHistory history).1.token? 1 = some .pending := by
  intro history
  have hclone : (ofHistory history).1.clones[2]? = some 0 := by decide
  obtain ⟨-, t, ht, -, -, hreason, -⟩ := settles_once history 2 0 hclone
  exact ⟨hclone, by decide, t, ht, hreason.trans (by decide), by decide⟩

end TokenPool
end Stencil
