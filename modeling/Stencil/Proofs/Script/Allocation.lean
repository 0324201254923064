import Stencil.Proofs.Script.ArrayLength
import Stencil.Proofs.Script.Making

/-! # The limit on what is allocated

**No program charges more than the limit allows, and what it makes is charged, apart from pieces of
strings and from arrays that grow because an item past their end is written**
(`Eval.allocation_limit`).

What is charged is never taken back, and a charge that would pass the limit fails.  Operators,
literals and most methods pay for what they make before they make it.  A method that cuts a piece
out of a string charges nothing for the piece (`Method.cutters`), nor does `keys` for its array, nor
the write to an index for the slots with which it fills the array up.

So what a program makes is not bounded by the limit: under a limit of no bytes at all a program can
cut as many texts as it has statements (`Eval.outcome_program_cuts`).
-/
namespace Stencil.Script
open Value (argument)

/-- A call that cuts a text as a whole out of a text. -/
def cut (text : String) : Expr :=
  .call (.member (.string text) (.string "slice") false) [] false

namespace Eval

/-! ## What is not charged -/

section Uncharged
variable (c : Context) (m : Machine)

/-- A value that is assigned was there before, and the slots of an array that it fills up are not
counted. -/
theorem allocated_assign (target : Target) (v : Value) :
    ((assign target v).outcome c m).2.allocated = m.allocated := by
  unfold assign
  rw [outcome_bind, outcome_limits]
  exact allocated_onPlace c m target _

/-- The method is called, and its answer is not put into any place. -/
theorem outcome_cut (enter : Call) (text : String) :
    (expr (callVia enter) (cut text)).outcome c m = (.ok (.string text), m) := by
  have hwhole : Method.ofChars (((text.toList).drop 0).take (text.toList.length - 0)) =
      .string text := by
    rw [List.drop_zero, Nat.sub_zero, List.take_length, Method.ofChars, String.ofList_toList]
  have hinvoke : (Method.invoke (callVia enter) (.string text) "slice" []).outcome c m =
      (.ok (some (.string text)), m) := by
    have hcut : (Method.invoke (callVia enter) (.string text) "slice" []).outcome c m =
      (.ok (some (Method.ofChars (((text.toList).drop 0).take (text.toList.length - 0)))), m) := rfl
    rw [hcut, hwhole]
  have hmethod : ∀ place, (callMethod (callVia enter) (.string text) place (.string text) "slice" []
      false).outcome c m = (.ok (.string text), m) := by
    intro place
    have hmember : ((Value.string text).members? >>= fun members => members.lookup "slice") =
        none := rfl
    have hplace : inPlace? (.string text) (.string text) "slice" = none := rfl
    have horder : reorders (.string text) (.string text) "slice" = false := rfl
    unfold callMethod
    simp only [Value.isNullish, Bool.false_eq_true, if_false, hmember, hplace, outcome_bind,
      hinvoke, horder, outcome_pure]
  have hkey : ∀ value, (propertyKey (.string "slice") value).outcome c m = (.ok "slice", m) := by
    intro value
    have hallowed : Security.isDenied "slice" = false := by decide
    simp only [propertyKey, allowedKey, hallowed, Bool.false_eq_true, if_false, outcome_pure]
  have hobject : (expr (callVia enter) (.string text)).outcome c m = (.ok (.string text), m) := rfl
  have hargs : (exprs (callVia enter) []).outcome c m = (.ok [], m) := rfl
  unfold cut expr
  simp only [outcome_bind, hobject, Bool.false_and, Bool.false_eq_true, if_false, hkey, hargs,
    hmethod]

end Uncharged

section Cuts
variable {c : Context} (text : String)

/-- Statements that cut, run where the last statement has given the text. -/
theorem outcome_programStmts_cuts (enter : Call) (times : Nat) {m : Machine}
    (hcancelled : c.budget.cancelled = none) (htime : m.ticks + times < c.budget.expiry)
    (hcallers : m.callers = []) (hcompletion : m.completion = .string text) :
    (programStmts (callVia enter) (List.replicate times (.expr (cut text)))).outcome c m =
      (.ok (.string text), { m with ticks := m.ticks + times, completion := .undefined }) := by
  induction times generalizing m with
  | zero => rw [← hcompletion]; rfl
  | succ times ih =>
    have hstmt := outcome_expression hcancelled (by omega)
      (outcome_cut c { m with ticks := m.ticks + 1 } enter text) hcallers
    rw [List.replicate_succ]
    unfold programStmts
    rw [outcome_bind, hstmt]
    have htime' : m.ticks + 1 + times < c.budget.expiry := by omega
    have hrest := ih (m := { m with ticks := m.ticks + 1, completion := .string text })
      htime' hcallers rfl
    rw [Nat.add_assoc, Nat.add_comm 1 times] at hrest
    exact hrest

/-- **As many texts are cut as there are statements**, and nothing is charged. -/
theorem outcome_program_cuts (next : Identity) (times : Nat)
    (hcancelled : c.budget.cancelled = none) (htime : times + 1 < c.budget.expiry) :
    let after := (program (List.replicate (times + 1) (.expr (cut text)))).outcome c { next }
    after.1 = .ok (.string text) ∧ after.2.allocated = 0 := by
  let enter := enter (c.limits.callDepth - 1)
  have hfirst := outcome_expression (m := { next }) hcancelled (by dsimp only; omega)
    (outcome_cut c { next, ticks := 1 } enter text) rfl
  have hrest := outcome_programStmts_cuts text enter times
    (m := { next, ticks := 1, completion := .string text }) hcancelled (by dsimp only; omega)
    rfl rfl
  have hhoist : (hoist (List.replicate (times + 1) (.expr (cut text)))).outcome c { next } =
      (.ok (), { next }) := by
    have h := outcome_hoist_expressions (c := c) (m := { next })
      (List.replicate (times + 1) (cut text))
    rwa [List.map_replicate] at h
  have hrun : (program (List.replicate (times + 1) (.expr (cut text)))).outcome c { next } =
      (.ok (.string text), { next, ticks := 1 + times }) := by
    simp only [program, programWith, topCall, outcome_bind, outcome_limits, hhoist]
    rw [List.replicate_succ]
    unfold programStmts
    rw [outcome_bind, hfirst]
    exact hrest
  intro after
  rw [show after = _ from hrun]
  exact ⟨rfl, rfl⟩

end Cuts

/-- The keys of an array are a new array, for which nothing is charged. -/
theorem exists_outcome_keys (c : Context) (m : Machine) (call : Call) (id : Identity)
    (items : Array Value) (args : List Value) : ∃ keys : Array Value, keys.size = items.size ∧
      (Method.invoke call (.array id items) "keys" args).outcome c m =
        (.ok (some (.array m.next keys)), { m with next := m.next + 1 }) :=
  ⟨((List.range items.toList.length).map Method.count).toArray, by simp, rfl⟩

/-! ## What is charged -/

/-- What is thrown for a charge that would pass the limit. -/
def allocationExceeded (limits : Limits) : ScriptError :=
  .outOfRange s!"Allocation limit of {limits.allocation} bytes exceeded"

/-- A string within the limit on its length is not made if its bytes would pass the limit. -/
theorem outcome_newString_exceeded {c : Context} {m : Machine} {s : String}
    (hs : s.utf8ByteSize ≤ c.limits.stringLength)
    (hpast : c.limits.allocation < m.allocated + s.utf8ByteSize) :
    (newString s).outcome c m = (.error (allocationExceeded c.limits), m) := by
  unfold newString
  simp only [outcome_bind, outcome_limits, if_neg (Nat.not_lt.mpr hs), outcome_charge, if_pos hpast]
  rfl

/-- An array within the limit on its length is not made if its slots would pass the limit. -/
theorem outcome_newArray_exceeded {c : Context} {m : Machine} {items : Array Value}
    (hitems : items.size ≤ c.limits.arrayLength)
    (hpast : c.limits.allocation < m.allocated + items.size * slotBytes) :
    (newArray items).outcome c m = (.error (allocationExceeded c.limits), m) := by
  unfold newArray
  simp only [outcome_bind, outcome_limits, if_neg (Nat.not_lt.mpr hitems), outcome_charge,
    if_pos hpast]
  rfl

/-- **What is charged, and what is not.**  No program and no module charges more than the limit
allows; what is charged is never taken back.  A new string or array whose bytes would pass the limit
is not made: the step fails and leaves the machine as it was.

Binary operators, template literals, array literals, the methods of arrays that make a string or an
array, and the methods that change an array in place pay for what they make; a method of a string
pays for its answer or cuts it out of the string.

The methods that cut, the method `keys` of arrays and the assignment to an item charge nothing,
though `keys` makes an array, and an assignment past the end makes an array longer.  So programs run
to their end under every limit that cut a text as often as they have statements. -/
theorem allocation_limit (c : Context) :
    -- The sum over a run.
    (∀ next body, ((program body).outcome c { next }).2.allocated ≤ c.limits.allocation ∧
      ((module body).outcome c { next }).2.allocated ≤ c.limits.allocation) ∧
    (∀ depth e asBody s m, let call := callVia (enter depth)
      m.allocated ≤ ((expr call e).outcome c m).2.allocated ∧
        m.allocated ≤ ((stmt call asBody s).outcome c m).2.allocated) ∧
    (∀ s m, s.utf8ByteSize ≤ c.limits.stringLength →
      c.limits.allocation < m.allocated + s.utf8ByteSize →
      (newString s).outcome c m = (.error (allocationExceeded c.limits), m)) ∧
    (∀ items m, items.size ≤ c.limits.arrayLength →
      c.limits.allocation < m.allocated + items.size * slotBytes →
      (newArray items).outcome c m = (.error (allocationExceeded c.limits), m)) ∧
    -- What is paid for.
    (∀ op v w, Pays c (binary op v w) fun r bytes => r.IsPaid c.limits bytes) ∧
    (∀ depth parts, Pays c (expr (callVia (enter depth)) (.template parts)) fun r bytes =>
      r.IsPaid c.limits bytes) ∧
    (∀ depth items, Pays c (expr (callVia (enter depth)) (.array items)) fun r bytes =>
      r.IsPaid c.limits bytes) ∧
    (∀ depth s key args, Pays c (Method.invoke (callVia (enter depth)) (.string s) key args)
      fun answer bytes => ∀ r ∈ answer, r.IsMadeOf c.limits s bytes) ∧
    (∀ depth id items, ∀ key ∈ Method.makers, ∀ args,
      Pays c (Method.invoke (callVia (enter depth)) (.array id items) key args)
        fun answer bytes => ∀ r ∈ answer, r.IsPaid c.limits bytes) ∧
    (∀ depth op args place, Pays c (changeInPlace op args (target (callVia (enter depth)) place))
      fun _ bytes => args.length * slotBytes ≤ bytes) ∧
    -- What is not charged.
    (∀ call s, ∀ key ∈ Method.cutters, ∀ args m, ∃ v : Value, v.IsCutFrom s ∧
      (Method.invoke call (.string s) key args).outcome c m = (.ok (some v), m)) ∧
    (∀ call id items args m, ∃ keys : Array Value, keys.size = items.size ∧
      (Method.invoke call (.array id items) "keys" args).outcome c m =
        (.ok (some (.array m.next keys)), { m with next := m.next + 1 })) ∧
    (∀ x key i b id items v m, findBinding? x m.current.frames = some b →
      b.value = .array id items → Number.index? key = some i → i ≤ items.size + maxGap →
      Value.checkHeights c.limits.valueDepth 1 [v] = .ok () →
      let after := (assign ⟨x, [key]⟩ v).outcome c m
      after.1 = .ok () ∧ after.2.allocated = m.allocated ∧ ∃ items',
        findBinding? x after.2.current.frames = some { b with value := .array m.next items' } ∧
          items'.size = max items.size (i + 1)) ∧
    (∀ limits next text times,
      let after := (program (List.replicate (times + 1) (.expr (cut text)))).outcome
        { limits, budget := { limit := times + 1 } } { next }
      after.1 = .ok (.string text) ∧ after.2.allocated = 0) := by
  have hcall := fun depth => StepLogic.callVia ((StepLogic.charging c).enter depth)
  refine ⟨?_, ?_, fun s m => outcome_newString_exceeded,
    fun items m => outcome_newArray_exceeded, pays_binary, fun depth => pays_template (hcall depth),
    fun depth => pays_array (hcall depth), fun depth => pays_ofString (hcall depth), ?_, ?_, ?_,
    fun call id items args m => exists_outcome_keys c m call id items args, ?_, ?_⟩
  · exact fun next body => ⟨allocated_program c next body, allocated_module c next body⟩
  · intro depth e asBody s m call
    exact ⟨(StepLogic.expr (hcall depth) e (fun _ _ => trivial) m).1.grows,
      (StepLogic.stmt (hcall depth) asBody s (fun _ _ => trivial) m).1.grows⟩
  · exact fun depth id items key hkey args => pays_ofArray (hcall depth) _ _ hkey args
  · intro depth op args place
    have hcalls := StepLogic.matching_calls.mpr (hcall depth)
    have htarget := MatchLogic.target (A := ()) hcalls () place
      (place.like_self (fun _ _ => trivial) fun d _ =>
        d.writesAmong_of_forall fun _ => trivial)
    exact pays_changeInPlace op args (.ofPairs htarget)
  · intro call s key hkey args m
    obtain ⟨v, hcut, hanswer⟩ := Method.exists_cut s hkey args
    exact ⟨v, hcut, congrArg (outcome c m) (hanswer call)⟩
  · intro x key i b id items v m hb harray hi hgap hv after
    obtain ⟨hok, items', hafter⟩ := (outcome_assign_index c m hb harray hi hv).2 hgap
    exact ⟨hok, allocated_assign c m _ v, items', hafter⟩
  · intro limits next text times
    refine outcome_program_cuts text next times rfl ?_
    change times + 1 < (times + 1) * 1000
    omega

/-- Under a limit of ten bytes two texts of eight bytes each are cut, for which nothing is charged;
a string of eleven is not made. -/
theorem allocation_limit_passed :
    let limits : Limits := { allocation := 10 }
    let c : Context := { limits, budget := { limit := 2 } }
    let after := (program (List.replicate 2 (.expr (cut "aaaaaaaa")))).outcome c { next := 6 }
    after.1 = .ok (.string "aaaaaaaa") ∧ after.2.allocated = 0 ∧
      (newString "aaaaaaaaaaa").outcome c { next := 6 } =
        (.error (allocationExceeded limits), { next := 6 }) := by
  intro limits c after
  obtain ⟨-, -, hstring, -, -, -, -, -, -, -, -, -, -, hcuts⟩ := allocation_limit c
  obtain ⟨hrun, hnone⟩ := hcuts limits 6 "aaaaaaaa" 1
  exact ⟨hrun, hnone, hstring "aaaaaaaaaaa" { next := 6 } (by decide) (by decide)⟩

end Eval
end Stencil.Script
