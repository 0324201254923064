import Stencil.Proofs.Script.Making

/-! # The limit on the length of strings

**A string that is made anew obeys the limit, unless a built-in function makes it that answers
without a check, or a method of something that is neither a string nor an array**
(`Eval.string_limit`).

Operators, template literals, the methods of strings and arrays and most built-in functions make
their strings with `newString`, which fails if the string is too long.  A method of strings that
cuts a piece out of its receiver needs no check, because the piece is no longer than the receiver.
The functions of `Builtin.unchecked` make their texts without regard to the limit, and some of them
make texts that are longer than what they are given.  The methods of numbers, dates, truth values,
objects and functions write their receivers without regard to it, too.

So a program can end with a string that is longer than the limit, whatever this is: a percent sign
becomes two bytes longer each time that it is coded (`Eval.outcome_coding`).

This speaks of single steps, whatever run they are in.  Nothing in a text tells which step made it,
so there is no saying afterwards which of the texts that a machine holds may be longer than the
limit, as there is for arrays (`Eval.array_limit`).
-/
namespace Stencil.Script
open Value (argument)

/-! ## A text that grows -/

/-- What stands behind a percent sign that has been coded so often. -/
def codedDigits : Nat → List Char
  | 0 => []
  | times + 1 => '2' :: '5' :: codedDigits times

/-- A percent sign that has been coded so often. -/
def codedText (times : Nat) : String :=
  String.ofList ('%' :: codedDigits times)

theorem utf8ByteSize_codedText (times : Nat) : (codedText times).utf8ByteSize = 2 * times + 1 := by
  have hdigits : (String.ofList (codedDigits times)).utf8ByteSize = 2 * times := by
    induction times with
    | zero => rfl
    | succ times ih =>
      have happend : String.ofList (['2', '5'] ++ codedDigits times) =
          "25" ++ String.ofList (codedDigits times) := String.ofList_append
      change (String.ofList (['2', '5'] ++ codedDigits times)).utf8ByteSize = _
      rw [happend, String.utf8ByteSize_append, ih, Nat.mul_succ, Nat.add_comm]
      rfl
  have happend : String.ofList (['%'] ++ codedDigits times) =
      "%" ++ String.ofList (codedDigits times) := String.ofList_append
  change (String.ofList (['%'] ++ codedDigits times)).utf8ByteSize = _
  rw [happend, String.utf8ByteSize_append, hdigits, Nat.add_comm]
  rfl

/-- Each time that the text is coded, its percent sign gets the number of a percent sign. -/
theorem encode_codedText (times : Nat) :
    Text.Percent.encode (codedText times) = codedText (times + 1) := by
  let coded : List Char → List Char := fun cs =>
    (cs.flatMap String.utf8EncodeChar).flatMap Text.Percent.encodeByte
  have hdigits : coded (codedDigits times) = codedDigits times := by
    induction times with
    | zero => rfl
    | succ times ih => exact congrArg ('2' :: '5' :: ·) ih
  have hsign : Text.Percent.encodeByte 37 = ['%', '2', '5'] := by
    have hreserved : Text.Percent.isUnreserved 37 = false := by simp [Text.Percent.isUnreserved]
    simp only [Text.Percent.encodeByte, hreserved]
    rfl
  have hcoded : coded ('%' :: codedDigits times) = '%' :: codedDigits (times + 1) :=
    calc coded ('%' :: codedDigits times)
      _ = Text.Percent.encodeByte 37 ++ coded (codedDigits times) := rfl
      _ = '%' :: codedDigits (times + 1) := by rw [hsign, hdigits]; rfl
  rw [Text.Percent.encode, codedText, String.toList_ofList]
  exact congrArg String.ofList hcoded

/-- A call that codes a percent sign so often. -/
def coding : Nat → Expr
  | 0 => .string "%"
  | times + 1 => .call (.name "encodeURIComponent") [coding times] false

theorem Value.text_string (s : String) : (Value.string s).text = s := by
  have hempty : isOverlong "" = false := by decide
  rw [text, textOnto.eq_def]
  simp [hempty]

namespace Eval

/-- A call by the name of a global function that takes one argument, where neither locals nor
helpers have that name. -/
theorem outcome_callGlobal {c : Context} {m m' : Machine} {enter : Call} {name : String}
    {b : Builtin} {e : Expr} {v : Value}
    (hscope : c.scope.lookup? name = some (Globals.function b))
    (hhelper : c.scope.isHelper name = false) (hlocals : m.current = ⟨[[]], [], []⟩)
    (he : (expr (callVia enter) e).outcome c m = (.ok v, m')) (hsame : m'.current = m.current)
    (hcancelled : c.budget.cancelled = none) (htime : m'.ticks + 1 < c.budget.expiry) :
    (expr (callVia enter) (.call (.name name) [e] false)).outcome c m =
      (Native.runBuiltin (callGiven enter) b [v]).outcome c { m' with ticks := m'.ticks + 1 } := by
  have hlookup : (lookup name).outcome c m = (.ok (Globals.function b), m) := by
    simp [lookup, outcome_bind, outcome_lookup?, hlocals, findBinding?, hscope]
  have hargs : (exprs (callVia enter) [e]).outcome c m = (.ok [v], m') := by
    simp [exprs, he, Except.map]
  have hcheck : (checkNamedCall name (Globals.function b) [v]).outcome c m' = (.ok (), m') := by
    simp [checkNamedCall, isLocal, isHelper, outcome_bind, hsame, hlocals, findBinding?, hhelper,
      Globals.function, Value.isCallable]
  have hcall : (callVia enter (Globals.function b) [v]).outcome c m' =
      (Native.runBuiltin (callGiven enter) b [v]).outcome c { m' with ticks := m'.ticks + 1 } := by
    unfold callVia callWith
    rw [outcome_bind, outcome_tick_of_lt c m' hcancelled htime]
    rfl
  unfold expr
  simp only [outcome_bind, hlookup, Bool.false_and, Bool.false_eq_true, if_false, hargs, hcheck,
    hcall]

/-- **A call that codes gives the coded text**, however long it is, and counts one unit of work for
each time. -/
theorem outcome_coding {c : Context} (enter : Call) (times : Nat) {m : Machine}
    (hscope : c.scope.lookup? "encodeURIComponent" = some (Globals.function .encodeUriComponent))
    (hhelper : c.scope.isHelper "encodeURIComponent" = false)
    (hlocals : m.current = ⟨[[]], [], []⟩) (hcancelled : c.budget.cancelled = none)
    (htime : m.ticks + times < c.budget.expiry) :
    (expr (callVia enter) (coding times)).outcome c m =
      (.ok (.string (codedText times)), { m with ticks := m.ticks + times }) := by
  induction times with
  | zero => rfl
  | succ times ih =>
    have hinner := ih (by omega)
    have hcall := outcome_callGlobal hscope hhelper hlocals hinner rfl hcancelled htime
    refine hcall.trans ?_
    have hanswer : argument [Value.string (codedText times)] 0 = .string (codedText times) := rfl
    simp only [Native.runBuiltin, hanswer, Value.text_string, encode_codedText, outcome_pure]
    rfl

/-- So a program ends with the coded text under every limit, if it is given the time. -/
theorem outcome_program_coding {c : Context} (next : Identity) (times : Nat)
    (hscope : c.scope.lookup? "encodeURIComponent" = some (Globals.function .encodeUriComponent))
    (hhelper : c.scope.isHelper "encodeURIComponent" = false)
    (hcancelled : c.budget.cancelled = none) (htime : times + 1 < c.budget.expiry) :
    ((program [.expr (coding times)]).outcome c { next }).1 = .ok (.string (codedText times)) := by
  have hcoding := outcome_coding (m := { next, ticks := 1 })
    (enter (c.limits.callDepth - 1)) times hscope hhelper rfl hcancelled (by dsimp only; omega)
  have hstmt := outcome_expression (m := { next }) hcancelled (by dsimp only; omega) hcoding rfl
  have hhoist : (hoist [.expr (coding times)]).outcome c { next } = (.ok (), { next }) :=
    outcome_hoist_expressions [coding times]
  simp only [program, programWith, programStmts, topCall, outcome_bind, outcome_limits, hhoist,
    hstmt]
  rfl

/-- **Which strings obey the limit.**  A new string is made only if it is within the limit, and
otherwise the step fails at once and leaves the machine as it was.  A string that a binary operator,
a template literal, a method of arrays or a built-in function outside `Builtin.unchecked` makes is
within the limit; so is one that a method of a string within the limit makes or cuts out.  The
functions in `Builtin.unchecked` answer the same under every limit, and programs end with strings
that are longer than any.  Nothing is said of the methods of numbers, dates, truth values, objects
and functions: they write their receivers, however long the texts are. -/
theorem string_limit (c : Context) (m : Machine) :
    (∀ s, c.limits.stringLength < s.utf8ByteSize →
      (newString s).outcome c m = (.error invalidStringLength, m)) ∧
    (∀ op v w s, ((binary op v w).outcome c m).1 = .ok (.string s) →
      s.utf8ByteSize ≤ c.limits.stringLength) ∧
    (∀ depth parts s,
      ((expr (callVia (enter depth)) (.template parts)).outcome c m).1 = .ok (.string s) →
      s.utf8ByteSize ≤ c.limits.stringLength) ∧
    (∀ depth s key args v, s.utf8ByteSize ≤ c.limits.stringLength →
      ((Method.invoke (callVia (enter depth)) (.string s) key args).outcome c m).1 = .ok (some v) →
      ∀ t, v.HasText t → t.utf8ByteSize ≤ c.limits.stringLength) ∧
    (∀ depth id items, ∀ key ∈ Method.makers, ∀ args s,
      ((Method.invoke (callVia (enter depth)) (.array id items) key args).outcome c m).1 =
        .ok (some (.string s)) →
      s.utf8ByteSize ≤ c.limits.stringLength) ∧
    (∀ depth b args s, b ∉ Builtin.fetch :: Builtin.unchecked →
      ((Native.runBuiltin (callGiven (enter depth)) b args).outcome c m).1 = .ok (.string s) →
      s.utf8ByteSize ≤ c.limits.stringLength) ∧
    (∀ b ∈ Builtin.unchecked, ∀ args, ∃ answer : Identity → Except ScriptError Value,
      ∀ call c m, ((Native.runBuiltin call b args).outcome c m).1 = answer m.next) ∧
    (∀ limits next times,
      (runProgram { limits, budget := { limit := times + 1 } } next [.expr (coding times)]).1 =
        .ok (.string (codedText times)) ∧
      (codedText times).utf8ByteSize = 2 * times + 1) := by
  have hpaid : ∀ {x : Eval Value} {s : String}, Pays c x (fun v bytes => v.IsPaid c.limits bytes) →
      (x.outcome c m).1 = .ok (.string s) → s.utf8ByteSize ≤ c.limits.stringLength := by
    intro x s hx h
    obtain ⟨bytes, -, hs⟩ := hx.ofResult h
    exact hs.2
  have hcall := fun depth => StepLogic.callVia ((StepLogic.charging c).enter depth)
  have hgiven := fun depth => StepLogic.callGiven ((StepLogic.charging c).enter depth)
  refine ⟨?_, ?_, ?_, ?_, ?_, ?_, ?_, ?_⟩
  · intro s hlong
    unfold newString
    simp only [outcome_bind, outcome_limits, if_pos hlong, outcome_throw]
  · exact fun op v w s => hpaid (pays_binary op v w)
  · exact fun depth parts s => hpaid (pays_template (hcall depth) parts)
  · intro depth s key args v hs h t ht
    obtain ⟨bytes, -, hmade⟩ := (pays_ofString (hcall depth) s key args).ofResult h
    exact (hmade v rfl).stringLength hs ht
  · intro depth id items key hkey args s h
    obtain ⟨bytes, -, hmade⟩ := (pays_ofArray (hcall depth) _ _ hkey args).ofResult h
    exact (hmade _ rfl).2
  · exact fun depth b args s hb => hpaid (pays_runBuiltin (hgiven depth) hb args)
  · intro b hb args
    let answer : Identity → Except ScriptError Value := fun next =>
      ((Native.runBuiltin (fun _ _ => pure .undefined) b args).outcome { budget := ⟨0, 0, none⟩ }
        { next }).1
    refine ⟨answer, fun call c m => ?_⟩
    simp only [Builtin.unchecked, List.mem_cons, List.not_mem_nil, or_false] at hb
    rcases hb with rfl | rfl | rfl | rfl | rfl | rfl | rfl | rfl | rfl
    · simp only [answer, Native.runBuiltin, outcome_parseJson]
      cases Json.parse (argument args 0).text <;> rfl
    iterate 2 rfl
    · simp only [answer, Native.runBuiltin]
      cases Text.Percent.decode? (argument args 0).text <;> rfl
    iterate 5 rfl
  · intro limits next times
    refine ⟨?_, utf8ByteSize_codedText times⟩
    rw [runProgram, runFrom_eq]
    exact outcome_program_coding next times rfl rfl rfl (by
      change times + 1 < (times + 1) * 1000
      omega)

/-- Under a limit of five bytes a program ends with seven. -/
theorem string_limit_passed :
    let limits : Limits := { stringLength := 5 }
    let c : Context := { limits, budget := { limit := 5000 } }
    (newString "abcdef").outcome c { next := 6 } = (.error invalidStringLength, { next := 6 }) ∧
    ∃ s, (runProgram { limits, budget := { limit := 4 } } 6 [.expr (coding 3)]).1 =
        .ok (.string s) ∧ limits.stringLength < s.utf8ByteSize := by
  intro limits c
  obtain ⟨hnew, -, -, -, -, -, -, hcoding⟩ := string_limit c { next := 6 }
  obtain ⟨hrun, hsize⟩ := hcoding limits 6 3
  exact ⟨hnew "abcdef" (by decide), _, hrun, by rw [hsize]; decide⟩

end Eval
end Stencil.Script
