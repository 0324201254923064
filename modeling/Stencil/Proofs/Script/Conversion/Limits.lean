import Stencil.Config.Basic
import Stencil.Proofs.Script.Conversion.Json
import Stencil.Proofs.Script.Conversion.Text

/-! # The limits of conversions and the limit on heights

A script may build values up to a height that the configuration sets, and a valid configuration sets
none above the number of containers that conversions descend into.  The three count differently: the
height counts containers of all kinds, the conversion to a string counts arrays, and the conversion to
JSON counts the levels of its nodes, on the last of which stands what is no container.  So the text of
a value that a script may build never stops for its nesting, while its JSON may need one level more
than its height (`jsonLevels_le`), and there is none for a value of the greatest height of all with
something in its innermost container (`conversions_of_height`,
`conversions_of_height_greatest`).
-/
namespace Stencil.Script.Value

mutual

theorem arrayLevels_le_height : ∀ v : Value, v.arrayLevels ≤ v.height
  | .array _ ⟨items⟩ => Nat.succ_le_succ (itemsArrayLevels_le items)
  | .undefined | .null | .bool _ | .number _ | .string _ | .object .. | .date _ | .closure ..
  | .native _ => Nat.zero_le _

theorem itemsArrayLevels_le : ∀ items : List Value, itemsArrayLevels items ≤ itemsHeight items
  | [] => Nat.le_refl _
  | v :: rest => by
    have hv := arrayLevels_le_height v
    have hrest := itemsArrayLevels_le rest
    rw [itemsArrayLevels, itemsHeight]
    omega

end

mutual

/-- JSON needs no more than one level below the innermost containers. -/
theorem jsonLevels_le : ∀ v : Value, v.jsonLevels ≤ v.height + 1
  | .array _ ⟨items⟩ => Nat.succ_le_succ (itemsJsonLevels_le items)
  | .object _ members => Nat.succ_le_succ (membersJsonLevels_le members)
  | .undefined | .null | .bool _ | .number _ | .string _ | .date _ | .closure .. | .native _ =>
    Nat.le_add_left _ _

theorem itemsJsonLevels_le : ∀ items : List Value, itemsJsonLevels items ≤ itemsHeight items + 1
  | [] => Nat.zero_le _
  | v :: rest => by
    have hv := jsonLevels_le v
    have hrest := itemsJsonLevels_le rest
    rw [itemsJsonLevels, itemsHeight]
    omega

theorem membersJsonLevels_le : ∀ members : List (String × Value),
    membersJsonLevels members ≤ membersHeight members + 1
  | [] => Nat.zero_le _
  | (_, v) :: rest => by
    have hv := jsonLevels_le v
    have hrest := membersJsonLevels_le rest
    rw [membersJsonLevels, membersHeight]
    split <;> omega

end

/-- A valid configuration lets scripts build nothing with more containers in one another than
conversions descend into. -/
theorem valueDepth_le_of_fault? {c : Config} (h : c.fault? = none) :
    c.limits.valueDepth ≤ maxNesting := by
  unfold Config.fault? at h
  iterate 4
    split at h
    · cases h
  split at h
  · cases h
  · rename_i hdepth
    exact Nat.le_of_not_lt fun hlt => hdepth (.inr hlt)

/-- **What the limit on heights does for conversions.**  Under a valid configuration, the text of a
value within the limit on heights never stops for the nesting of arrays.  Its conversion to JSON
fails for nesting exactly if the limit is the greatest one, the value is that high, and something
other than an omitted member stands in its innermost containers; below that limit, it can only fail
for the number of nodes. -/
theorem conversions_of_height (c : Config) (hc : c.fault? = none) (v : Value)
    (hv : v.height ≤ c.limits.valueDepth) :
    v.text = v.writtenText ∧
    (c.limits.valueDepth < maxNesting → ∀ e, v.toJson = .error e →
      e = tooManyNodes ∧ maxJsonNodes < v.jsonSize) ∧
    (∀ e, v.toJson = .error e → e = tooManyNodes ∧ maxJsonNodes < v.jsonSize ∨
      e = tooDeep maxNesting ∧ v.jsonLevels = maxNesting + 1 ∧ v.height = maxNesting ∧
        c.limits.valueDepth = maxNesting) ∧
    (v.jsonSize ≤ maxJsonNodes → v.jsonLevels = maxNesting + 1 →
      v.toJson = .error (tooDeep maxNesting)) := by
  have hlimit := valueDepth_le_of_fault? hc
  have hlevels := jsonLevels_le v
  have herror (e : ScriptError) (he : v.toJson = .error e) :
      e = tooManyNodes ∧ maxJsonNodes < v.jsonSize ∨
        e = tooDeep maxNesting ∧ v.jsonLevels = maxNesting + 1 ∧ v.height = maxNesting ∧
          c.limits.valueDepth = maxNesting :=
    (toJson_eq_error he).imp_right fun ⟨he, hdeep⟩ => ⟨he, by omega, by omega, by omega⟩
  refine ⟨?_, fun hbelow e he => ?_, herror, fun hsize hdeep => ?_⟩
  · refine text_eq_writtenText (Nat.le_trans ?_ hlimit)
    exact Nat.le_trans (arrayLevels_le_height v) hv
  · exact (herror e he).resolve_right fun ⟨_, _, _, heq⟩ => by omega
  · rcases hx : v.toJson with e | j
    · rcases toJson_eq_error hx with ⟨-, hmany⟩ | ⟨rfl, -⟩
      · omega
      · rfl
    · have := exists_toJson_iff.mp ⟨j, hx⟩
      omega

/-- Arrays in one another, the innermost of them around `null`. -/
def nestedArrays : Nat → Value
  | 0 => .null
  | n + 1 => .array n #[nestedArrays n]

theorem nestedArrays_measures (n : Nat) : (nestedArrays n).height = n ∧
    (nestedArrays n).jsonLevels = n + 1 ∧ (nestedArrays n).jsonSize = n + 1 := by
  induction n with
  | zero => exact ⟨rfl, rfl, rfl⟩
  | succ n ih =>
    obtain ⟨hheight, hlevels, hsize⟩ := ih
    refine ⟨?_, ?_, ?_⟩
    · simp [nestedArrays, itemsHeight, hheight]
    · simp [nestedArrays, jsonLevels, itemsJsonLevels, hlevels]
    · simp [nestedArrays, jsonSize, itemsJsonSize, hsize]

/-- Under the greatest limit there are values within it that conversion finds nested too deep. -/
theorem conversions_of_height_greatest :
    let c : Config := { sandbox := { maxValueDepth := maxNesting } }
    let v := nestedArrays maxNesting
    c.fault? = none ∧ v.height ≤ c.limits.valueDepth ∧ v.text = v.writtenText ∧
      v.toJson = .error (tooDeep maxNesting) := by
  intro c v
  obtain ⟨hheight, hlevels, hsize⟩ := nestedArrays_measures maxNesting
  have hc : c.fault? = none := by decide
  have hv : v.height ≤ c.limits.valueDepth := Nat.le_of_eq hheight
  obtain ⟨htext, -, -, hdeep⟩ := conversions_of_height c hc v hv
  exact ⟨hc, hv, htext, hdeep (by rw [hsize]; decide) hlevels⟩

end Stencil.Script.Value
