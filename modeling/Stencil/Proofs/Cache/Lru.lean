import Stencil.Cache.Lru

/-! # What a bounded cache holds

A cache is asked for what it holds (`Lru.value?`); the stamps, the second index and the counters
decide only what is dropped, and when.  A use of a key leaves what the cache holds as it was
(`value?_get`); whatever a cache holds after something was put into it is that, or was there before
(`value?_insert`).  So **what holds of every entry when it is put in holds of it for as long as it
is there** (`Holds`), whichever keys are dropped on the way.
-/
namespace Stencil.Cache.Lru
variable {K V : Type} [BEq K] [Hashable K]

/-- The value under a key. -/
def value? (c : Lru K V) (key : K) : Option V :=
  c.entries[key]?.map (·.value)

theorem get_fst (c : Lru K V) (key : K) : (c.get key).1 = c.value? key := by
  unfold get value?
  cases c.entries[key]? <;> rfl

/-- A key that is asked for in vain leaves all entries as they are. -/
theorem entries_get_of_none {c : Lru K V} {key : K} (h : (c.get key).1 = none) :
    (c.get key).2.entries = c.entries := by
  unfold get at h ⊢
  cases hentry : c.entries[key]? with
  | none => rfl
  | some entry => simp [hentry] at h

@[simp]
theorem value?_clear (c : Lru K V) (key : K) : c.clear.value? key = none := by
  simp [clear, value?]

variable [LawfulBEq K]

/-- A use of a key changes its stamp only. -/
theorem value?_get (c : Lru K V) (used key : K) : (c.get used).2.value? key = c.value? key := by
  unfold get value?
  cases hused : c.entries[used]? with
  | none => rfl
  | some entry =>
    dsimp only
    rw [Std.HashMap.getElem?_insert]
    split
    · rename_i heq
      rw [← eq_of_beq heq, hused]
      rfl
    · rfl

/-- What is left after a key was removed was there before. -/
theorem value?_remove (c : Lru K V) {removed key : K} {v : V}
    (h : (c.remove removed).value? key = some v) : c.value? key = some v := by
  unfold remove value? at *
  cases hremoved : c.entries[removed]? with
  | none => simpa only [hremoved] using h
  | some entry =>
    simp only [hremoved, Std.HashMap.getElem?_erase] at h
    split at h
    · cases h
    · exact h

/-- What is left after a key was dropped was there before. -/
theorem value?_evict (c : Lru K V) {key : K} {v : V} (h : c.evict.value? key = some v) :
    c.value? key = some v := by
  unfold evict value? at *
  cases holdest : c.order.minEntry? with
  | none => simpa only [holdest] using h
  | some oldest =>
    simp only [holdest, Std.HashMap.getElem?_erase] at h
    split at h
    · cases h
    · exact h

/-- What a cache holds after something was put into it is that, or was there before. -/
theorem value?_insert (c : Lru K V) {put key : K} {w v : V}
    (h : (c.insert put w).value? key = some v) :
    key = put ∧ v = w ∨ c.value? key = some v := by
  unfold insert at h
  split at h
  · exact .inr h
  · dsimp only at h
    rw [value?, Std.HashMap.getElem?_insert] at h
    split at h
    · rename_i heq
      exact .inl ⟨(eq_of_beq heq).symm, (Option.some.inj h).symm⟩
    · have hheld : ({ c with clock := c.clock + 1 }.remove put).value? key = some v := by
        split at h
        · exact value?_evict _ h
        · exact h
      exact .inr (value?_remove { c with clock := c.clock + 1 } hheld)

/-! ## What holds of all entries -/

/-- Every value that the cache holds is as it should be under its key. -/
def Holds (c : Lru K V) (P : K → V → Prop) : Prop :=
  ∀ key v, c.value? key = some v → P key v

variable {c : Lru K V} {P : K → V → Prop}

omit [LawfulBEq K] in
/-- Nothing is held at first. -/
theorem holds_empty (capacity : Nat) : ({ capacity } : Lru K V).Holds P := by
  intro key v h
  simp [value?] at h

omit [LawfulBEq K] in
theorem holds_clear (c : Lru K V) : c.clear.Holds P := fun key _ h =>
  nomatch (value?_clear c key).symm.trans h

theorem Holds.get (h : c.Holds P) (used : K) : (c.get used).2.Holds P := fun key v hv =>
  h key v ((value?_get c used key).symm.trans hv)

omit [LawfulBEq K] in
theorem Holds.hit (h : c.Holds P) {key : K} {v : V} (hv : (c.get key).1 = some v) : P key v :=
  h key v ((get_fst c key).symm.trans hv)

theorem Holds.insert (h : c.Holds P) {key : K} {v : V} (hv : P key v) :
    (c.insert key v).Holds P := by
  intro key' v' hheld
  rcases value?_insert c hheld with ⟨rfl, rfl⟩ | hheld
  · exact hv
  · exact h key' v' hheld

end Stencil.Cache.Lru
