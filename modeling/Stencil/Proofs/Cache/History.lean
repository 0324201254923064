import Stencil.Proofs.Cache.Recency

/-! # A cache and its history

Whatever was done to a cache, it lists the recency list of its history (`Lru.lists_ofHistory`).
What it answers, what it drops and what it counts can then be told from the history alone, with no
table and no index (`Lru.Follows`): a key has the value that was last put under it unless it was
lost since, and what a new key drops from a full cache is the key whose last use is the oldest.
-/
namespace Stencil.Cache
variable {K V : Type} [BEq K]

/-- What is done to a cache. -/
inductive Use (K V : Type) where
  | insert (key : K) (value : V)
  | get (key : K)
  | clear

/-- Whether a key is asked for. -/
def Use.isGet : Use K V → Bool
  | .get _ => true
  | _ => false

namespace Lru
variable [Hashable K]

/-- The cache after one use. -/
def after (c : Lru K V) : Use K V → Lru K V
  | .insert key value => c.insert key value
  | .get key => (c.get key).2
  | .clear => c.clear

/-- The cache that a history leaves.  A history has its last use in front. -/
def ofHistory (capacity : Nat) : List (Use K V) → Lru K V
  | [] => { capacity }
  | use :: earlier => (ofHistory capacity earlier).after use

end Lru

/-! ## What a history tells -/

namespace History

/-- The entries that are left, that used last in front. -/
def recency (capacity : Nat) : List (Use K V) → List (K × V)
  | [] => []
  | .insert key value :: earlier => Recency.put capacity key value (recency capacity earlier)
  | .get key :: earlier => Recency.touch key (recency capacity earlier)
  | .clear :: _ => []

/-- The entries that made room for others. -/
def evicted (capacity : Nat) : List (Use K V) → List (K × V)
  | [] => []
  | .insert key _ :: earlier =>
    Recency.displaced capacity key (recency capacity earlier) ++ evicted capacity earlier
  | .get _ :: earlier => evicted capacity earlier
  | .clear :: earlier => evicted capacity earlier

/-- The value that was last put under a key. -/
def lastInserted? (key : K) : List (Use K V) → Option V
  | [] => none
  | .insert k value :: earlier => if k == key then some value else lastInserted? key earlier
  | .get _ :: earlier => lastInserted? key earlier
  | .clear :: earlier => lastInserted? key earlier

/-- Whether a key was dropped after it was last put in: another key took its place, all was dropped,
or there was never a place for it. -/
def lost (capacity : Nat) (key : K) : List (Use K V) → Bool
  | [] => false
  | .insert k _ :: earlier =>
    if k == key then capacity == 0
    else (Recency.displaced capacity k (recency capacity earlier)).any (·.1 == key) ||
      lost capacity key earlier
  | .get _ :: earlier => lost capacity key earlier
  | .clear :: _ => true

/-- Whether a key is used: a value is put under it, or it is asked for and found. -/
def isUsed [Hashable K] (capacity : Nat) (key : K) (earlier : List (Use K V)) : Use K V → Bool
  | .insert k _ => k == key
  | .get k => k == key && ((Lru.ofHistory capacity earlier).get k).1.isSome
  | .clear => false

/-- The time of the last use of a key, and zero if it was never used. -/
def lastUse [Hashable K] (capacity : Nat) (key : K) : List (Use K V) → Nat
  | [] => 0
  | use :: earlier =>
    if isUsed capacity key earlier use then earlier.length + 1 else lastUse capacity key earlier

variable {capacity : Nat} {key : K} {history : List (Use K V)}

theorem lastUse_le_length [Hashable K] : lastUse capacity key history ≤ history.length := by
  induction history with
  | nil => exact Nat.le_refl 0
  | cons use earlier ih =>
    rw [lastUse, List.length_cons]
    split
    · exact Nat.le_refl _
    · exact Nat.le_succ_of_le ih

variable [LawfulBEq K]

theorem length_recency_le (capacity : Nat) (history : List (Use K V)) :
    (recency capacity history).length ≤ capacity := by
  induction history with
  | nil => exact Nat.zero_le _
  | cons use earlier ih =>
    cases use with
    | insert key value => exact Recency.length_put_le
    | get key => exact Nat.le_trans Recency.length_touch_le ih
    | clear => exact Nat.zero_le _

/-- A use drops one key at most. -/
theorem length_evicted_le : (evicted capacity history).length ≤ history.length := by
  induction history with
  | nil => exact Nat.le_refl 0
  | cons use earlier ih =>
    cases use with
    | insert key value =>
      have hrest := Recency.length_without_le key (recency capacity earlier)
      have hsize := length_recency_le capacity earlier
      rw [evicted, List.length_append, Recency.displaced, List.length_drop, List.length_cons]
      omega
    | get key => exact Nat.le_succ_of_le ih
    | clear => exact Nat.le_succ_of_le ih

end History

namespace Lru
variable [Hashable K]

theorem capacity_after (c : Lru K V) (use : Use K V) : (c.after use).capacity = c.capacity := by
  cases use with
  | insert key value =>
    obtain ⟨entries, order, clock, evictions, -, h⟩ := c.insert_eq_with key value
    rw [after, h]
  | get key =>
    simp only [after, get]
    split <;> rfl
  | clear => rfl

/-- The capacity of a cache is that which it was given. -/
theorem capacity_ofHistory {capacity : Nat} {history : List (Use K V)} :
    (ofHistory capacity history).capacity = capacity := by
  induction history with
  | nil => rfl
  | cons use earlier ih => exact (capacity_after _ use).trans ih

theorem length_recency_le_capacity [LawfulBEq K] {capacity : Nat} {history : List (Use K V)} :
    (History.recency capacity history).length ≤ (ofHistory capacity history).capacity := by
  rw [capacity_ofHistory]
  exact History.length_recency_le capacity history

/-- Every question is a hit or a miss, and nothing else is. -/
theorem hits_add_misses_after (c : Lru K V) (use : Use K V) :
    (c.after use).hits + (c.after use).misses =
      c.hits + c.misses + if use.isGet then 1 else 0 := by
  cases use with
  | insert key value =>
    obtain ⟨entries, order, clock, evictions, -, h⟩ := c.insert_eq_with key value
    rw [after, h]
    rfl
  | get key =>
    simp only [after, get]
    split
    · exact Nat.add_right_comm ..
    · rfl
  | clear => rfl

theorem hits_add_misses_ofHistory (capacity : Nat) (history : List (Use K V)) :
    (ofHistory capacity history).hits + (ofHistory capacity history).misses =
      history.countP Use.isGet := by
  induction history with
  | nil => rfl
  | cons use earlier ih => rw [ofHistory, hits_add_misses_after, ih, List.countP_cons]

/-- A use draws one stamp at most. -/
theorem clock_after_le (c : Lru K V) (use : Use K V) : (c.after use).clock ≤ c.clock + 1 := by
  cases use with
  | insert key value =>
    obtain ⟨entries, order, clock, evictions, hclock, h⟩ := c.insert_eq_with key value
    rw [after, h]
    exact hclock
  | get key =>
    simp only [after, get]
    split
    · exact Nat.le_refl _
    · exact Nat.le_succ _
  | clear => exact Nat.le_succ _

theorem clock_ofHistory_le (capacity : Nat) (history : List (Use K V)) :
    (ofHistory capacity history).clock ≤ history.length := by
  induction history with
  | nil => exact Nat.le_refl 0
  | cons use earlier ih => exact Nat.le_trans (clock_after_le _ use) (Nat.succ_le_succ ih)

variable [LawfulBEq K]

/-- **A cache lists the recency list of its history.** -/
theorem lists_ofHistory (capacity : Nat) (history : List (Use K V)) :
    (ofHistory capacity history).Lists (History.recency capacity history) := by
  induction history with
  | nil => exact Lists.nil rfl rfl
  | cons use earlier ih =>
    cases use with
    | insert key value =>
      have hput := (ih.insert length_recency_le_capacity key value).1
      rwa [capacity_ofHistory] at hput
    | get key => exact ih.get key
    | clear => exact Lists.nil rfl rfl

/-- What is counted as evicted is what made room for others. -/
theorem evictions_ofHistory (capacity : Nat) (history : List (Use K V)) :
    (ofHistory capacity history).evictions = (History.evicted capacity history).length := by
  induction history with
  | nil => rfl
  | cons use earlier ih =>
    cases use with
    | insert key value =>
      have hlists := lists_ofHistory capacity earlier
      have hput := (hlists.insert length_recency_le_capacity key value).2
      rw [capacity_ofHistory, ih] at hput
      rw [ofHistory, after, hput, History.evicted, List.length_append, Nat.add_comm]
    | get key =>
      rw [History.evicted, ← ih, ofHistory, after, get]
      split <;> rfl
    | clear => exact ih

end Lru

namespace History
variable [Hashable K] [LawfulBEq K] {capacity : Nat} {key : K} {history : List (Use K V)}

/-- A key that was not lost since it was last put in is listed with its value. -/
theorem lookup_recency : (recency capacity history).lookup key =
    if lost capacity key history then none else lastInserted? key history := by
  induction history with
  | nil => rfl
  | cons use earlier ih =>
    cases use with
    | insert k value =>
      have hnodup := (Lru.lists_ofHistory capacity earlier).nodup
      rw [recency, lost, lastInserted?,
        Recency.lookup_put (length_recency_le capacity earlier) hnodup, ih]
      by_cases hkey : k = key
      · subst hkey
        by_cases hcapacity : capacity = 0 <;> simp [hcapacity]
      · rw [beq_false_of_ne hkey, beq_false_of_ne (Ne.symm hkey)]
        cases (Recency.displaced capacity k (recency capacity earlier)).any (·.1 == key) <;> simp
    | get k => rw [recency, Recency.lookup_touch, ih, lost, lastInserted?]
    | clear => rfl

section LastUse
variable {use : Use K V} {earlier : List (Use K V)} {l : List (K × V)}

omit [LawfulBEq K] in
theorem lastUse_of_used (h : isUsed capacity key earlier use = true) :
    lastUse capacity key (use :: earlier) = earlier.length + 1 := if_pos h

omit [LawfulBEq K] in
theorem lastUse_of_not_used (h : isUsed capacity key earlier use = false) :
    lastUse capacity key (use :: earlier) = lastUse capacity key earlier := if_neg (by simp [h])

/-- The key that is used comes to the front, and the others keep their order. -/
theorem pairwise_push {value : V} (hused : isUsed capacity key earlier use = true)
    (hothers : ∀ k, k ≠ key → isUsed capacity k earlier use = false)
    (h : l.Pairwise fun newer older =>
      lastUse capacity older.1 earlier < lastUse capacity newer.1 earlier) :
    (Recency.push key value l).Pairwise fun newer older =>
      lastUse capacity older.1 (use :: earlier) < lastUse capacity newer.1 (use :: earlier) := by
  have hkept : ∀ p ∈ Recency.without key l,
      lastUse capacity p.1 (use :: earlier) = lastUse capacity p.1 earlier := fun p hp =>
    lastUse_of_not_used (hothers p.1 (Recency.mem_without.mp hp).2)
  refine List.pairwise_cons.mpr ⟨fun p hp => ?_, ?_⟩
  · rw [hkept p hp, lastUse_of_used hused]
    exact Nat.lt_succ_of_le lastUse_le_length
  · refine (h.filter _).imp_of_mem fun {newer older} hnewer holder hlt => ?_
    rw [hkept newer hnewer, hkept older holder]
    exact hlt

end LastUse

/-- The entries are listed by the time of their last use. -/
theorem pairwise_recency : (recency capacity history).Pairwise fun newer older =>
    lastUse capacity older.1 history < lastUse capacity newer.1 history := by
  induction history with
  | nil => exact List.Pairwise.nil
  | cons use earlier ih =>
    cases use with
    | insert key value =>
      refine (pairwise_push ?_ (fun k hk => ?_) ih).sublist (List.take_sublist capacity _)
      · exact BEq.rfl
      · exact beq_false_of_ne (Ne.symm hk)
    | get key =>
      have hget : ((Lru.ofHistory capacity earlier).get key).1 =
          (recency capacity earlier).lookup key := by
        rw [Lru.get_fst, (Lru.lists_ofHistory capacity earlier).value?_eq_lookup]
      rw [recency, Recency.touch]
      cases hkey : (recency capacity earlier).lookup key with
      | none =>
        -- a miss is no use of any key
        have hunused : ∀ k, isUsed capacity k earlier (.get key) = false := by
          intro k
          rw [isUsed, hget, hkey, Option.isSome_none, Bool.and_false]
        simpa only [lastUse_of_not_used (hunused _)] using ih
      | some value =>
        refine pairwise_push ?_ (fun k hk => ?_) ih
        · rw [isUsed, hget, hkey, BEq.rfl]
          rfl
        · rw [isUsed, beq_false_of_ne (Ne.symm hk), Bool.false_and]
    | clear => exact List.Pairwise.nil

end History

/-! ## What a cache does, told from its history -/

namespace Lru
variable [Hashable K]

/-- To put the value under the key drops these keys, counts them, and drops no other one. -/
def Drops (c : Lru K V) (key : K) (value : V) (dropped : List K) : Prop :=
  (c.insert key value).evictions = c.evictions + dropped.length ∧
  ∀ other, other ≠ key →
    (c.insert key value).value? other = if dropped.contains other then none else c.value? other

theorem Lists.drops [LawfulBEq K] {c : Lru K V} {l : List (K × V)} (h : c.Lists l)
    (hsize : l.length ≤ c.capacity) (key : K) (value : V) :
    c.Drops key value ((Recency.displaced c.capacity key l).map Prod.fst) := by
  obtain ⟨hput, hevictions⟩ := h.insert hsize key value
  refine ⟨by rw [hevictions, List.length_map], fun other hother => ?_⟩
  have hcontains : ((Recency.displaced c.capacity key l).map Prod.fst).contains other =
      (Recency.displaced c.capacity key l).any (·.1 == other) := by
    rw [List.contains_eq_any_beq, List.any_map]
    exact congrArg _ (funext fun p => Bool.beq_comm)
  rw [hput.value?_eq_lookup, h.value?_eq_lookup, Recency.lookup_put hsize h.nodup,
    beq_false_of_ne hother, hcontains]
  rfl

/-- A new key in a full cache drops the last key of the list, which is the one of the oldest use. -/
theorem Lists.drops_oldest [LawfulBEq K] {c : Lru K V} {l : List (K × V)} (h : c.Lists l)
    {lastUse : K → Nat} (hordered : l.Pairwise fun newer older => lastUse older.1 < lastUse newer.1)
    (hfull : l.length = c.capacity) (hpos : 0 < c.capacity) {key : K}
    (hfresh : c.value? key = none) (value : V) :
    ∃ oldest, (c.value? oldest).isSome ∧ c.Drops key value [oldest] ∧
      ∀ other, (c.value? other).isSome → other ≠ oldest → lastUse oldest < lastUse other := by
  have hdrops := h.drops (Nat.le_of_eq hfull) key value
  have hunlisted := h.value?_eq_none_iff.mp hfresh
  rcases List.eq_nil_or_concat l with rfl | ⟨init, ⟨oldest, v⟩, rfl⟩
  · exact absurd hfull (Nat.ne_of_lt hpos)
  rw [List.concat_eq_append] at *
  rw [← hfull, Recency.displaced_concat hunlisted] at hdrops
  have hlisted : (oldest, v) ∈ init ++ [(oldest, v)] :=
    List.mem_append_right init (List.mem_singleton_self _)
  refine ⟨oldest, Option.isSome_of_eq_some ((h.values oldest v).mpr hlisted), hdrops, ?_⟩
  intro other hother hne
  obtain ⟨w, hw⟩ := Option.isSome_iff_exists.mp hother
  rcases List.mem_append.mp ((h.values other w).mp hw) with hnewer | hlast
  · exact (List.pairwise_append.mp hordered).2.2 _ hnewer _ (List.mem_singleton_self _)
  · cases List.mem_singleton.mp hlast
    exact absurd rfl hne

/-- The cache does what its history says. -/
structure Follows (c : Lru K V) (capacity : Nat) (history : List (Use K V)) : Prop where
  /-- The table and the index are inverse to each other, and give the recency list. -/
  lists : c.Lists (History.recency capacity history)
  /-- A key has the value that was last put under it, unless it was lost since. -/
  answers : ∀ key, (c.get key).1 =
    if History.lost capacity key history then none else History.lastInserted? key history
  /-- A question that finds nothing moves nothing. -/
  misses : ∀ key, (c.get key).1 = none →
    (c.get key).2.entries = c.entries ∧ (c.get key).2.order = c.order
  /-- A key that is there is put in again without loss. -/
  again : ∀ key value, (c.value? key).isSome → c.Drops key value []
  /-- While there is room, nothing is dropped. -/
  room : ∀ key value, c.size < capacity → c.Drops key value []
  /-- A new key in a full cache drops the key whose last use is the oldest. -/
  full : ∀ key value, c.value? key = none → c.size = capacity → 0 < capacity →
    ∃ oldest, (c.value? oldest).isSome ∧ c.Drops key value [oldest] ∧
      ∀ other, (c.value? other).isSome → other ≠ oldest →
        History.lastUse capacity oldest history < History.lastUse capacity other history
  /-- A cache without capacity takes nothing in. -/
  closed : capacity = 0 → ∀ key value, c.insert key value = c
  size_le : c.size ≤ capacity
  gets : c.hits + c.misses = history.countP Use.isGet
  evictions : c.evictions = (History.evicted capacity history).length
  /-- No counter is ahead of the number of uses. -/
  bounded : c.clock ≤ history.length ∧ c.evictions ≤ history.length

/-- **A cache follows its history**, whatever its capacity and whatever was done to it. -/
theorem follows_ofHistory [LawfulBEq K] (capacity : Nat) (history : List (Use K V)) :
    (ofHistory capacity history).Follows capacity history := by
  have hlists := lists_ofHistory capacity history
  have hcapacity : (ofHistory capacity history).capacity = capacity := capacity_ofHistory
  constructor
  case lists => exact hlists
  case answers =>
    intro key
    rw [get_fst, hlists.value?_eq_lookup, History.lookup_recency]
  case misses =>
    intro key hmiss
    unfold get at hmiss ⊢
    split at hmiss
    · cases hmiss
    · exact ⟨rfl, rfl⟩
  case again =>
    intro key value hheld
    obtain ⟨v, hv⟩ := Option.isSome_iff_exists.mp hheld
    rw [hlists.value?_eq_lookup] at hv
    have hshort := Nat.lt_of_lt_of_le (Recency.length_without_lt hv) length_recency_le_capacity
    have hdrops := hlists.drops length_recency_le_capacity key value
    rwa [Recency.displaced_eq_nil hshort] at hdrops
  case room =>
    intro key value hroom
    rw [hlists.size_eq] at hroom
    have hshort := Nat.lt_of_le_of_lt (Recency.length_without_le key _)
      (Nat.lt_of_lt_of_eq hroom hcapacity.symm)
    have hdrops := hlists.drops length_recency_le_capacity key value
    rwa [Recency.displaced_eq_nil hshort] at hdrops
  case full =>
    intro key value hfresh hfull hpos
    rw [hlists.size_eq] at hfull
    exact hlists.drops_oldest History.pairwise_recency (hfull.trans hcapacity.symm)
      (hcapacity.symm ▸ hpos) hfresh value
  case closed =>
    intro hzero key value
    exact if_pos (hcapacity.trans hzero)
  case size_le => exact hlists.size_eq ▸ History.length_recency_le capacity history
  case gets => exact hits_add_misses_ofHistory capacity history
  case evictions => exact evictions_ofHistory capacity history
  case bounded =>
    exact ⟨clock_ofHistory_le capacity history,
      evictions_ofHistory capacity history ▸ History.length_evicted_le⟩

/-- A key that was used again outlives one that was not: the second is lost and counted when a third
key is put into a cache of two. -/
theorem follows_ofHistory_two :
    let history : List (Use String Nat) :=
      [.insert "c" 3, .get "a", .get "d", .insert "b" 2, .insert "a" 1]
    (ofHistory 2 history).Follows 2 history ∧ ((ofHistory 2 history).get "a").1 = some 1 ∧
      ((ofHistory 2 history).get "b").1 = none ∧ (ofHistory 2 history).evictions = 1 ∧
      (ofHistory 2 history).hits + (ofHistory 2 history).misses = 2 := by
  intro history
  have h := follows_ofHistory 2 history
  refine ⟨h, (h.answers "a").trans ?_, (h.answers "b").trans ?_, h.evictions.trans ?_,
    h.gets.trans ?_⟩ <;> decide

end Lru
end Stencil.Cache
