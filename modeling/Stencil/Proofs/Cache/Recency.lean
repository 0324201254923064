import Mathlib.Data.List.Nodup
import Stencil.Proofs.Cache.Lru

/-! # The order in which a cache drops its entries

The entries of a cache form a list in the order of their last use, that used last in front: the
**recency list** of the cache.  A key that is put in comes to the front, a key that is found comes
to the front, and the list is cut to the capacity of the cache (`Recency.put`, `Recency.touch`).

A cache keeps no such list.  It has a table of entries, each with the stamp of its last use, and an
index from stamps to keys.  `Lru.Lists` says that the two are inverse to each other and that, read
in the order of stamps, they give the list.  Here is what every operation makes of a listed cache.
-/
namespace Stencil.Cache

/-! ## Indices by stamps -/

section Index
open Std
variable {K : Type} {t : TreeMap Nat K} {stamp : Nat} {key : K}

/-- The entry with the least stamp stands first. -/
theorem minEntry?_eq_head? (t : TreeMap Nat K) : t.minEntry? = t.toList.head? := by
  have hordered := t.inner.wf.ordered
  have hmin : t.minEntry? = t.inner.inner.minEntry?.map fun e => (e.1, e.2) :=
    DTreeMap.Internal.Impl.Const.minEntry?_eq_minEntry?
  have hlist : t.toList = t.inner.inner.toListModel.map fun e => (e.1, e.2) :=
    DTreeMap.Internal.Impl.Const.toList_eq_toListModel_map
  rw [hmin, hlist, DTreeMap.Internal.Impl.minEntry?_eq_minEntry? hordered,
    Internal.List.minEntry?_eq_head? hordered, List.head?_map]

theorem pairwise_toList (t : TreeMap Nat K) : t.toList.Pairwise fun a b => a.1 < b.1 :=
  t.ordered_keys_toList.imp fun h => Nat.compare_eq_lt.mp h

/-- A list in the order of stamps is fixed by its members. -/
theorem toList_eq_of_mem {l : List (Nat × K)} (hl : l.Pairwise fun a b => a.1 < b.1)
    (hmem : ∀ p, p ∈ t.toList ↔ p ∈ l) : t.toList = l := by
  have hnodup {l : List (Nat × K)} (h : l.Pairwise fun a b => a.1 < b.1) : l.Nodup :=
    h.imp fun {a b} (hlt : a.1 < b.1) (heq : a = b) => Nat.lt_irrefl a.1 (heq ▸ hlt)
  refine List.Perm.eq_of_pairwise (fun a b _ _ hab hba => absurd hab (Nat.lt_asymm hba))
    (pairwise_toList t) hl ?_
  exact (List.perm_ext_iff_of_nodup (hnodup (pairwise_toList t)) (hnodup hl)).mpr hmem

/-- A stamp later than all others comes last. -/
theorem toList_insert (h : ∀ p ∈ t.toList, p.1 < stamp) :
    (t.insert stamp key).toList = t.toList ++ [(stamp, key)] := by
  refine toList_eq_of_mem (List.pairwise_append.mpr
    ⟨pairwise_toList t, List.pairwise_singleton _ _, fun a ha b hb => ?_⟩) fun p => ?_
  · rw [List.mem_singleton.mp hb]
    exact h a ha
  · obtain ⟨m, k⟩ := p
    rw [TreeMap.mem_toList_iff_getElem?_eq_some, TreeMap.getElem?_insert, List.mem_append,
      TreeMap.mem_toList_iff_getElem?_eq_some, List.mem_singleton]
    by_cases hm : stamp = m
    · subst hm
      have hfree : t[stamp]? = none := by
        cases hk : t[stamp]? with
        | none => rfl
        | some k =>
          have hlt := h (stamp, k) (TreeMap.mem_toList_iff_getElem?_eq_some.mpr hk)
          exact absurd hlt (Nat.lt_irrefl stamp)
      simp [hfree, eq_comm]
    · simp [hm, Ne.symm hm]

theorem toList_erase : (t.erase stamp).toList = t.toList.filter fun p => p.1 != stamp := by
  refine toList_eq_of_mem ((pairwise_toList t).filter _) fun p => ?_
  obtain ⟨m, k⟩ := p
  rw [TreeMap.mem_toList_iff_getElem?_eq_some, TreeMap.getElem?_erase, List.mem_filter,
    TreeMap.mem_toList_iff_getElem?_eq_some]
  by_cases hm : stamp = m
  · simp [hm]
  · simp [hm, Ne.symm hm]

end Index

/-! ## Recency lists -/

namespace Recency
variable {K V : Type} [BEq K]

/-- The list without a key. -/
def without (key : K) (l : List (K × V)) : List (K × V) :=
  l.filter fun p => p.1 != key

/-- The list with an entry in front, and no other one of its key. -/
def push (key : K) (value : V) (l : List (K × V)) : List (K × V) :=
  (key, value) :: without key l

/-- The list after a value was put under a key: it is cut to its capacity. -/
def put (capacity : Nat) (key : K) (value : V) (l : List (K × V)) : List (K × V) :=
  (push key value l).take capacity

/-- The entries that find no place beside a key that is put in. -/
def displaced (capacity : Nat) (key : K) (l : List (K × V)) : List (K × V) :=
  (without key l).drop (capacity - 1)

/-- The list after a key was asked for: if it is there, it comes to the front. -/
def touch (key : K) (l : List (K × V)) : List (K × V) :=
  match l.lookup key with
  | some value => push key value l
  | none => l

variable {key : K} {value : V} {l : List (K × V)}

theorem map_fst_without (key : K) (l : List (K × V)) :
    (without key l).map Prod.fst = (l.map Prod.fst).filter fun k => k != key := by
  rw [without, List.filter_map]
  rfl

theorem length_without_le (key : K) (l : List (K × V)) : (without key l).length ≤ l.length :=
  List.length_filter_le _ l

theorem length_put_le {capacity : Nat} : (put capacity key value l).length ≤ capacity :=
  List.length_take_le _ _

theorem put_eq_cons {capacity : Nat} (hcapacity : capacity ≠ 0) :
    put capacity key value l = (key, value) :: (without key l).take (capacity - 1) :=
  List.take_cons (Nat.pos_of_ne_zero hcapacity)

/-- No entry has to go while the others leave one place free. -/
theorem displaced_eq_nil {capacity : Nat} (h : (without key l).length < capacity) :
    displaced capacity key l = [] :=
  List.drop_of_length_le (Nat.le_sub_one_of_lt h)

theorem nodup_without (h : (l.map Prod.fst).Nodup) : ((without key l).map Prod.fst).Nodup :=
  map_fst_without key l ▸ h.filter _

variable [LawfulBEq K]

theorem mem_without {p : K × V} : p ∈ without key l ↔ p ∈ l ∧ p.1 ≠ key := by
  simp [without]

/-- A list without a key that it does not hold is the same list. -/
theorem without_of_forall (h : ∀ p ∈ l, p.1 ≠ key) : without key l = l :=
  List.filter_eq_self.mpr fun p hp => bne_iff_ne.mpr (h p hp)

/-- Where each key stands once, a value is found under a key if the two are listed together. -/
theorem lookup_eq_some_iff (hl : (l.map Prod.fst).Nodup) :
    l.lookup key = some value ↔ (key, value) ∈ l := by
  induction l with
  | nil => simp
  | cons p l ih =>
    obtain ⟨k, v⟩ := p
    obtain ⟨hk, hl⟩ := List.nodup_cons.mp hl
    rw [List.lookup_cons, List.mem_cons]
    by_cases hkey : key = k
    · subst hkey
      have hfree : (key, value) ∉ l := fun h => hk (List.mem_map.mpr ⟨_, h, rfl⟩)
      simp [hfree, eq_comm]
    · simp [beq_false_of_ne hkey, hkey, ih hl]

/-- Nothing else is found when an entry goes away. -/
theorem lookup_without {k : K} (hne : k ≠ key) : (without key l).lookup k = l.lookup k := by
  induction l with
  | nil => rfl
  | cons p l ih =>
    obtain ⟨k', v⟩ := p
    by_cases hkey : k' = key
    · have hdrop : without key ((k', v) :: l) = without key l :=
        List.filter_cons_of_neg (by simpa using hkey)
      have hmiss : (k == k') = false := beq_false_of_ne (hkey ▸ hne)
      rw [hdrop, ih, List.lookup_cons, hmiss]
    · have hkeep : without key ((k', v) :: l) = (k', v) :: without key l :=
        List.filter_cons_of_pos (bne_iff_ne.mpr hkey)
      rw [hkeep, List.lookup_cons, List.lookup_cons, ih]

theorem lookup_push {k : K} :
    (push key value l).lookup k = if k == key then some value else l.lookup k := by
  rw [push, List.lookup_cons]
  by_cases hkey : k = key
  · rw [hkey, BEq.rfl]
    rfl
  · rw [beq_false_of_ne hkey, lookup_without hkey]
    rfl

/-- A key that was asked for has the value that it had. -/
theorem lookup_touch {k : K} : (touch key l).lookup k = l.lookup k := by
  unfold touch
  split
  · rename_i value hvalue
    rw [lookup_push]
    split
    · rename_i hkey
      rw [eq_of_beq hkey, hvalue]
    · rfl
  · rfl

theorem length_without_lt (h : l.lookup key = some value) :
    (without key l).length < l.length := by
  obtain ⟨newer, older, rfl, -⟩ := List.lookup_eq_some_iff.mp h
  refine List.length_filter_lt_length_iff_exists.mpr ⟨(key, value), ?_, ?_⟩
  · exact List.mem_append_right newer List.mem_cons_self
  · simp

theorem length_touch_le : (touch key l).length ≤ l.length := by
  unfold touch
  split
  · rename_i value hvalue
    exact Nat.succ_le_of_lt (length_without_lt hvalue)
  · exact Nat.le_refl _

/-- In a full list, a new key takes the place of the last one. -/
theorem displaced_concat {p : K × V} (h : ∀ q ∈ l ++ [p], q.1 ≠ key) :
    displaced (l ++ [p]).length key (l ++ [p]) = [p] := by
  rw [displaced, without_of_forall h, List.length_append, List.length_singleton,
    Nat.add_sub_cancel, List.drop_left]

/-- What is cut off is not found any more, and all else is. -/
theorem lookup_take (hl : (l.map Prod.fst).Nodup) (n : Nat) :
    (l.take n).lookup key =
      if (l.drop n).any (·.1 == key) then none else l.lookup key := by
  have hdisjoint : ∀ a ∈ l.take n, ∀ b ∈ l.drop n, a.1 ≠ b.1 := by
    rw [← List.take_append_drop n l, List.map_append] at hl
    intro a ha b hb
    exact (List.nodup_append.mp hl).2.2 a.1 (List.mem_map_of_mem ha) b.1 (List.mem_map_of_mem hb)
  split
  · rename_i hcut
    obtain ⟨b, hb, hkey⟩ := List.any_eq_true.mp hcut
    refine List.lookup_eq_none_iff.mpr fun a ha => bne_iff_ne.mpr ?_
    rw [← eq_of_beq hkey]
    exact (hdisjoint a ha b hb).symm
  · rename_i hcut
    have hrest : (l.drop n).lookup key = none := by
      refine List.lookup_eq_none_iff.mpr fun b hb => bne_iff_ne.mpr ?_
      rintro rfl
      exact hcut (List.any_eq_true.mpr ⟨b, hb, BEq.rfl⟩)
    calc (l.take n).lookup key
      _ = ((l.take n).lookup key).or ((l.drop n).lookup key) := by rw [hrest, Option.or_none]
      _ = l.lookup key := by rw [← List.lookup_append, List.take_append_drop]

/-- After a value was put under a key, that key has it, if there is a place at all, and the
displaced keys have none. -/
theorem lookup_put {capacity : Nat} {k : K} (hsize : l.length ≤ capacity)
    (hl : (l.map Prod.fst).Nodup) :
    (put capacity key value l).lookup k =
      if k == key then if capacity = 0 then none else some value
      else if (displaced capacity key l).any (·.1 == k) then none else l.lookup k := by
  by_cases hcapacity : capacity = 0
  · have hnil : l = [] := List.eq_nil_of_length_eq_zero (Nat.le_zero.mp (hcapacity ▸ hsize))
    subst hcapacity hnil
    simp [put, displaced, without]
  · rw [if_neg hcapacity, put_eq_cons hcapacity, List.lookup_cons]
    by_cases hkey : k = key
    · rw [hkey, BEq.rfl]
      rfl
    · rw [beq_false_of_ne hkey, lookup_take (nodup_without hl), lookup_without hkey]
      rfl

end Recency

namespace Lru
variable {K V : Type} [BEq K] [Hashable K]

/-- The cache with an entry that is used now. -/
def front (c : Lru K V) (key : K) (value : V) : Lru K V :=
  { c with
    entries := c.entries.insert key ⟨value, c.clock⟩
    order := c.order.insert c.clock key
    clock := c.clock + 1 }

/-- To remove a key changes the table and the index only. -/
theorem remove_eq_with (c : Lru K V) (key : K) :
    ∃ entries order, c.remove key = { c with entries, order } := by
  unfold remove
  split
  · exact ⟨_, _, rfl⟩
  · exact ⟨_, _, rfl⟩

theorem capacity_remove (c : Lru K V) (key : K) : (c.remove key).capacity = c.capacity := by
  obtain ⟨entries, order, h⟩ := c.remove_eq_with key
  rw [h]

theorem clock_remove (c : Lru K V) (key : K) : (c.remove key).clock = c.clock := by
  obtain ⟨entries, order, h⟩ := c.remove_eq_with key
  rw [h]

theorem evictions_remove (c : Lru K V) (key : K) : (c.remove key).evictions = c.evictions := by
  obtain ⟨entries, order, h⟩ := c.remove_eq_with key
  rw [h]

/-- The list holds the entries of the cache, that used last in front; the table and the index of the
cache are inverse to each other, and no stamp is ahead of the clock. -/
structure Lists (c : Lru K V) (l : List (K × V)) : Prop where
  inverse : ∀ (stamp : Nat) (key : K),
    c.order[stamp]? = some key ↔ ∃ value, c.entries[key]? = some ⟨value, stamp⟩
  past : ∀ (key : K) (entry : Entry V), c.entries[key]? = some entry → entry.stamp < c.clock
  keys : c.order.toList.map Prod.snd = (l.map Prod.fst).reverse
  values : ∀ (key : K) (v : V), c.value? key = some v ↔ (key, v) ∈ l

namespace Lists
variable {c d : Lru K V} {l : List (K × V)} {key : K} {value : V}

/-- Only the table, the index and the clock matter. -/
theorem congr (h : c.Lists l) (hentries : ∀ key : K, d.entries[key]? = c.entries[key]?)
    (horder : d.order = c.order) (hclock : d.clock = c.clock) : d.Lists l where
  inverse := by simpa only [hentries, horder] using h.inverse
  past := by simpa only [hentries, hclock] using h.past
  keys := horder ▸ h.keys
  values := by simpa only [value?, hentries] using h.values

/-- Nothing is listed where nothing is held. -/
theorem nil (hentries : c.entries = ∅) (horder : c.order = ∅) : c.Lists [] where
  inverse := by simp [hentries, horder]
  past := by simp [hentries]
  keys := by
    have hempty : (∅ : Std.TreeMap Nat K).toList = [] :=
      List.isEmpty_iff.mp (Std.TreeMap.isEmpty_toList.trans Std.TreeMap.isEmpty_emptyc)
    rw [horder, hempty]
    rfl
  values := by simp [value?, hentries]

/-- The stamp of an entry points back to its key. -/
theorem order_stamp (h : c.Lists l) {entry : Entry V} (hentry : c.entries[key]? = some entry) :
    c.order[entry.stamp]? = some key :=
  (h.inverse entry.stamp key).mpr ⟨entry.value, hentry⟩

/-- The stamps of the index lie in the past. -/
theorem stamp_lt (h : c.Lists l) : ∀ p ∈ c.order.toList, p.1 < c.clock := by
  rintro ⟨stamp, key⟩ hp
  obtain ⟨v, hv⟩ := (h.inverse stamp key).mp (Std.TreeMap.mem_toList_iff_getElem?_eq_some.mp hp)
  exact h.past key _ hv

/-- Each key is listed once. -/
theorem nodup (h : c.Lists l) : (l.map Prod.fst).Nodup := by
  rw [← List.nodup_reverse, ← h.keys]
  refine List.pairwise_map.mpr ((pairwise_toList c.order).imp_of_mem ?_)
  rintro ⟨m, k⟩ ⟨n, k'⟩ hm hn hlt (rfl : k = k')
  obtain ⟨v, hv⟩ := (h.inverse m k).mp (Std.TreeMap.mem_toList_iff_getElem?_eq_some.mp hm)
  obtain ⟨w, hw⟩ := (h.inverse n k).mp (Std.TreeMap.mem_toList_iff_getElem?_eq_some.mp hn)
  rw [hv] at hw
  cases hw
  exact Nat.lt_irrefl m hlt

/-- A key is not held if it is not listed. -/
theorem value?_eq_none_iff (h : c.Lists l) : c.value? key = none ↔ ∀ p ∈ l, p.1 ≠ key := by
  constructor
  · rintro hkey ⟨k, v⟩ hp (rfl : k = key)
    have hheld := (h.values k v).mpr hp
    rw [hkey] at hheld
    cases hheld
  · intro hkey
    refine Option.eq_none_iff_forall_ne_some.mpr fun v hv => ?_
    exact hkey (key, v) ((h.values key v).mp hv) rfl

/-- The key that stands last is the one that is dropped. -/
theorem evict_eq (h : c.Lists (l ++ [(key, value)])) :
    c.evict = { c.remove key with evictions := c.evictions + 1 } := by
  have hkeys : c.order.toList.map Prod.snd = key :: (l.map Prod.fst).reverse := by
    rw [h.keys, List.map_append, List.reverse_append]
    rfl
  obtain ⟨⟨stamp, k⟩, rest, htoList, (hk : k = key), -⟩ := List.map_eq_cons_iff.mp hkeys
  rw [hk] at htoList
  have hmin : c.order.minEntry? = some (stamp, key) := by
    rw [minEntry?_eq_head?, htoList]
    rfl
  have hmem : (stamp, key) ∈ c.order.toList := htoList ▸ List.mem_cons_self
  obtain ⟨v, hv⟩ := (h.inverse stamp key).mp (Std.TreeMap.mem_toList_iff_getElem?_eq_some.mp hmem)
  simp only [evict, hmin, Lru.remove, hv]

variable [LawfulBEq K]

theorem value?_eq_lookup (h : c.Lists l) (key : K) : c.value? key = l.lookup key :=
  Option.ext fun v => (h.values key v).trans (Recency.lookup_eq_some_iff h.nodup).symm

/-- The list is as long as the table. -/
theorem size_eq (h : c.Lists l) : c.size = l.length := by
  have hmem : ∀ key, key ∈ c.entries.keys ↔ key ∈ l.map Prod.fst := by
    intro key
    rw [Std.HashMap.mem_keys, Std.HashMap.mem_iff_isSome_getElem?, List.mem_map]
    have hvalue : (c.value? key).isSome = c.entries[key]?.isSome := Option.isSome_map ..
    rw [← hvalue, Option.isSome_iff_exists]
    constructor
    · rintro ⟨v, hv⟩
      exact ⟨(key, v), (h.values key v).mp hv, rfl⟩
    · rintro ⟨⟨k, v⟩, hp, rfl⟩
      exact ⟨v, (h.values k v).mpr hp⟩
  have hperm := (List.perm_ext_iff_of_nodup c.entries.nodup_keys h.nodup).mpr hmem
  calc c.size
    _ = c.entries.keys.length := Std.HashMap.length_keys.symm
    _ = (l.map Prod.fst).length := hperm.length_eq
    _ = l.length := List.length_map ..

/-! ## What each operation makes of the list -/

/-- The key that was removed is missing from the list. -/
theorem remove (h : c.Lists l) (key : K) : (c.remove key).Lists (Recency.without key l) := by
  unfold Lru.remove
  cases hkey : c.entries[key]? with
  | none =>
    have hfree : c.value? key = none := by rw [value?, hkey]; rfl
    rw [Recency.without_of_forall (h.value?_eq_none_iff.mp hfree)]
    exact h
  | some entry =>
    have hstamp := h.order_stamp hkey
    -- stamps and keys belong together: the entry goes from both sides or from none
    have hpair : ∀ {stamp : Nat} {k : K}, c.order[stamp]? = some k →
        (entry.stamp = stamp ↔ key = k) := by
      intro stamp k hk
      constructor
      · rintro rfl
        exact Option.some.inj (hstamp.symm.trans hk)
      · rintro rfl
        obtain ⟨v, hv⟩ := (h.inverse stamp key).mp hk
        exact congrArg Entry.stamp (Option.some.inj (hkey.symm.trans hv))
    refine ⟨fun stamp k => ?_, fun k e he => ?_, ?_, fun k v => ?_⟩
    · rw [Std.TreeMap.getElem?_erase]
      simp only [Std.HashMap.getElem?_erase]
      by_cases hk : key = k
      · subst hk
        simp only [BEq.rfl, if_true, reduceCtorEq, exists_false, iff_false]
        intro hfound
        split at hfound
        · cases hfound
        · rename_i hne
          exact hne (Nat.compare_eq_eq.mpr ((hpair hfound).mpr rfl))
      · simp only [beq_false_of_ne hk, Bool.false_eq_true, if_false]
        rw [← h.inverse]
        constructor
        · intro hfound
          split at hfound
          · cases hfound
          · exact hfound
        · intro hfound
          rw [if_neg]
          · exact hfound
          · intro heq
            exact hk ((hpair hfound).mp (Nat.compare_eq_eq.mp heq))
    · dsimp only at he ⊢
      rw [Std.HashMap.getElem?_erase] at he
      split at he
      · cases he
      · exact h.past k e he
    · dsimp only
      rw [toList_erase, Recency.map_fst_without, ← List.filter_reverse, ← h.keys, List.filter_map]
      refine congrArg (List.map Prod.snd) (List.filter_congr fun p hp => ?_)
      obtain ⟨stamp, k⟩ := p
      have hiff := hpair (Std.TreeMap.mem_toList_iff_getElem?_eq_some.mp hp)
      show (stamp != entry.stamp) = (k != key)
      rw [Bool.eq_iff_iff, bne_iff_ne, bne_iff_ne]
      exact not_congr (eq_comm.trans (hiff.trans eq_comm))
    · rw [Recency.mem_without, ← h.values, value?, value?, Std.HashMap.getElem?_erase]
      by_cases hk : key = k
      · simp [hk]
      · simp [hk, Ne.symm hk]

/-- A key that was not there comes to the front. -/
theorem front (h : c.Lists l) (hkey : c.value? key = none) :
    (c.front key value).Lists ((key, value) :: l) := by
  have hfree : c.entries[key]? = none := Option.map_eq_none_iff.mp hkey
  have hclock : c.order[c.clock]? = none := by
    cases hk : c.order[c.clock]? with
    | none => rfl
    | some k =>
      have hlt := h.stamp_lt _ (Std.TreeMap.mem_toList_iff_getElem?_eq_some.mpr hk)
      exact absurd hlt (Nat.lt_irrefl _)
  refine ⟨fun stamp k => ?_, fun k e he => ?_, ?_, fun k v => ?_⟩
  · have hold := h.inverse stamp k
    have hpast : ∀ v, c.entries[k]? = some ⟨v, stamp⟩ → stamp ≠ c.clock := fun v hv =>
      Nat.ne_of_lt (h.past k _ hv)
    simp only [Lru.front, Std.TreeMap.getElem?_insert, Std.HashMap.getElem?_insert]
    by_cases hs : c.clock = stamp <;> by_cases hk : key = k
    · simp [hs, hk]
    · subst hs
      simp only [Nat.compare_eq_eq, if_true, Option.some.injEq, hk, beq_iff_eq, if_false, false_iff,
        not_exists]
      exact fun v hv => hpast v hv rfl
    · subst hk
      simp [hs, hold, hfree]
    · simp [hs, hk, hold]
  · simp only [Lru.front, Std.HashMap.getElem?_insert] at he ⊢
    split at he
    · cases he
      exact Nat.lt_succ_self c.clock
    · exact Nat.lt_succ_of_lt (h.past k e he)
  · simp only [Lru.front, toList_insert h.stamp_lt, List.map_append, h.keys, List.map_cons,
      List.map_nil, List.reverse_cons]
  · simp only [value?, Lru.front, Std.HashMap.getElem?_insert, List.mem_cons, Prod.mk.injEq]
    by_cases hk : key = k
    · subst hk
      have hunlisted : (key, v) ∉ l := fun hp => h.value?_eq_none_iff.mp hkey _ hp rfl
      simp [hunlisted, eq_comm]
    · have hv := h.values k v
      rw [value?] at hv
      simp [hk, Ne.symm hk, hv]

theorem evict (h : c.Lists (l ++ [(key, value)])) : c.evict.Lists l := by
  have hlast : ∀ p ∈ l, p.1 ≠ key := by
    have hnodup := h.nodup
    rw [List.map_append] at hnodup
    intro p hp hkey
    exact (List.nodup_append.mp hnodup).2.2 p.1 (List.mem_map_of_mem hp) key
      (List.mem_singleton_self key) hkey
  have hremoved := h.remove key
  rw [Recency.without, List.filter_append, ← Recency.without, Recency.without_of_forall hlast]
    at hremoved
  rw [h.evict_eq]
  refine Lists.congr (c := c.remove key) ?_ (fun _ => rfl) rfl rfl
  simpa using hremoved

end Lists

/-- The cache with room for a key beside those that it holds. -/
def withRoom (c : Lru K V) : Lru K V :=
  if c.capacity ≤ c.size then c.evict else c

/-- The cache when another stamp was drawn. -/
def tick (c : Lru K V) : Lru K V :=
  { c with clock := c.clock + 1 }

theorem remove_tick (c : Lru K V) (key : K) : c.tick.remove key = (c.remove key).tick := by
  cases hkey : c.entries[key]? <;> simp only [remove, tick, hkey]

theorem evict_tick (c : Lru K V) : c.tick.evict = c.evict.tick := by
  cases holdest : c.order.minEntry? <;> simp only [evict, tick, holdest]

theorem withRoom_tick (c : Lru K V) : c.tick.withRoom = c.withRoom.tick := by
  rw [withRoom, withRoom, evict_tick]
  change (if c.capacity ≤ c.size then _ else _) = _
  split <;> rfl

/-- To make room changes the table, the index and the count of what was dropped. -/
theorem withRoom_eq_with (c : Lru K V) :
    ∃ entries order evictions, c.withRoom = { c with entries, order, evictions } := by
  unfold withRoom evict
  split
  · split
    · exact ⟨_, _, _, rfl⟩
    · exact ⟨_, _, _, rfl⟩
  · exact ⟨_, _, _, rfl⟩

theorem clock_withRoom (c : Lru K V) : c.withRoom.clock = c.clock := by
  obtain ⟨entries, order, evictions, h⟩ := c.withRoom_eq_with
  rw [h]

/-- A value is put in by three steps: its key is removed, room is made, and it comes to the
front. -/
theorem insert_eq (c : Lru K V) (hcapacity : c.capacity ≠ 0) (key : K) (value : V) :
    c.insert key value = (c.remove key).withRoom.front key value := by
  have hroom : (c.tick.remove key).withRoom = (c.remove key).withRoom.tick := by
    rw [remove_tick, withRoom_tick]
  have hclock : (c.remove key).withRoom.clock = c.clock := by
    rw [clock_withRoom, clock_remove]
  calc c.insert key value
    _ = { (c.tick.remove key).withRoom with
          entries := (c.tick.remove key).withRoom.entries.insert key ⟨value, c.clock⟩
          order := (c.tick.remove key).withRoom.order.insert c.clock key } := if_neg hcapacity
    _ = (c.remove key).withRoom.front key value := by
      rw [hroom, ← hclock]
      rfl

/-- To put a value in changes no count of questions, and draws one stamp at most. -/
theorem insert_eq_with (c : Lru K V) (key : K) (value : V) :
    ∃ entries order clock evictions, clock ≤ c.clock + 1 ∧
      c.insert key value = { c with entries, order, clock, evictions } := by
  by_cases hcapacity : c.capacity = 0
  · exact ⟨_, _, _, _, Nat.le_succ _, if_pos hcapacity⟩
  · obtain ⟨entries, order, hremove⟩ := c.remove_eq_with key
    obtain ⟨entries', order', evictions, hroom⟩ := (c.remove key).withRoom_eq_with
    have hinsert : c.insert key value =
        { c with
          entries := entries'.insert key ⟨value, c.clock⟩
          order := order'.insert c.clock key
          clock := c.clock + 1
          evictions } := by
      rw [insert_eq c hcapacity, hroom, hremove]
      rfl
    exact ⟨_, _, _, _, Nat.le_refl _, hinsert⟩

namespace Lists
variable {c : Lru K V} {l : List (K × V)} {key : K} [LawfulBEq K]

/-- What has no place beside one more key is dropped, and counted. -/
theorem withRoom (h : c.Lists l) (hcapacity : c.capacity ≠ 0) (hsize : l.length ≤ c.capacity) :
    c.withRoom.Lists (l.take (c.capacity - 1)) ∧
      c.withRoom.evictions = c.evictions + (l.drop (c.capacity - 1)).length := by
  rw [Lru.withRoom, h.size_eq]
  by_cases hfull : c.capacity ≤ l.length
  · rw [if_pos hfull]
    have hlength : l.length - 1 = c.capacity - 1 := by rw [Nat.le_antisymm hsize hfull]
    rcases List.eq_nil_or_concat l with rfl | ⟨init, ⟨oldest, v⟩, rfl⟩
    · exact absurd (Nat.le_zero.mp hfull) hcapacity
    · rw [List.concat_eq_append] at h ⊢
      have hinit : init.length = c.capacity - 1 := by
        rw [← hlength, List.length_concat, Nat.add_sub_cancel]
      rw [List.take_left' hinit, List.drop_left' hinit, h.evict_eq]
      exact ⟨h.evict_eq ▸ h.evict, rfl⟩
  · have hroom : l.length ≤ c.capacity - 1 := Nat.le_sub_one_of_lt (Nat.lt_of_not_le hfull)
    rw [if_neg hfull, List.take_of_length_le hroom, List.drop_of_length_le hroom]
    exact ⟨h, rfl⟩

/-- A value that is put under a key stands in front of the list, which is cut to the capacity. -/
theorem insert (h : c.Lists l) (hsize : l.length ≤ c.capacity) (key : K) (value : V) :
    (c.insert key value).Lists (Recency.put c.capacity key value l) ∧
      (c.insert key value).evictions =
        c.evictions + (Recency.displaced c.capacity key l).length := by
  by_cases hcapacity : c.capacity = 0
  · have hnil : l = [] := List.eq_nil_of_length_eq_zero (Nat.le_zero.mp (hcapacity ▸ hsize))
    subst hnil
    have hput : Recency.put c.capacity key value [] = [] := by
      rw [hcapacity]
      rfl
    have hinsert : c.insert key value = c := if_pos hcapacity
    have hdisplaced : Recency.displaced c.capacity key ([] : List (K × V)) = [] := List.drop_nil
    rw [hput, hinsert, hdisplaced]
    exact ⟨h, rfl⟩
  · have hwithout := Nat.le_trans (Recency.length_without_le key l) hsize
    have hroom := (h.remove key).withRoom
    rw [capacity_remove, evictions_remove] at hroom
    obtain ⟨hlists, hevictions⟩ := hroom hcapacity hwithout
    have hfresh : (c.remove key).withRoom.value? key = none :=
      hlists.value?_eq_none_iff.mpr fun _ hp => (Recency.mem_without.mp (List.mem_of_mem_take hp)).2
    rw [insert_eq c hcapacity, Recency.put_eq_cons hcapacity]
    exact ⟨hlists.front hfresh, hevictions⟩

/-- A key that was asked for comes to the front, if it is there. -/
theorem get (h : c.Lists l) (key : K) : (c.get key).2.Lists (Recency.touch key l) := by
  unfold Recency.touch
  rw [← h.value?_eq_lookup key]
  cases hkey : c.entries[key]? with
  | none =>
    have hmiss : c.value? key = none := by rw [value?, hkey]; rfl
    rw [hmiss]
    refine h.congr (fun k => ?_) ?_ ?_ <;> simp only [Lru.get, hkey]
  | some entry =>
    have hhit : c.value? key = some entry.value := by rw [value?, hkey]; rfl
    have hstamp := h.order_stamp hkey
    have hfresh : (c.remove key).value? key = none :=
      (h.remove key).value?_eq_none_iff.mpr fun _ hp => (Recency.mem_without.mp hp).2
    rw [hhit]
    -- a hit writes over its entry, which is as good as to remove it and to put it in front
    refine ((h.remove key).front hfresh).congr (fun k => ?_) ?_ ?_
    · simp only [Lru.get, Lru.remove, Lru.front, hkey, Std.HashMap.getElem?_insert,
        Std.HashMap.getElem?_erase]
      split <;> rfl
    · simp only [Lru.get, Lru.remove, Lru.front, hkey, hstamp]
    · simp only [Lru.get, Lru.remove, Lru.front, hkey]

end Lists
end Lru
end Stencil.Cache
