import Std.Data.HashMap
import Std.Data.TreeMap
/-!
# Bounded caches

A cache holds at most `capacity` entries.  Every entry is stamped with the time of its last use, and
a second index finds the oldest stamp, so that a new key in a full cache takes the place of the key
that has gone unused for longest.
-/
namespace Stencil.Cache

/-- A value and the time of its last use. -/
structure Entry (V : Type) where
  value : V
  stamp : Nat

/-- A cache of bounded size.  A cache without capacity stores nothing. -/
structure Lru (K V : Type) [BEq K] [Hashable K] where
  capacity : Nat
  entries : Std.HashMap K (Entry V) := ∅
  /-- The keys by the time of their last use. -/
  order : Std.TreeMap Nat K := ∅
  /-- The time of the next use. -/
  clock : Nat := 0
  hits : Nat := 0
  misses : Nat := 0
  evictions : Nat := 0

/-- The counters of a cache. -/
structure Stats where
  size : Nat
  capacity : Nat
  hits : Nat
  misses : Nat
  evictions : Nat
  deriving Repr, DecidableEq

namespace Lru
variable {K V : Type} [BEq K] [Hashable K]

/-- The number of entries. -/
def size (c : Lru K V) : Nat :=
  c.entries.size

/-- Whether there is no entry. -/
def isEmpty (c : Lru K V) : Bool :=
  c.size == 0

/-- The counters. -/
def stats (c : Lru K V) : Stats :=
  ⟨c.size, c.capacity, c.hits, c.misses, c.evictions⟩

/-- The value under a key, which counts as a use of it. -/
def get (c : Lru K V) (key : K) : Option V × Lru K V :=
  match c.entries[key]? with
  | some entry =>
    let order := match c.order[entry.stamp]? with
      | some k => (c.order.erase entry.stamp).insert c.clock k
      | none => c.order
    (some entry.value,
      { c with
        entries := c.entries.insert key { entry with stamp := c.clock }
        order, clock := c.clock + 1, hits := c.hits + 1 })
  | none => (none, { c with misses := c.misses + 1 })

/-- The cache without a key. -/
def remove (c : Lru K V) (key : K) : Lru K V :=
  match c.entries[key]? with
  | some entry => { c with entries := c.entries.erase key, order := c.order.erase entry.stamp }
  | none => c

/-- The cache without the key that has gone unused for longest. -/
def evict (c : Lru K V) : Lru K V :=
  match c.order.minEntry? with
  | some (stamp, key) =>
    { c with
      entries := c.entries.erase key
      order := c.order.erase stamp
      evictions := c.evictions + 1 }
  | none => c

/-- Puts a value under a key. -/
def insert (c : Lru K V) (key : K) (value : V) : Lru K V :=
  if c.capacity = 0 then c
  else
    let stamp := c.clock
    let c := { c with clock := stamp + 1 }.remove key
    let c := if c.capacity ≤ c.size then c.evict else c
    { c with entries := c.entries.insert key ⟨value, stamp⟩, order := c.order.insert stamp key }

/-- The cache without entries; its counters stay. -/
def clear (c : Lru K V) : Lru K V :=
  { c with entries := ∅, order := ∅ }

end Lru
end Stencil.Cache
