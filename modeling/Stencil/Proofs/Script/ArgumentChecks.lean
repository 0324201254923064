import Stencil.Script.Arguments

/-! # What the arguments of helpers are checked for

A value **stands** some number of containers below an argument if so many arrays and objects are on
a way to it (`Stands`); a container that is shared stands in several places.  The walk over the
arguments goes into a container where it meets it first, and looks only at what it is elsewhere.

**Arguments that pass hold no object with a denied key**, and each value in them stands within the
depth limit in some place (`passed_of_checkArguments`).  It stands so in all of its places if no
container stands at two depths.  Otherwise nothing is sure: a container that was met near the top is
not looked into again further down, so that arguments nested as deep as one likes pass under a limit
of one (`checkArguments_towers`).

Identities stand for addresses: two containers that have one identity are the same container
(`ToldApart`).
-/
namespace Stencil.Script

/-- The items of an array, and the values of the members of an object. -/
def Value.contents : Value → List Value
  | .array _ items => items.toList
  | .object _ members => members.map (·.2)
  | _ => []

/-- The identity of an array or an object. -/
def Value.container? : Value → Option Identity
  | .array id _ | .object id _ => some id
  | _ => none

/-- No member of the object has a denied name. -/
def Value.Allowed : Value → Prop
  | .object _ members => ∀ p ∈ members, Security.isDenied p.1 = false
  | _ => True

/-- The value stands `depth` containers below one of the arguments. -/
inductive Stands (args : List Value) : Nat → Value → Prop
  | argument {v : Value} (h : v ∈ args) : Stands args 0 v
  | inside {depth : Nat} {v u : Value} (h : Stands args depth v) (hu : u ∈ v.contents) :
      Stands args (depth + 1) u

/-- Two containers in the arguments that have one identity are the same. -/
def ToldApart (args : List Value) : Prop :=
  ∀ depth depth' u v, Stands args depth u → Stands args depth' v →
    ∀ id ∈ u.container?, id ∈ v.container? → u = v

/-- Containers have been walked between the two states of what has been visited, wherever they were
met first: their keys are allowed, what they hold is not too deep there, and the containers among it
have been walked too. -/
structure Walked (limits : ArgumentLimits) (args : List Value)
    (visited visited' : Std.HashSet Identity) : Prop where
  kept : ∀ id ∈ visited, id ∈ visited'
  complete : ∀ id ∈ visited', id ∉ visited → ∃ depth v, Stands args depth v ∧
    id ∈ v.container? ∧ v.Allowed ∧ ∀ u ∈ v.contents, depth + 1 ≤ limits.depth ∧
      ∀ id' ∈ u.container?, id' ∈ visited'

section Walks
variable {limits : ArgumentLimits} {args : List Value}

theorem Walked.refl {visited : Std.HashSet Identity} : Walked limits args visited visited :=
  ⟨fun _ h => h, fun _ h hnot => absurd h hnot⟩

theorem Walked.trans {visited visited' visited'' : Std.HashSet Identity}
    (h : Walked limits args visited visited') (h' : Walked limits args visited' visited'') :
    Walked limits args visited visited'' where
  kept id hid := h'.kept id (h.kept id hid)
  complete id hid hnot := by
    by_cases hmiddle : id ∈ visited'
    · obtain ⟨depth, v, hv, hidv, hallowed, hinside⟩ := h.complete id hmiddle hnot
      refine ⟨depth, v, hv, hidv, hallowed, fun u hu => ?_⟩
      exact ⟨(hinside u hu).1, fun id' hid' => h'.kept id' ((hinside u hu).2 id' hid')⟩
    · exact h'.complete id hid hmiddle

theorem count_ok {w counted : Walk} {depth : Nat} (h : w.count limits depth = .ok counted) :
    depth ≤ limits.depth ∧ counted.visited = w.visited := by
  unfold Walk.count at h
  split at h
  · cases h
  · split at h
    · cases h
    · rename_i hdepth
      obtain rfl := Except.ok.inj h
      exact ⟨Nat.le_of_not_lt hdepth, rfl⟩

theorem mem_visit {w : Walk} {id id' : Identity} :
    id' ∈ (w.visit id).visited ↔ id' = id ∨ id' ∈ w.visited := by
  rw [Walk.visit, Std.HashSet.mem_insert, beq_iff_eq, eq_comm]

/-- A container is counted and, unless it has been visited before, walked with its content. -/
theorem walked_container {depth : Nat} {w counted w' : Walk} {v : Value} {id : Identity}
    {inner : Except ScriptError Walk} (hv : Stands args depth v) (hid : v.container? = some id)
    (hcount : w.count limits depth = .ok counted)
    (h : (if counted.visited.contains id then .ok counted else inner) = .ok w')
    (hinner : inner = .ok w' → v.Allowed ∧
      Walked limits args (counted.visit id).visited w'.visited ∧
      ∀ u ∈ v.contents, depth + 1 ≤ limits.depth ∧ ∀ id' ∈ u.container?, id' ∈ w'.visited) :
    depth ≤ limits.depth ∧ Walked limits args w.visited w'.visited ∧
      ∀ id ∈ v.container?, id ∈ w'.visited := by
  obtain ⟨hdepth, hvisited⟩ := count_ok hcount
  refine ⟨hdepth, ?_⟩
  rw [← hvisited, hid]
  split at h
  · -- It is counted only, however deep its content reaches from here.
    rename_i hseen
    obtain rfl := Except.ok.inj h
    refine ⟨.refl, ?_⟩
    rintro _ ⟨⟩
    exact Std.HashSet.mem_iff_contains.mpr hseen
  · obtain ⟨hallowed, hwalked, hinside⟩ := hinner h
    refine ⟨⟨fun id' h => hwalked.kept id' (mem_visit.mpr (.inr h)), fun id' hid' hnot => ?_⟩, ?_⟩
    · -- What is new is the container itself, or was visited below it.
      by_cases heq : id' = id
      · exact ⟨depth, v, hv, heq ▸ hid, hallowed, hinside⟩
      · exact hwalked.complete id' hid' fun hvisit => (mem_visit.mp hvisit).elim heq hnot
    · rintro _ ⟨⟩
      exact hwalked.kept id (mem_visit.mpr (.inl rfl))

mutual

/-- A value that is walked without an error is not too deep, and has been walked. -/
theorem walked_walk {w w' : Walk} {depth : Nat} : ∀ v : Value, Stands args depth v →
    walk limits depth w v = .ok w' → depth ≤ limits.depth ∧
      Walked limits args w.visited w'.visited ∧ ∀ id ∈ v.container?, id ∈ w'.visited
  | .array id ⟨items⟩, hv, h => by
    rw [walk] at h
    split at h
    · cases h
    · rename_i counted hcount
      refine walked_container hv rfl hcount h fun hinner => ⟨trivial, ?_⟩
      exact walked_walkItems items (fun u hu => hv.inside hu) hinner
  | .object id members, hv, h => by
    rw [walk] at h
    split at h
    · cases h
    · rename_i counted hcount
      refine walked_container hv rfl hcount h fun hinner => ?_
      obtain ⟨hwalked, hinside⟩ := walked_walkMembers members
        (fun p hp => hv.inside (List.mem_map_of_mem hp)) hinner
      exact ⟨fun p hp => (hinside p hp).1, hwalked,
        List.forall_mem_map.mpr fun p hp => (hinside p hp).2⟩
  | .undefined, _, h | .null, _, h | .bool _, _, h | .number _, _, h | .string _, _, h
  | .date _, _, h | .closure .., _, h | .native _, _, h => by
    rw [walk] at h
    split at h
    · cases h
    · rename_i counted hcount
      obtain ⟨hdepth, hvisited⟩ := count_ok hcount
      obtain rfl := Except.ok.inj h
      exact ⟨hdepth, hvisited ▸ .refl, fun _ hid => nomatch hid⟩

/-- Items that are walked without an error are not too deep, and have been walked. -/
theorem walked_walkItems {w w' : Walk} {depth : Nat} : ∀ items : List Value,
    (∀ v ∈ items, Stands args depth v) → walkItems limits depth w items = .ok w' →
    Walked limits args w.visited w'.visited ∧ ∀ v ∈ items, depth ≤ limits.depth ∧
      ∀ id ∈ v.container?, id ∈ w'.visited
  | [], _, h => by
    obtain rfl := Except.ok.inj h
    exact ⟨.refl, List.forall_mem_nil _⟩
  | v :: rest, hitems, h => by
    obtain ⟨hv, hrest⟩ := List.forall_mem_cons.mp hitems
    rw [walkItems] at h
    split at h
    · rename_i hwalk
      obtain ⟨hdepth, hfirst, hid⟩ := walked_walk v hv hwalk
      obtain ⟨hothers, hinside⟩ := walked_walkItems rest hrest h
      refine ⟨hfirst.trans hothers, List.forall_mem_cons.mpr ⟨⟨hdepth, fun id h => ?_⟩, hinside⟩⟩
      exact hothers.kept id (hid id h)
    · cases h

/-- Members that are walked without an error have allowed names, and their values are as items. -/
theorem walked_walkMembers {w w' : Walk} {depth : Nat} : ∀ members : List (String × Value),
    (∀ p ∈ members, Stands args depth p.2) → walkMembers limits depth w members = .ok w' →
    Walked limits args w.visited w'.visited ∧ ∀ p ∈ members, Security.isDenied p.1 = false ∧
      depth ≤ limits.depth ∧ ∀ id ∈ p.2.container?, id ∈ w'.visited
  | [], _, h => by
    obtain rfl := Except.ok.inj h
    exact ⟨.refl, List.forall_mem_nil _⟩
  | (key, v) :: rest, hmembers, h => by
    obtain ⟨hv, hrest⟩ := List.forall_mem_cons.mp hmembers
    rw [walkMembers] at h
    split at h
    · cases h
    · rename_i hkey
      split at h
      · rename_i hwalk
        obtain ⟨hdepth, hfirst, hid⟩ := walked_walk v hv hwalk
        obtain ⟨hothers, hinside⟩ := walked_walkMembers rest hrest h
        refine ⟨hfirst.trans hothers, List.forall_mem_cons.mpr
          ⟨⟨Bool.eq_false_iff.mpr hkey, hdepth, fun id h => ?_⟩, hinside⟩⟩
        exact hothers.kept id (hid id h)
      · cases h

end

end Walks

section Passed
variable {limits : ArgumentLimits} {args : List Value}

theorem exists_container {v u : Value} (h : u ∈ v.contents) : ∃ id, v.container? = some id := by
  cases v with
  | array id items => exact ⟨id, rfl⟩
  | object id members => exact ⟨id, rfl⟩
  | _ => cases h

/-- A container in arguments that pass was walked in one of its places, and so were the containers
that it holds. -/
theorem exists_first {visited : Std.HashSet Identity} (hids : ToldApart args)
    (hwalked : Walked limits args ∅ visited) {depth : Nat} {v : Value} (hv : Stands args depth v)
    {id : Identity} (hid : v.container? = some id) (hvisited : id ∈ visited) :
    ∃ first, Stands args first v ∧ v.Allowed ∧ ∀ u ∈ v.contents, first + 1 ≤ limits.depth ∧
      ∀ id' ∈ u.container?, id' ∈ visited := by
  obtain ⟨first, v', hv', hid', hfirst⟩ :=
    hwalked.complete id hvisited Std.HashSet.not_mem_empty
  obtain rfl := hids depth first v v' hv hv' id hid hid'
  exact ⟨first, hv', hfirst⟩

/-- Every container in arguments that pass was walked, by induction on the way to it. -/
theorem visited_of_stands {visited : Std.HashSet Identity} (hids : ToldApart args)
    (hwalked : Walked limits args ∅ visited)
    (hargs : ∀ v ∈ args, ∀ id ∈ v.container?, id ∈ visited) {depth : Nat} {v : Value}
    (hv : Stands args depth v) : ∀ id ∈ v.container?, id ∈ visited := by
  induction hv with
  | argument h => exact hargs _ h
  | inside hv hu ih =>
    -- The container above was walked in some place, if not in this one, and so was what it holds.
    obtain ⟨id, hid⟩ := exists_container hu
    obtain ⟨first, -, -, hinside⟩ := exists_first hids hwalked hv hid (ih id hid)
    exact (hinside _ hu).2

/-- **What arguments that pass are like.**  No object in them has a denied key, however deep it
stands and however containers are shared, and every value in them stands within the depth limit in
one of its places.  If no container stands at two depths, all values do so in all their places. -/
theorem passed_of_checkArguments (hids : ToldApart args)
    (h : checkArguments limits args = .ok ()) :
    (∀ depth v, Stands args depth v → v.Allowed) ∧
    (∀ depth v, Stands args depth v → ∃ first ≤ limits.depth, Stands args first v) ∧
    ((∀ depth depth' v, v.container? ≠ none → Stands args depth v → Stands args depth' v →
      depth = depth') → ∀ depth v, Stands args depth v → depth ≤ limits.depth) := by
  unfold checkArguments at h
  cases hwalk : walkItems limits 0 {} args with
  | error e =>
    rw [hwalk] at h
    cases h
  | ok w =>
    obtain ⟨hwalked, hargs⟩ := walked_walkItems args (fun v hv => .argument hv) hwalk
    have hfirst : ∀ depth v, Stands args depth v → ∀ id, v.container? = some id →
        ∃ first, Stands args first v ∧ v.Allowed ∧ ∀ u ∈ v.contents, first + 1 ≤ limits.depth ∧
          ∀ id' ∈ u.container?, id' ∈ w.visited := fun depth v hv id hid =>
      exists_first hids hwalked hv hid
        (visited_of_stands hids hwalked (fun v hv => (hargs v hv).2) hv id hid)
    refine ⟨fun depth v hv => ?_, fun depth v hv => ?_, fun hdepths depth v hv => ?_⟩
    · cases hid : v.container? with
      | none => cases v <;> trivial
      | some id =>
        obtain ⟨-, -, hallowed, -⟩ := hfirst depth v hv id hid
        exact hallowed
    · cases hv with
      | argument hv => exact ⟨0, (hargs v hv).1, .argument hv⟩
      | inside hp hv =>
        obtain ⟨id, hid⟩ := exists_container hv
        obtain ⟨first, hp', -, hinside⟩ := hfirst _ _ hp id hid
        exact ⟨first + 1, (hinside v hv).1, hp'.inside hv⟩
    · cases hv with
      | argument hv => exact (hargs v hv).1
      | inside hp hv =>
        obtain ⟨id, hid⟩ := exists_container hv
        obtain ⟨first, hp', -, hinside⟩ := hfirst _ _ hp id hid
        rw [hdepths _ first _ (by simp [hid]) hp hp']
        exact (hinside v hv).1

end Passed

/-- An object in two arrays, under the limits that just let them pass. -/
theorem passed_of_checkArguments_shared :
    let shared : Value := .object 1 [("a", .null)]
    let args : List Value := [.array 0 #[shared], .array 2 #[shared]]
    let limits : ArgumentLimits := { depth := 2, nodes := 5 }
    checkArguments limits args = .ok () ∧ (∀ depth v, Stands args depth v → v.Allowed) ∧
      ∀ depth v, Stands args depth v → depth ≤ 2 := by
  intro shared args limits
  have hplaces : ∀ depth v, Stands args depth v →
      depth = 0 ∧ (v = .array 0 #[shared] ∨ v = .array 2 #[shared]) ∨
        depth = 1 ∧ v = shared ∨ depth = 2 ∧ v = .null := by
    intro depth v h
    induction h with
    | argument h => exact .inl ⟨rfl, by simpa [args] using h⟩
    | inside _ hu ih =>
      rcases ih with ⟨rfl, rfl | rfl⟩ | ⟨rfl, rfl⟩ | ⟨rfl, rfl⟩
      · exact .inr (.inl ⟨rfl, List.mem_singleton.mp hu⟩)
      · exact .inr (.inl ⟨rfl, List.mem_singleton.mp hu⟩)
      · exact .inr (.inr ⟨rfl, List.mem_singleton.mp hu⟩)
      · cases hu
  have hids : ToldApart args := by
    intro depth depth' u v hu hv id hid hid'
    rcases hplaces depth u hu with ⟨-, rfl | rfl⟩ | ⟨-, rfl⟩ | ⟨-, rfl⟩ <;>
      rcases hplaces depth' v hv with ⟨-, rfl | rfl⟩ | ⟨-, rfl⟩ | ⟨-, rfl⟩ <;>
      cases hid <;> first | rfl | cases hid'
  have hpass : checkArguments limits args = .ok () := by
    have hkey : Security.isDenied "a" = false := by decide
    simp [checkArguments, walkItems, walk, walkMembers, Walk.count, Walk.visit, args, shared,
      limits, hkey, Except.map]
  obtain ⟨hallowed, -, hdeep⟩ := passed_of_checkArguments hids hpass
  refine ⟨hpass, hallowed, hdeep fun depth depth' v hv h h' => ?_⟩
  rcases hplaces depth v h with ⟨rfl, rfl | rfl⟩ | ⟨rfl, rfl⟩ | ⟨rfl, rfl⟩ <;>
    rcases hplaces depth' _ h' with ⟨rfl, heq | heq⟩ | ⟨rfl, heq⟩ | ⟨rfl, heq⟩ <;>
    first | rfl | simp [shared] at heq

/-! ## Towers -/

/-- An array in an array and so on, `n` levels above the innermost one, which is empty. -/
def tower : Nat → Value
  | 0 => .array 0 #[]
  | n + 1 => .array (n + 1) #[tower n]

/-- The towers up to a level, the lower ones first. -/
def towers (n : Nat) : List Value :=
  (List.range (n + 1)).map tower

theorem container_tower (n : Nat) : (tower n).container? = some n := by
  cases n <;> rfl

section Towers
variable {limits : ArgumentLimits}

theorem walkItems_append {depth : Nat} {w : Walk} (items rest : List Value) :
    walkItems limits depth w (items ++ rest) =
      (walkItems limits depth w items).bind fun w => walkItems limits depth w rest := by
  induction items generalizing w with
  | nil => rfl
  | cons v items ih =>
    rw [List.cons_append, walkItems, walkItems]
    cases walk limits depth w v with
    | error e => rfl
    | ok w => exact ih

/-- A value in towers is one of the towers. -/
theorem exists_tower_of_stands {n depth : Nat} {v : Value} (h : Stands (towers n) depth v) :
    ∃ k, v = tower k := by
  induction h with
  | argument h =>
    obtain ⟨k, -, rfl⟩ := List.mem_map.mp h
    exact ⟨k, rfl⟩
  | inside _ hu ih =>
    obtain ⟨k, rfl⟩ := ih
    cases k with
    | zero => cases hu
    | succ k => exact ⟨k, List.mem_singleton.mp hu⟩

theorem toldApart_towers (n : Nat) : ToldApart (towers n) := by
  intro depth depth' u v hu hv id hid hid'
  obtain ⟨j, rfl⟩ := exists_tower_of_stands hu
  obtain ⟨k, rfl⟩ := exists_tower_of_stands hv
  rw [container_tower] at hid hid'
  rw [Option.mem_some.mp hid, Option.mem_some.mp hid']

theorem stands_tower {args : List Value} {depth : Nat} :
    ∀ {n : Nat}, Stands args depth (tower n) → Stands args (depth + n) (tower 0)
  | 0, h => h
  | n + 1, h => by
    have hinside : Stands args (depth + 1) (tower n) := h.inside (List.mem_singleton.mpr rfl)
    have hbottom := stands_tower hinside
    rwa [Nat.add_right_comm, Nat.add_assoc] at hbottom

/-- A container that has been visited is counted. -/
theorem walk_visited {w : Walk} {depth : Nat} {v : Value} {id : Identity}
    (hid : v.container? = some id) (hvisited : id ∈ w.visited) :
    walk limits depth w v = w.count limits depth := by
  cases hcount : w.count limits depth with
  | error e => rw [walk, hcount]
  | ok counted =>
    have hseen : counted.visited.contains id = true := by
      rw [(count_ok hcount).2]
      exact Std.HashSet.mem_iff_contains.mp hvisited
    cases v with
    | array id' items =>
      obtain rfl : id' = id := Option.some.inj hid
      obtain ⟨items⟩ := items
      simp only [walk, hcount, hseen, if_true]
    | object id' members =>
      obtain rfl : id' = id := Option.some.inj hid
      simp only [walk, hcount, hseen, if_true]
    | _ => cases hid

/-- A tower on one that has been visited is two more values, and no deeper than one level. -/
theorem walk_tower_succ {w : Walk} {n : Nat} (hdepth : 1 ≤ limits.depth)
    (hnodes : w.nodes + 2 ≤ limits.nodes) (hvisited : n ∈ w.visited) (hnew : n + 1 ∉ w.visited) :
    walk limits 0 w (tower (n + 1)) =
      .ok { visited := w.visited.insert (n + 1), nodes := w.nodes + 2 } := by
  have hcount : w.count limits 0 = .ok { w with nodes := w.nodes + 1 } := by
    rw [Walk.count, if_neg (by omega), if_neg (Nat.not_lt_zero _)]
  have hinside : n ∈ (Walk.visit (n + 1) { w with nodes := w.nodes + 1 }).visited :=
    mem_visit.mpr (.inr hvisited)
  rw [tower, walk, hcount]
  simp only [Std.HashSet.contains_eq_false_iff_not_mem.mpr hnew, Bool.false_eq_true, if_false,
    walkItems, walk_visited (container_tower n) hinside]
  rw [Walk.count, if_neg (by simp only [Walk.visit]; omega), if_neg (by omega)]
  rfl

/-- The towers pass, and nothing else has been walked. -/
theorem walkItems_towers (hdepth : 1 ≤ limits.depth) {n : Nat}
    (hnodes : 2 * n + 1 ≤ limits.nodes) :
    ∃ w, walkItems limits 0 {} (towers n) = .ok w ∧ w.nodes = 2 * n + 1 ∧
      ∀ id, id ∈ w.visited ↔ id ≤ n := by
  induction n with
  | zero =>
    refine ⟨{ visited := .insert ∅ 0, nodes := 1 }, ?_, rfl, fun id => ?_⟩
    · have hcount : Walk.count limits 0 {} = .ok { nodes := 1 } := by
        rw [Walk.count, if_neg (Nat.not_lt.mpr hnodes), if_neg (Nat.not_lt_zero _)]
      have hempty : (∅ : Std.HashSet Identity).contains 0 = false := Std.HashSet.contains_empty
      have htowers : towers 0 = [.array 0 #[]] := rfl
      simp only [htowers, walkItems, walk, hcount, hempty, Bool.false_eq_true, if_false, Walk.visit]
    · rw [Std.HashSet.mem_insert, beq_iff_eq, Nat.le_zero, eq_comm]
      exact or_iff_left Std.HashSet.not_mem_empty
  | succ n ih =>
    obtain ⟨w, hw, hcount, hvisited⟩ := ih (by omega)
    have hseen : n ∈ w.visited := (hvisited n).mpr (Nat.le_refl n)
    have hnew : n + 1 ∉ w.visited := fun h => Nat.not_succ_le_self n ((hvisited _).mp h)
    have hwalk := walk_tower_succ hdepth (show w.nodes + 2 ≤ limits.nodes by omega) hseen hnew
    refine ⟨{ visited := w.visited.insert (n + 1), nodes := w.nodes + 2 }, ?_, ?_, fun id => ?_⟩
    · rw [towers, List.range_succ, List.map_append, walkItems_append, ← towers, hw, Except.bind,
        List.map_singleton, walkItems, hwalk]
      rfl
    · show w.nodes + 2 = 2 * (n + 1) + 1
      omega
    · rw [Std.HashSet.mem_insert, beq_iff_eq, hvisited, Nat.le_succ_iff, or_comm]
      exact or_congr_right eq_comm

/-- **Sharing hides depth**: whatever the limit on the depth, if it is at least one, towers as high
as the limit on the values allows pass, the bottom of the last one far below the limit. -/
theorem checkArguments_towers (hdepth : 1 ≤ limits.depth) {n : Nat}
    (hnodes : 2 * n + 1 ≤ limits.nodes) :
    ToldApart (towers n) ∧ checkArguments limits (towers n) = .ok () ∧
      Stands (towers n) n (tower 0) := by
  obtain ⟨w, hw, -, -⟩ := walkItems_towers hdepth hnodes
  refine ⟨toldApart_towers n, ?_, ?_⟩
  · rw [checkArguments, hw]
    rfl
  · have htop : Stands (towers n) 0 (tower n) :=
      .argument (List.mem_map_of_mem (List.mem_range.mpr (Nat.lt_succ_self n)))
    have hbottom := stands_tower htop
    rwa [Nat.zero_add] at hbottom

end Towers

/-- So arguments pass under the limits that are in force by default, and nest deeper than they
allow. -/
theorem exists_deep_arguments : ∃ args : List Value, ToldApart args ∧
    checkArguments {} args = .ok () ∧
    ∃ depth v, Stands args depth v ∧ ({} : ArgumentLimits).depth < depth := by
  obtain ⟨hids, hpass, hbottom⟩ := @checkArguments_towers {} (by decide) 33 (by decide)
  exact ⟨towers 33, hids, hpass, 33, tower 0, hbottom, by decide⟩

end Stencil.Script
