import Stencil.Proofs.Script.MatchLogic.Methods

/-! # Built-in functions under a logic of steps that match

Every function that is not written in the script language does the same on both sides: the built-in
ones (`runBuiltin`), those of the host (`run`), and what `new` makes (`construct`).
-/
namespace Stencil.Script
open Value (argument)

/-! ## Keys that are made -/

namespace Native

/-- The text of a number is no denied name. -/
theorem isDenied_toString (i : Nat) : Security.isDenied (toString i) = false := by
  refine Security.isDenied_eq_false fun ht => ?_
  rw [Nat.toString_eq_repr, Nat.repr_eq_ofList_toDigits, String.toList_ofList] at ht
  exact absurd (Nat.isDigit_of_mem_toDigits (by omega) (by omega) ht) (by decide)

theorem isDenied_addPair {members members' : List (String × Value)} {pair : Value}
    (hm : ∀ p ∈ members, Security.isDenied p.1 = false)
    (h : addPair members pair = .ok members') : ∀ p ∈ members', Security.isDenied p.1 = false := by
  unfold addPair at h
  split at h
  · dsimp only at h
    split at h <;> cases h
    rename_i hallowed
    intro p hp
    rcases mem_insertMember hp with rfl | hp
    · exact Bool.eq_false_iff.mpr hallowed
    · exact hm p hp
  · cases h
    exact hm

/-- No pair stands for a member under a denied name. -/
theorem isDenied_addPairs {members members' : List (String × Value)} {pairs : List Value}
    (hm : ∀ p ∈ members, Security.isDenied p.1 = false)
    (h : pairs.foldlM addPair members = .ok members') :
    ∀ p ∈ members', Security.isDenied p.1 = false := by
  induction pairs generalizing members with
  | nil =>
    cases h
    exact hm
  | cons pair pairs ih =>
    rw [List.foldlM_cons] at h
    cases hadd : addPair members pair with
    | error e =>
      rw [hadd] at h
      cases h
    | ok next =>
      rw [hadd] at h
      exact ih (isDenied_addPair hm hadd) h

end Native

namespace MatchLogic
variable {L : MatchLogic} {A : L.Mode} {w : L.World} {n : Nat} {r : Reach}
  {call call' : Call} {v v' : Value} {args args' : List Value}

theorem stringify (hv : L.Match w v v') {indent indent' : Value} (hi : L.Match w indent indent') :
    L.Holds A w n r (Native.stringify v indent) (Native.stringify v' indent') L.Match := by
  have hR := L.resembles w
  unfold Native.stringify
  rw [(hR.looks hv).isOmitted, hR.indentation hi]
  split
  · exact resultPlain rfl
  · exact seq (ofAnswers (hR.toJson hv) fun _ _ h => h.symm) fun _ _ _ => newString _

theorem sourceItems (hv : L.Match w v v') :
    L.Holds A w n r (Native.sourceItems v) (Native.sourceItems v') L.MatchAll := by
  have hR := L.resembles w
  cases hR.looks hv with
  | array hitems => exact L.result hitems
  | @object _ _ members members' hmembers =>
    have hlength : (members'.lookup "length").map Value.toNumber =
        (members.lookup "length").map Value.toNumber := by
      have hlookup := hmembers.lookup "length"
      generalize members.lookup "length" = o at hlookup
      generalize members'.lookup "length" = o' at hlookup
      cases hlookup with
      | some h => exact congrArg some (hR.toNumber h)
      | none => rfl
    unfold Native.sourceItems
    dsimp only
    rw [hlength]
    refine seq (L.ofCall L.limits) fun w₁ _ _ => guard rfl fun _ => L.result ?_
    exact (L.resembles w₁).forall₂_plain fun u hu => List.eq_of_mem_replicate hu ▸ rfl
  | plain hplain =>
    cases v with
    | string s =>
      refine L.result (hR.forall₂_plain fun u hu => ?_)
      obtain ⟨c, -, rfl⟩ := List.mem_map.mp hu
      rfl
    | array | object | closure | native => cases hplain
    | _ => exact L.result .nil
  | native | closure => exact L.result .nil

theorem arrayFrom (hcall : L.Calls n call call') (hargs : L.MatchAll w args args') :
    L.Holds A w n r (Native.arrayFrom call args) (Native.arrayFrom call' args') L.Match := by
  have hsecond := (L.resembles w).argument hargs 1
  unfold Native.arrayFrom
  dsimp only
  rw [((L.resembles w).looks hsecond).isCallable]
  refine L.bind (sourceItems ((L.resembles w).argument hargs 0)) fun w₁ items _ hw₁ hitems => ?_
  split
  · exact L.bind (mapItems hcall (L.mono hw₁ hsecond) hitems) fun w₂ out _ _ hout => newList hout
  · exact newList hitems

theorem membersOf (hv : L.Match w v v') :
    L.MatchMembers w (Native.membersOf v) (Native.membersOf v') := by
  refine ⟨(L.resembles w).membersOf hv, fun p hp => ?_⟩
  unfold Native.membersOf at hp
  split at hp
  · exact L.keys hv p hp
  · obtain ⟨⟨u, i⟩, -, rfl⟩ := List.mem_map.mp hp
    exact L.allowedKeys (Native.isDenied_toString i)
  · cases hp

theorem errorObject (hv : L.Match w v v') :
    L.Holds A w n r (Native.errorObject v) (Native.errorObject v') L.Match := by
  unfold Native.errorObject
  rw [((L.resembles w).looks hv).isNullish, (L.resembles w).text hv]
  refine L.ofCall (L.plainObject _ fun p hp => ⟨L.allowedKeys ?_, ?_⟩)
  all_goals
    simp only [List.mem_cons, List.not_mem_nil, or_false] at hp
    rcases hp with rfl | rfl <;> rfl

theorem assigned (hargs : L.MatchAll w args args') :
    L.Holds A w n r
      (Eval.newObject ((args.flatMap Native.membersOf).foldl
        (fun ms p => Json.insertMember p.1 p.2 ms) []))
      (Eval.newObject ((args'.flatMap Native.membersOf).foldl
        (fun ms p => Json.insertMember p.1 p.2 ms) [])) L.Match := by
  have hmembers : SameMembers (L.Match w) (args.flatMap Native.membersOf)
      (args'.flatMap Native.membersOf) :=
    List.rel_flatMap hargs fun _ _ hv => (membersOf hv).1
  refine L.ofCall (L.newObject ⟨SameMembers.overlay .nil hmembers, ?_⟩)
  refine forall_overlay (List.forall_mem_nil _) fun p hp => ?_
  obtain ⟨v, hv, hp⟩ := List.mem_flatMap.mp hp
  obtain ⟨i, hi, rfl⟩ := List.mem_iff_getElem.mp hv
  exact (membersOf (hargs.get hi (hargs.length_eq ▸ hi))).2 p hp

/-- **A built-in function with arguments that belong together does the same on both sides.** -/
theorem runBuiltin (hcall : L.Calls n call call') (hargs : L.MatchAll w args args') (b : Builtin) :
    L.Holds A w n r (Native.runBuiltin call b args) (Native.runBuiltin call' b args') L.Match := by
  have hR := L.resembles w
  have hfirst := hR.argument hargs 0
  have hsecond := hR.argument hargs 1
  have hthird := hR.argument hargs 2
  have hempty : args'.isEmpty = args.isEmpty := by cases hargs <;> rfl
  have hmembers := membersOf hfirst
  unfold Native.runBuiltin
  simp only [hR.toNumber hfirst, hR.toNumber hsecond, hR.text hfirst, (hR.looks hfirst).truthy,
    (hR.looks hfirst).isArray, (hR.looks hsecond).isUndefined, hR.map_toNumber hargs, hempty,
    hR.textOr hthird]
  cases b with
  | random => exact seq (L.ofCall L.random) fun _ _ _ => resultPlain rfl
  | stringify => exact stringify hfirst hthird
  | parseJson => exact L.ofCall (L.parseJson _)
  | now => exact seq (L.ofCall L.now) fun _ _ _ => resultPlain rfl
  | string => exact newString _
  | arrayFrom => exact arrayFrom hcall hargs
  | arrayOf => exact newList hargs
  | keys =>
    exact newList (List.rel_map (fun _ _ hp => hp.1 ▸ plain rfl) hmembers.1)
  | values => exact newList hmembers.1.values
  | entries => exact L.ofCall (L.entries hmembers)
  | fromEntries =>
    have hpairs := hR.addPairs .nil (hR.looks hfirst).items
    refine L.bind (P := L.MatchMembers) ?_ fun w₁ ms _ _ hms => L.ofCall (L.newObject hms)
    rcases hpairs.cases with ⟨ms, ms', h, h', hms⟩ | ⟨e, h, h', he⟩
    · have hkeys := Native.isDenied_addPairs (List.forall_mem_nil _) h
      rw [h, h']
      exact L.result ⟨hms, fun p hp => L.allowedKeys (hkeys p hp)⟩
    · rw [h, h']
      exact L.fail e he
  | assign => exact assigned hargs
  | error => exact errorObject hfirst
  | decodeUriComponent =>
    dsimp only
    split
    · exact resultPlain rfl
    · exact L.fail _ rfl
  | require =>
    dsimp only
    split
    · rename_i v hv
      exact L.result (L.modules _ (mem_of_lookup hv))
    · exact L.fail _ rfl
  | words =>
    exact L.ofCall (L.plainArray _ (.words _))
  | fetch => exact L.ofCall (L.fetch _)
  | _ => exact resultPlain rfl

/-- **A function that is not written in the script language, called with arguments that belong
together, does the same on both sides.** -/
theorem run (hcall : L.Calls n call call') {f : Native} (hf : L.Match w (.native f) (.native f))
    (hargs : L.MatchAll w args args') :
    L.Holds A w n r (f.run call args) (f.run call' args') L.Match := by
  cases f with
  | builtin b => exact runBuiltin hcall hargs b
  | host id name arity => exact L.ofCall (L.runHost hf hargs)

theorem constructArray (hargs : L.MatchAll w args args') :
    L.Holds A w n r (Native.constructArray args) (Native.constructArray args') L.Match := by
  cases hargs with
  | nil => exact newList .nil
  | @cons v v' rest rest' hv hrest =>
    cases hrest with
    | nil =>
      cases (L.resembles w).looks hv with
      | plain hplain =>
        cases v with
        | number x =>
          unfold Native.constructArray
          refine seq (L.ofCall L.limits) fun w₁ _ _ => guard rfl fun _ => ?_
          refine L.ofCall (L.newArray ((L.resembles w₁).forall₂_plain fun v hv => ?_))
          rw [Array.toList_replicate] at hv
          exact List.eq_of_mem_replicate hv ▸ rfl
        | array | object | closure | native => cases hplain
        | _ => exact newList (.cons hv .nil)
      | _ => exact newList (.cons hv .nil)
    | cons hu hrest =>
      have h := newList (A := A) (n := n) (r := r) (L := L) (.cons hv (.cons hu hrest))
      cases (L.resembles w).looks hv with
      | plain => cases v <;> exact h
      | _ => exact h

/-- **What `new` makes belongs together.** -/
theorem construct (hcall : L.Calls n call call') (hargs : L.MatchAll w args args') (name : String) :
    L.Holds A w n r (Native.construct call name args) (Native.construct call' name args')
      L.Match := by
  have hR := L.resembles w
  unfold Native.construct
  simp only [hR.newInstant? hargs]
  split
  · refine seq (L.ofCall L.now) fun _ _ _ => ?_
    split
    · exact resultPlain rfl
    · exact L.fail _ rfl
  · exact errorObject (hR.argument hargs 0)
  · exact L.ofCall (L.plainObject _ (List.forall_mem_nil _))
  · exact constructArray hargs
  iterate 3 exact hcall.apply (L.builtin _) hargs
  · exact L.fail _ rfl

end MatchLogic
end Stencil.Script
