import Stencil.Proofs.Script.Content

/-! # Trees that are alike

Two trees are **alike** if they differ in nothing but what is said of their leaves: which functions
may be written in each other's places, by which kinds names may be declared, which functions lists
of statements may declare (`Trees`).  What is said also bounds the names that the trees read, and
those that they write: names are written that are assigned as such, and that are receivers of
methods that change them (`Method.changes`).  So it bounds the keys under which members are written
(`Expr.WritesAmong`).

Statements that declare functions are alike whatever they declare, because they do nothing when it
is their turn: their functions were bound when the block was entered, which `Trees.scopes` speaks of.
-/
namespace Stencil.Script

/-- Whether the method changes its receiver: in place, or by putting its answer there. -/
def Method.changes (key : String) : Bool :=
  (InPlace.ofName? key).isSome || key == "sort" || key == "reverse"

/-- Whether the property may be the key of a method that changes its receiver. -/
def Expr.mayChange : Expr → Bool
  | .string key => Method.changes key
  | _ => true

/-- The keys for which the property may stand are among the given ones. -/
def Expr.KeyAmong (K : String → Prop) : Expr → Prop
  | .string key => K key
  | _ => ∀ key, K key

/-- The keys of the member, and of those from which it is reached, are among the given ones. -/
def Expr.KeysAmong (K : String → Prop) : Expr → Prop
  | .member receiver property _ => receiver.KeysAmong K ∧ property.KeyAmong K
  | _ => True

/-- If the expression writes a member, it does so under given keys: it assigns it, or it calls a
method that may change it. -/
def Expr.WritesAmong (K : String → Prop) : Expr → Prop
  | .assign _ place _ | .update _ _ place => place.KeysAmong K
  | .call (.member receiver property _) _ _ => property.mayChange → receiver.KeysAmong K
  | _ => True

/-- What may stand in trees that are alike. -/
structure Trees where
  /-- The names that may be read. -/
  reads : String → Prop
  /-- The names that may be written themselves. -/
  writes : String → Prop
  /-- The keys under which members may be written. -/
  keys : String → Prop := fun _ => True
  /-- Whether a name may be declared, constant or not, in the first tree and in the second. -/
  declares : String → Bool → Bool → Prop
  /-- The functions that may be written in each other's places. -/
  functions : FunctionDef → FunctionDef → Prop
  /-- The lists of statements that may bind the functions that they declare. -/
  scopes : List Stmt → List Stmt → Prop
  /-- The statements whose names may be exported. -/
  exports : Stmt → Stmt → Prop

namespace Trees
variable (T : Trees)

/-- The expression may be assigned: if it is a name, it may be written, and if it is a member, it is
reached under keys that may be. -/
def Assigns (e : Expr) : Prop :=
  (∀ x, e = .name x → T.writes x) ∧ e.KeysAmong T.keys

/-- The expression may be called: if it is a method that may change its receiver, this may be
assigned. -/
def Calls : Expr → Prop
  | .member receiver property _ => property.mayChange → T.Assigns receiver
  | _ => True

/-- The place may be written: with no keys, only if its name may be. -/
structure Places (t : Target) : Prop where
  reads : T.reads t.root
  writes : t.keys = [] → T.writes t.root
  keys : ∀ key ∈ t.keys, T.keys key

/-- The place may be named by the expression: with no keys, only if that is its name, and otherwise
by the keys of the expression. -/
structure Names (e : Expr) (t : Target) : Prop where
  reads : T.reads t.root
  name : t.keys = [] → e = .name t.root
  keys : e.KeysAmong T.keys → ∀ key ∈ t.keys, T.keys key

theorem Names.places {T : Trees} {e : Expr} {t : Target} (h : T.Names e t) (he : T.Assigns e) :
    T.Places t where
  reads := h.reads
  writes hkeys := he.1 _ (h.name hkeys)
  keys := h.keys he.2

end Trees

section Like
variable (T : Trees)

mutual

/-- Two expressions are alike. -/
def Expr.Like : Expr → Expr → Prop
  | .number x, e' => e' = .number x
  | .string s, e' => e' = .string s
  | .bool b, e' => e' = .bool b
  | .null, e' => e' = .null
  | .undefined, e' => e' = .undefined
  | .name x, e' => e' = .name x ∧ T.reads x
  | .template parts, e' => ∃ parts', e' = .template parts' ∧ TemplatePart.AllLike parts parts'
  | .array items, e' => ∃ items', e' = .array items' ∧ Expr.AllLike items items'
  | .sequence items, e' => ∃ items', e' = .sequence items' ∧ Expr.AllLike items items'
  | .object entries, e' => ∃ entries', e' = .object entries' ∧ Expr.EntriesLike entries entries'
  | .member object property optional, e' => ∃ object' property',
    e' = .member object' property' optional ∧ object.Like object' ∧ property.Like property'
  | .call callee args optional, e' => ∃ callee' args', e' = .call callee' args' optional ∧
    callee.Like callee' ∧ Expr.AllLike args args' ∧ T.Calls callee
  | .construct callee args, e' => ∃ callee' args', e' = .construct callee' args' ∧
    callee.Like callee' ∧ Expr.AllLike args args'
  | .unary op operand, e' => ∃ operand', e' = .unary op operand' ∧ operand.Like operand'
  | .await operand, e' => ∃ operand', e' = .await operand' ∧ operand.Like operand'
  | .update op first place, e' => ∃ place', e' = .update op first place' ∧ place.Like place' ∧
    T.Assigns place
  | .binary op left right, e' => ∃ left' right', e' = .binary op left' right' ∧ left.Like left' ∧
    right.Like right'
  | .logical op left right, e' => ∃ left' right', e' = .logical op left' right' ∧ left.Like left' ∧
    right.Like right'
  | .conditional test consequent alternative, e' => ∃ test' consequent' alternative',
    e' = .conditional test' consequent' alternative' ∧ test.Like test' ∧
      consequent.Like consequent' ∧ alternative.Like alternative'
  | .assign op place value, e' => ∃ place' value', e' = .assign op place' value' ∧
    place.Like place' ∧ value.Like value' ∧ T.Assigns place
  | .function f, e' => ∃ f', e' = .function f' ∧ T.functions f f'
termination_by structural e => e

/-- Expressions are alike one by one. -/
def Expr.AllLike : List Expr → List Expr → Prop
  | [], es' => es' = []
  | e :: rest, es' => ∃ e' rest', es' = e' :: rest' ∧ e.Like e' ∧ Expr.AllLike rest rest'
termination_by structural es => es

/-- The members of object literals are alike one by one. -/
def Expr.EntriesLike : List (String × Expr) → List (String × Expr) → Prop
  | [], entries' => entries' = []
  | (key, e) :: rest, entries' => ∃ e' rest', entries' = (key, e') :: rest' ∧ e.Like e' ∧
    Expr.EntriesLike rest rest'
termination_by structural entries => entries

/-- The parts of template literals are alike one by one. -/
def TemplatePart.AllLike : List TemplatePart → List TemplatePart → Prop
  | [], parts' => parts' = []
  | .text s :: rest, parts' => ∃ rest', parts' = .text s :: rest' ∧ TemplatePart.AllLike rest rest'
  | .interpolation e :: rest, parts' => ∃ e' rest', parts' = .interpolation e' :: rest' ∧
    e.Like e' ∧ TemplatePart.AllLike rest rest'
termination_by structural parts => parts

end

/-- Expressions are alike or both missing. -/
def Expr.Like? : Option Expr → Option Expr → Prop
  | none, e' => e' = none
  | some e, o' => ∃ e', o' = some e' ∧ e.Like T e'

/-- Declarators are alike one by one, if names may be declared constant in this way. -/
def Stmt.DeclaratorsLike (constant constant' : Bool) :
    List (String × Option Expr) → List (String × Option Expr) → Prop
  | [], ds' => ds' = []
  | (name, init) :: rest, ds' => ∃ init' rest', ds' = (name, init') :: rest' ∧
    Expr.Like? T init init' ∧ T.declares name constant constant' ∧
    Stmt.DeclaratorsLike constant constant' rest rest'

mutual

/-- Two statements are alike. -/
def Stmt.Like : Stmt → Stmt → Prop
  | .expr e, s' => ∃ e', s' = .expr e' ∧ e.Like T e'
  | .throw e, s' => ∃ e', s' = .throw e' ∧ e.Like T e'
  | .exportDefault e, s' => ∃ e', s' = .exportDefault e' ∧ e.Like T e'
  | .decl kind ds, s' => ∃ kind' ds', s' = .decl kind' ds' ∧
    (kind' = .varDecl ↔ kind = .varDecl) ∧
    Stmt.DeclaratorsLike T (kind == .constDecl) (kind' == .constDecl) ds ds'
  | .function _, s' => ∃ f', s' = .function f'
  | .return value, s' => ∃ value', s' = .return value' ∧ Expr.Like? T value value'
  | .branch test consequent alternative, s' => ∃ test' consequent' alternative',
    s' = .branch test' consequent' alternative' ∧ test.Like T test' ∧ consequent.Like consequent' ∧
      Stmt.Like? alternative alternative'
  | .whileLoop test body, s' => ∃ test' body', s' = .whileLoop test' body' ∧ test.Like T test' ∧
    body.Like body'
  | .doLoop body test, s' => ∃ body' test', s' = .doLoop body' test' ∧ body.Like body' ∧
    test.Like T test'
  | .forLoop init test update body, s' => ∃ init' test' update' body',
    s' = .forLoop init' test' update' body' ∧ Stmt.Like? init init' ∧ Expr.Like? T test test' ∧
      Expr.Like? T update update' ∧ body.Like body'
  | .forOf name source body, s' => ∃ source' body', s' = .forOf name source' body' ∧
    source.Like T source' ∧ body.Like body'
  | .forIn name source body, s' => ∃ source' body', s' = .forIn name source' body' ∧
    source.Like T source' ∧ body.Like body'
  | .block body, s' => ∃ body', s' = .block body' ∧ T.scopes body body' ∧ Stmt.AllLike body body'
  | .export inner, s' => ∃ inner', s' = .export inner' ∧ T.exports inner inner' ∧
    inner.Like inner'
  | .break, s' => s' = .break
  | .continue, s' => s' = .continue
  | .empty, s' => s' = .empty
termination_by structural s => s

/-- Statements are alike one by one. -/
def Stmt.AllLike : List Stmt → List Stmt → Prop
  | [], body' => body' = []
  | s :: rest, body' => ∃ s' rest', body' = s' :: rest' ∧ s.Like s' ∧ Stmt.AllLike rest rest'
termination_by structural body => body

/-- Statements are alike or both missing. -/
def Stmt.Like? : Option Stmt → Option Stmt → Prop
  | none, s' => s' = none
  | some s, o' => ∃ s', o' = some s' ∧ s.Like s'
termination_by structural s => s

end

/-- The bodies of two functions are alike. -/
def FunctionBody.Like : FunctionBody → FunctionBody → Prop
  | .expr e, body' => ∃ e', body' = .expr e' ∧ e.Like T e'
  | .block body, b' => ∃ body', b' = .block body' ∧ T.scopes body body' ∧ Stmt.AllLike T body body'

end Like

/-! ## What does not differ -/

namespace Expr
variable {T : Trees}

/-- A string is only like itself. -/
theorem Like.string_iff {e e' : Expr} (h : e.Like T e') (s : String) :
    e' = .string s ↔ e = .string s := by
  cases e
  case string s' =>
    obtain rfl : e' = .string s' := h
    rfl
  all_goals
    refine iff_of_false (fun he => ?_) nofun
    subst he
    simp [Expr.Like] at h

/-- A name is only like itself. -/
theorem Like.name_iff {e e' : Expr} (h : e.Like T e') (x : String) :
    e' = .name x ↔ e = .name x := by
  cases e
  case name x' =>
    obtain ⟨rfl, -⟩ : e' = .name x' ∧ T.reads x' := h
    rfl
  all_goals
    refine iff_of_false (fun he => ?_) nofun
    subst he
    simp [Expr.Like] at h

/-- Only a name is like a name. -/
theorem Like.ne_name {e e' : Expr} (h : e.Like T e') (he : ∀ x, e ≠ .name x) (x : String) :
    e' ≠ .name x :=
  fun hx => he x ((h.name_iff x).mp hx)

/-- Only a member is like a member. -/
theorem Like.ne_member {e e' : Expr} (h : e.Like T e') (he : ∀ o p b, e ≠ .member o p b)
    (object property : Expr) (optional : Bool) : e' ≠ .member object property optional := by
  rintro rfl
  cases e <;> grind [Expr.Like]

/-- A property that may stand for the key of a method that changes its receiver. -/
theorem mayChange_of_key {e : Expr} {key : String} (h : ∀ s, e = .string s → key = s)
    (hkey : Method.changes key) : e.mayChange := by
  cases e with
  | string s => exact h s rfl ▸ hkey
  | _ => rfl

/-- The key for which the property stands is among those for which it may. -/
theorem KeyAmong.of_key {K : String → Prop} {e : Expr} {key : String} (hK : e.KeyAmong K)
    (h : ∀ s, e = .string s → key = s) : K key := by
  cases e with
  | string s => exact h s rfl ▸ hK
  | _ => exact hK key

theorem Like.isPlace {e e' : Expr} (h : e.Like T e') : e'.isPlace = e.isPlace := by
  induction e using Expr.isPlace.induct generalizing e' with
  | case1 x =>
    obtain ⟨rfl, -⟩ : e' = .name x ∧ T.reads x := h
    rfl
  | case2 object property optional ih =>
    obtain ⟨object', property', rfl, hobject, -⟩ := h
    show object'.isPlace = object.isPlace
    exact ih hobject
  | case3 e hname hmember =>
    cases e <;> grind [Expr.Like, Expr.isPlace]

theorem Like.describe {e e' : Expr} (h : e.Like T e') : e'.describe = e.describe := by
  induction e using Expr.describe.induct generalizing e' with
  | case2 object key optional ih =>
    obtain ⟨object', property', rfl, hobject, hproperty⟩ := h
    obtain rfl := (hproperty.string_iff key).mpr rfl
    rw [Expr.describe, Expr.describe, ih hobject]
  | case3 object property optional hproperty ih =>
    obtain ⟨object', property', rfl, hobject, hlike⟩ := h
    have hproperty' : ∀ key, property' ≠ .string key :=
      fun key he => hproperty key ((hlike.string_iff key).mp he)
    rw [Expr.describe, Expr.describe, ih hobject]
    · exact hproperty
    · exact hproperty'
  | case8 e => cases e <;> grind [Expr.Like, Expr.describe]
  | _ => grind [Expr.Like, Expr.describe]

end Expr

/-! ## Trees are like themselves -/

theorem Expr.keysAmong_of_forall {K : String → Prop} (h : ∀ key, K key) (e : Expr) :
    e.KeysAmong K := by
  induction e using Expr.isPlace.induct with
  | case1 => trivial
  | case2 receiver property optional ih =>
    refine ⟨ih, ?_⟩
    cases property with
    | string key => exact h key
    | _ => exact h
  | case3 e _ hmember =>
    cases e with
    | member receiver property optional => exact (hmember receiver property optional rfl).elim
    | _ => trivial

theorem Expr.writesAmong_of_forall {K : String → Prop} (h : ∀ key, K key) (e : Expr) :
    e.WritesAmong K := by
  unfold WritesAmong
  split
  · exact keysAmong_of_forall h _
  · exact keysAmong_of_forall h _
  · exact fun _ => keysAmong_of_forall h _
  · trivial

/-- Any function writes members under some keys. -/
theorem FunctionDef.writesAmong_true (f : FunctionDef) (_ : True) :
    ∀ d ∈ f.body.parts, d.WritesAmong fun _ => True :=
  fun d _ => d.writesAmong_of_forall fun _ => trivial

/-- Trees that are the same, in which functions are written that have one of the definitions, and
members under the given keys. -/
def Trees.within (D : FunctionDef → Prop) (K : String → Prop) : Trees where
  reads _ := True
  writes _ := True
  keys := K
  declares _ constant constant' := constant' = constant
  functions f f' := f' = f ∧ D f
  scopes body body' := body' = body ∧ ∀ f ∈ Stmt.functionsOf body, D f
  exports s s' := s' = s

section
variable {D : FunctionDef → Prop} {K : String → Prop}

theorem Trees.within_assigns {e : Expr} (h : e.KeysAmong K) : (within D K).Assigns e :=
  ⟨fun _ _ => trivial, h⟩

theorem Trees.within_calls {callee : Expr} {args : List Expr} {optional : Bool}
    (h : (Expr.call callee args optional).WritesAmong K) : (within D K).Calls callee := by
  cases callee with
  | member => exact fun hchanges => within_assigns (h hchanges)
  | _ => trivial

mutual

theorem Expr.like_self : ∀ e : Expr, (∀ f ∈ e.functions, D f) →
    (∀ d ∈ e.parts, d.WritesAmong K) → e.Like (.within D K) e
  | .template parts, h, hw =>
    ⟨_, rfl, TemplatePart.allLike_self parts h (List.forall_mem_cons.mp hw).2⟩
  | .array items, h, hw | .sequence items, h, hw =>
    ⟨_, rfl, Expr.allLike_self items h (List.forall_mem_cons.mp hw).2⟩
  | .object entries, h, hw =>
    ⟨_, rfl, Expr.entriesLike_self entries h (List.forall_mem_cons.mp hw).2⟩
  | .member object property _, h, hw => by
    obtain ⟨hobject, hproperty⟩ := List.forall_mem_append.mp h
    obtain ⟨hobject', hproperty'⟩ := List.forall_mem_append.mp (List.forall_mem_cons.mp hw).2
    exact ⟨_, _, rfl, object.like_self hobject hobject', property.like_self hproperty hproperty'⟩
  | .call callee args _, h, hw => by
    obtain ⟨hcallee, hargs⟩ := List.forall_mem_append.mp h
    obtain ⟨hcall, hw⟩ := List.forall_mem_cons.mp hw
    obtain ⟨hcallee', hargs'⟩ := List.forall_mem_append.mp hw
    exact ⟨_, _, rfl, callee.like_self hcallee hcallee', Expr.allLike_self args hargs hargs',
      Trees.within_calls hcall⟩
  | .construct callee args, h, hw => by
    obtain ⟨hcallee, hargs⟩ := List.forall_mem_append.mp h
    obtain ⟨hcallee', hargs'⟩ := List.forall_mem_append.mp (List.forall_mem_cons.mp hw).2
    exact ⟨_, _, rfl, callee.like_self hcallee hcallee', Expr.allLike_self args hargs hargs'⟩
  | .unary _ operand, h, hw | .await operand, h, hw =>
    ⟨_, rfl, operand.like_self h (List.forall_mem_cons.mp hw).2⟩
  | .update _ _ place, h, hw => by
    obtain ⟨hplace, hw⟩ := List.forall_mem_cons.mp hw
    exact ⟨_, rfl, place.like_self h hw, Trees.within_assigns hplace⟩
  | .binary _ left right, h, hw | .logical _ left right, h, hw => by
    obtain ⟨hleft, hright⟩ := List.forall_mem_append.mp h
    obtain ⟨hleft', hright'⟩ := List.forall_mem_append.mp (List.forall_mem_cons.mp hw).2
    exact ⟨_, _, rfl, left.like_self hleft hleft', right.like_self hright hright'⟩
  | .assign _ place value, h, hw => by
    obtain ⟨hplace, hvalue⟩ := List.forall_mem_append.mp h
    obtain ⟨hassign, hw⟩ := List.forall_mem_cons.mp hw
    obtain ⟨hplace', hvalue'⟩ := List.forall_mem_append.mp hw
    exact ⟨_, _, rfl, place.like_self hplace hplace', value.like_self hvalue hvalue',
      Trees.within_assigns hassign⟩
  | .conditional test consequent alternative, h, hw => by
    obtain ⟨hfirst, halternative⟩ := List.forall_mem_append.mp h
    obtain ⟨htest, hconsequent⟩ := List.forall_mem_append.mp hfirst
    obtain ⟨hfirst', halternative'⟩ := List.forall_mem_append.mp (List.forall_mem_cons.mp hw).2
    obtain ⟨htest', hconsequent'⟩ := List.forall_mem_append.mp hfirst'
    exact ⟨_, _, _, rfl, test.like_self htest htest', consequent.like_self hconsequent hconsequent',
      alternative.like_self halternative halternative'⟩
  | .function f, h, _ => ⟨_, rfl, rfl, h f f.mem_functions⟩
  | .name _, _, _ => ⟨rfl, trivial⟩
  | .number _, _, _ | .string _, _, _ | .bool _, _, _ | .null, _, _ | .undefined, _, _ => rfl

theorem Expr.allLike_self : ∀ es : List Expr, (∀ f ∈ Expr.functionsOf es, D f) →
    (∀ d ∈ Expr.partsOf es, d.WritesAmong K) → Expr.AllLike (.within D K) es es
  | [], _, _ => rfl
  | e :: rest, h, hw => by
    obtain ⟨he, hrest⟩ := List.forall_mem_append.mp h
    obtain ⟨he', hrest'⟩ := List.forall_mem_append.mp hw
    exact ⟨_, _, rfl, e.like_self he he', Expr.allLike_self rest hrest hrest'⟩

theorem Expr.entriesLike_self : ∀ entries : List (String × Expr),
    (∀ f ∈ Expr.functionsOfEntries entries, D f) →
    (∀ d ∈ Expr.partsOfEntries entries, d.WritesAmong K) →
    Expr.EntriesLike (.within D K) entries entries
  | [], _, _ => rfl
  | (_, e) :: rest, h, hw => by
    obtain ⟨he, hrest⟩ := List.forall_mem_append.mp h
    obtain ⟨he', hrest'⟩ := List.forall_mem_append.mp hw
    exact ⟨_, _, rfl, e.like_self he he', Expr.entriesLike_self rest hrest hrest'⟩

theorem TemplatePart.allLike_self : ∀ parts : List TemplatePart,
    (∀ f ∈ TemplatePart.functionsOf parts, D f) →
    (∀ d ∈ TemplatePart.partsOf parts, d.WritesAmong K) →
    TemplatePart.AllLike (.within D K) parts parts
  | [], _, _ => rfl
  | .text _ :: rest, h, hw => ⟨_, rfl, TemplatePart.allLike_self rest h hw⟩
  | .interpolation e :: rest, h, hw => by
    obtain ⟨he, hrest⟩ := List.forall_mem_append.mp h
    obtain ⟨he', hrest'⟩ := List.forall_mem_append.mp hw
    exact ⟨_, _, rfl, e.like_self he he', TemplatePart.allLike_self rest hrest hrest'⟩

end

theorem Expr.like?_self (e : Option Expr) (h : ∀ f ∈ Expr.functionsOf? e, D f)
    (hw : ∀ d ∈ Expr.partsOf? e, d.WritesAmong K) : Expr.Like? (.within D K) e e := by
  cases e with
  | none => rfl
  | some e => exact ⟨_, rfl, e.like_self h hw⟩

theorem Stmt.declaratorsLike_self (constant : Bool) (ds : List (String × Option Expr))
    (h : ∀ f ∈ Stmt.functionsOfDeclarators ds, D f)
    (hw : ∀ d ∈ Stmt.partsOfDeclarators ds, d.WritesAmong K) :
    Stmt.DeclaratorsLike (.within D K) constant constant ds ds := by
  induction ds with
  | nil => rfl
  | cons d rest ih =>
    obtain ⟨hd, hrest⟩ := List.forall_mem_append.mp h
    obtain ⟨hd', hrest'⟩ := List.forall_mem_append.mp hw
    exact ⟨_, _, rfl, Expr.like?_self d.2 hd hd', rfl, ih hrest hrest'⟩

mutual

theorem Stmt.like_self : ∀ s : Stmt, (∀ f ∈ s.functions, D f) →
    (∀ d ∈ s.parts, d.WritesAmong K) → s.Like (.within D K) s
  | .expr e, h, hw | .throw e, h, hw | .exportDefault e, h, hw => ⟨_, rfl, e.like_self h hw⟩
  | .decl _ ds, h, hw => ⟨_, _, rfl, .rfl, Stmt.declaratorsLike_self _ ds h hw⟩
  | .function _, _, _ => ⟨_, rfl⟩
  | .return value, h, hw => ⟨_, rfl, Expr.like?_self value h hw⟩
  | .branch test consequent alternative, h, hw => by
    obtain ⟨hfirst, halternative⟩ := List.forall_mem_append.mp h
    obtain ⟨htest, hconsequent⟩ := List.forall_mem_append.mp hfirst
    obtain ⟨hfirst', halternative'⟩ := List.forall_mem_append.mp hw
    obtain ⟨htest', hconsequent'⟩ := List.forall_mem_append.mp hfirst'
    exact ⟨_, _, _, rfl, test.like_self htest htest', consequent.like_self hconsequent hconsequent',
      Stmt.like?_self alternative halternative halternative'⟩
  | .whileLoop test body, h, hw => by
    obtain ⟨htest, hbody⟩ := List.forall_mem_append.mp h
    obtain ⟨htest', hbody'⟩ := List.forall_mem_append.mp hw
    exact ⟨_, _, rfl, test.like_self htest htest', body.like_self hbody hbody'⟩
  | .doLoop body test, h, hw => by
    obtain ⟨htest, hbody⟩ := List.forall_mem_append.mp h
    obtain ⟨htest', hbody'⟩ := List.forall_mem_append.mp hw
    exact ⟨_, _, rfl, body.like_self hbody hbody', test.like_self htest htest'⟩
  | .forLoop init test update body, h, hw => by
    obtain ⟨hhead, hbody⟩ := List.forall_mem_append.mp h
    obtain ⟨hfirst, hupdate⟩ := List.forall_mem_append.mp hhead
    obtain ⟨hinit, htest⟩ := List.forall_mem_append.mp hfirst
    obtain ⟨hhead', hbody'⟩ := List.forall_mem_append.mp hw
    obtain ⟨hfirst', hupdate'⟩ := List.forall_mem_append.mp hhead'
    obtain ⟨hinit', htest'⟩ := List.forall_mem_append.mp hfirst'
    exact ⟨_, _, _, _, rfl, Stmt.like?_self init hinit hinit', Expr.like?_self test htest htest',
      Expr.like?_self update hupdate hupdate', body.like_self hbody hbody'⟩
  | .forOf _ source body, h, hw | .forIn _ source body, h, hw => by
    obtain ⟨hsource, hbody⟩ := List.forall_mem_append.mp h
    obtain ⟨hsource', hbody'⟩ := List.forall_mem_append.mp hw
    exact ⟨_, _, rfl, source.like_self hsource hsource', body.like_self hbody hbody'⟩
  | .block body, h, hw => ⟨_, rfl, ⟨rfl, h⟩, Stmt.allLike_self body h hw⟩
  | .export inner, h, hw => ⟨_, rfl, rfl, inner.like_self h hw⟩
  | .break, _, _ | .continue, _, _ | .empty, _, _ => rfl

theorem Stmt.allLike_self : ∀ body : List Stmt, (∀ f ∈ Stmt.functionsOf body, D f) →
    (∀ d ∈ Stmt.partsOf body, d.WritesAmong K) → Stmt.AllLike (.within D K) body body
  | [], _, _ => rfl
  | s :: rest, h, hw => by
    obtain ⟨hs, hrest⟩ := List.forall_mem_append.mp h
    obtain ⟨hs', hrest'⟩ := List.forall_mem_append.mp hw
    exact ⟨_, _, rfl, s.like_self hs hs', Stmt.allLike_self rest hrest hrest'⟩

theorem Stmt.like?_self : ∀ s : Option Stmt, (∀ f ∈ Stmt.functionsOf? s, D f) →
    (∀ d ∈ Stmt.partsOf? s, d.WritesAmong K) → Stmt.Like? (.within D K) s s
  | none, _, _ => rfl
  | some s, h, hw => ⟨_, rfl, s.like_self h hw⟩

end

theorem FunctionBody.like_self (body : FunctionBody) (h : ∀ f ∈ body.functions, D f)
    (hw : ∀ d ∈ body.parts, d.WritesAmong K) : body.Like (.within D K) body := by
  cases body with
  | expr e => exact ⟨_, rfl, e.like_self h hw⟩
  | block body => exact ⟨_, rfl, ⟨rfl, h⟩, Stmt.allLike_self body h hw⟩

end

end Stencil.Script
