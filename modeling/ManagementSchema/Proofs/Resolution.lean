-- Which references have a type, by rules that know of no guard, and that the
-- resolver finds just these types. A derivation is finite, so it goes through
-- no definition twice; and the names under the guard are a chain, each of them
-- leading to the next, so a name that is met again leads to itself. No name is
-- there twice, so the search ends before its depth is used up.
import Mathlib.Data.List.Nodup
import Mathlib.Data.List.Perm.Subperm
import Mathlib.Logic.Relation
import ManagementSchema.Proofs.BuiltValues
import ManagementSchema.Proofs.References

namespace ManagementSchema

namespace Manifest

open Relation

variable {types : Dictionary TypeDefinition} {reference name other : String} {type : OpenType}

/-! ## The rules -/

/-- The reference has the type. Names of kinds go before names of definitions, and a definition
makes a type of the types of its own references. -/
inductive Derives (types : Dictionary TypeDefinition) : String → OpenType → Prop
  | unboxed {reference name : String} {dimension : Nat} {kind : Kind} :
      Reference.Written reference (dimension + 1) name → Kind.ofPrimitiveName? name = some kind →
      Derives types reference (.array ⟨dimension + 1, .simple kind, true⟩)
  | kind {reference name : String} {dimension : Nat} {kind : Kind} {type : OpenType} :
      Reference.Calls reference dimension name → Kind.ofName? name = some kind →
      Reference.Over dimension (.simple kind) type → Derives types reference type
  | definition {reference name : String} {dimension : Nat} {definition : TypeDefinition}
      {typeOf : String → OpenType} {element type : OpenType} :
      Reference.Calls reference dimension name → Kind.ofName? name = none →
      types.get? name = some definition → (∀ r ∈ definition.references, Derives types r (typeOf r)) →
      definition.Makes typeOf name element → Reference.Over dimension element type →
      Derives types reference type

/-- The definition can be built under a name, and gives the type. -/
def Builds (types : Dictionary TypeDefinition) (name : String) (definition : TypeDefinition)
    (type : OpenType) : Prop :=
  ∃ typeOf : String → OpenType,
    (∀ r ∈ definition.references, Derives types r (typeOf r)) ∧ definition.Makes typeOf name type

/-- The type of a name without brackets. -/
def NameDerives (types : Dictionary TypeDefinition) (name : String) (type : OpenType) : Prop :=
  (∃ kind, Kind.ofName? name = some kind ∧ type = .simple kind) ∨
    Kind.ofName? name = none ∧ ∃ definition, types.get? name = some definition ∧
      Builds types name definition type

theorem derives_iff : Derives types reference type ↔
    (∃ dimension name kind, Reference.Written reference (dimension + 1) name ∧
      Kind.ofPrimitiveName? name = some kind ∧ type = .array ⟨dimension + 1, .simple kind, true⟩) ∨
    ∃ dimension name element, Reference.Calls reference dimension name ∧
      NameDerives types name element ∧ Reference.Over dimension element type := by
  refine ⟨?_, ?_⟩
  · rintro (⟨hwritten, hkind⟩ | ⟨hcalls, hkind, hover⟩ |
      ⟨hcalls, hnone, hget, hrefs, hmakes, hover⟩)
    · exact .inl ⟨_, _, _, hwritten, hkind, rfl⟩
    · exact .inr ⟨_, _, _, hcalls, .inl ⟨_, hkind, rfl⟩, hover⟩
    · exact .inr ⟨_, _, _, hcalls, .inr ⟨hnone, _, hget, _, hrefs, hmakes⟩, hover⟩
  · rintro (⟨_, _, _, hwritten, hkind, rfl⟩ | ⟨_, _, _, hcalls, hname, hover⟩)
    · exact .unboxed hwritten hkind
    · rcases hname with ⟨_, hkind, rfl⟩ | ⟨hnone, _, hget, _, hrefs, hmakes⟩
      · exact .kind hcalls hkind hover
      · exact .definition hcalls hnone hget hrefs hmakes hover

/-! ## From definition to definition -/

/-- The reference asks for the definition of a name. -/
def Refers (types : Dictionary TypeDefinition) (reference name : String) : Prop :=
  ∃ dimension, Reference.Calls reference dimension name ∧ Kind.ofName? name = none ∧
    (types.get? name).isSome = true

/-- Some reference of the definition asks for the next one. -/
def Uses (types : Dictionary TypeDefinition) (name next : String) : Prop :=
  ∃ definition, types.get? name = some definition ∧
    ∃ r ∈ definition.references, Refers types r next

/-- The next definition is asked for when the types of all earlier references have been found. -/
def Enters (types : Dictionary TypeDefinition) (name next : String) : Prop :=
  ∃ definition before r after, types.get? name = some definition ∧
    definition.references = before ++ r :: after ∧
      (∀ earlier ∈ before, ∃ type, Derives types earlier type) ∧ Refers types r next

theorem Enters.uses (h : Enters types name other) : Uses types name other := by
  obtain ⟨definition, before, r, after, hget, hsplit, _, hrefers⟩ := h
  refine ⟨definition, hget, r, ?_, hrefers⟩
  rw [hsplit]
  simp

theorem Refers.unique (h : Refers types reference name) (h' : Refers types reference other) :
    name = other := by
  obtain ⟨_, hcalls, _⟩ := h
  obtain ⟨_, hcalls', _⟩ := h'
  exact (hcalls.unique hcalls').2

/-- What a reference with a type asks for, leads nowhere without end: its derivation contains
those of all that it leads to. -/
theorem Derives.acc (h : Derives types reference type) (hrefers : Refers types reference name) :
    Acc (flip (Uses types)) name := by
  induction h generalizing name with
  | unboxed hwritten hkind =>
    obtain ⟨_, ⟨hwritten', _, hplain⟩, _⟩ := hrefers
    obtain ⟨rfl, rfl⟩ := hwritten.unique hwritten'
    simp [hkind] at hplain
  | kind hcalls hkind _ =>
    obtain ⟨_, hcalls', hnone, _⟩ := hrefers
    rw [(hcalls.unique hcalls').2, hnone] at hkind
    cases hkind
  | definition hcalls _ hget _ _ _ ih =>
    obtain ⟨_, hcalls', _⟩ := hrefers
    obtain rfl := (hcalls.unique hcalls').2
    refine Acc.intro _ ?_
    rintro next ⟨definition, hget', r, hr, hnext⟩
    obtain rfl := Option.some.inj (hget.symm.trans hget')
    exact ih r hr hnext

theorem acc_of_uses (h : Acc (flip (Uses types)) name)
    (hreach : ReflTransGen (Uses types) name other) : Acc (flip (Uses types)) other := by
  induction hreach with
  | refl => exact h
  | tail _ huses ih => exact ih.inv huses

/-- Nothing that leads nowhere without end leads to itself. -/
theorem not_uses_self (h : Acc (flip (Uses types)) name) : ¬ TransGen (Uses types) name name := by
  induction h with
  | intro name _ ih =>
    intro hself
    obtain ⟨next, huses, hback⟩ := TransGen.head'_iff.mp hself
    exact ih next huses (TransGen.tail'_iff.mpr ⟨name, hback, huses⟩)

/-- The definition leads, by what it enters, to one that leads to itself. -/
def Endless (types : Dictionary TypeDefinition) (name : String) : Prop :=
  ∃ self, ReflTransGen (Enters types) name self ∧ TransGen (Enters types) self self

theorem Endless.next (h : Endless types name) : ∃ next, Enters types name next ∧ Endless types next := by
  obtain ⟨self, hreach, hself⟩ := h
  rcases hreach.cases_head with rfl | ⟨next, henters, hnext⟩
  · obtain ⟨next, henters, hback⟩ := TransGen.head'_iff.mp hself
    exact ⟨next, henters, name, hback, hself⟩
  · exact ⟨next, henters, self, hnext, hself⟩

theorem Endless.not_acc (h : Endless types name) : ¬ Acc (flip (Uses types)) name := by
  obtain ⟨self, hreach, hself⟩ := h
  intro hacc
  have huses : ReflTransGen (Uses types) name self := ReflTransGen.mono (fun _ _ h => h.uses) _ _ hreach
  have hcycle : TransGen (Uses types) self self := TransGen.mono (fun _ _ h => h.uses) _ _ hself
  exact not_uses_self (acc_of_uses hacc huses) hcycle

/-! ## One name -/

variable {depth : Nat} {guard : List String} {definition : TypeDefinition} {kind : Kind}

theorem restores_resolveName (depth : Nat) (name : String) :
    (resolveName types depth name).Restores := by
  induction depth generalizing name with
  | zero =>
    unfold resolveName
    split
    · exact Resolver.restores_pure _
    · split
      · exact Resolver.restores_throw _
      · refine Resolver.restores_get.bind fun entered => ?_
        split
        · exact Resolver.restores_throw _
        · exact Resolver.restores_throw _
  | succ depth ih =>
    unfold resolveName
    split
    · exact Resolver.restores_pure _
    · split
      · exact Resolver.restores_throw _
      · rename_i definition _
        refine Resolver.restores_get.bind fun entered => ?_
        split
        · exact Resolver.restores_throw _
        · apply Resolver.Restores.inside
          exact TypeDefinition.restores_resolve (Reference.restores_resolve ih) definition

theorem restores_resolveReference (depth : Nat) (reference : String) :
    (resolveReference types depth reference).Restores :=
  Reference.restores_resolve (restores_resolveName depth) reference

theorem outcome_kind (h : Kind.ofName? name = some kind) :
    (resolveName types depth name).outcome guard = .ok (.simple kind) := by
  cases depth <;> simp [resolveName, h]

theorem outcome_unknown (hnone : Kind.ofName? name = none) (hget : types.get? name = none) :
    (resolveName types depth name).outcome guard = .error (.unknownType name) := by
  cases depth <;> simp [resolveName, hnone, hget]

/-- A name under the guard is refused. -/
theorem outcome_guarded (hnone : Kind.ofName? name = none) (hget : types.get? name = some definition)
    (hmem : name ∈ guard) :
    (resolveName types depth name).outcome guard = .error (.selfReference name) := by
  cases depth <;> simp [resolveName, hnone, hget, Resolver.outcome_bind Resolver.restores_get, hmem]

/-- A name that is not under the guard stands for what its definition makes, with the name under
the guard. -/
theorem outcome_entered (hnone : Kind.ofName? name = none) (hget : types.get? name = some definition)
    (hmem : name ∉ guard) :
    (resolveName types (depth + 1) name).outcome guard =
      (definition.resolve (resolveReference types depth) name).outcome (name :: guard) := by
  rw [resolveName, hnone]
  simp only [hget]
  rw [Resolver.outcome_bind Resolver.restores_get, Resolver.outcome_get, Outcome.ok_bind,
    if_neg hmem]
  rfl

/-- The depth is enough under the guard: names that may still be entered are no more than that. -/
structure Covers (types : Dictionary TypeDefinition) (depth : Nat) (guard : List String) : Prop where
  nodup : guard.Nodup
  defined : guard ⊆ types.keys
  enough : types.size ≤ depth + guard.length

theorem covers_nil (h : types.size ≤ depth) : Covers types depth [] :=
  ⟨List.nodup_nil, List.nil_subset _, h⟩

/-- With no depth left, all names are under the guard. -/
theorem Covers.mem (h : Covers types 0 guard) (hget : types.get? name = some definition) :
    name ∈ guard := by
  by_contra hmem
  have hsubset : name :: guard ⊆ types.keys :=
    List.cons_subset.mpr ⟨Dictionary.mem_keys_of_get? hget, h.defined⟩
  have hnodup : (name :: guard).Nodup := List.nodup_cons.mpr ⟨hmem, h.nodup⟩
  have hlength := (List.subperm_of_subset hnodup hsubset).length_le
  have henough := h.enough
  simp only [Dictionary.keys, Dictionary.size, List.length_map, List.length_cons] at hlength henough
  omega

theorem Covers.cons (h : Covers types (depth + 1) guard) (hget : types.get? name = some definition)
    (hmem : name ∉ guard) : Covers types depth (name :: guard) := by
  refine ⟨List.nodup_cons.mpr ⟨hmem, h.nodup⟩, ?_, ?_⟩
  · exact List.cons_subset.mpr ⟨Dictionary.mem_keys_of_get? hget, h.defined⟩
  · have henough := h.enough
    simp only [List.length_cons]
    omega

/-- What becomes of a name. -/
inductive Fate (types : Dictionary TypeDefinition) (guard : List String) (name : String) : Nat → Prop
  | kind {depth : Nat} {kind : Kind} : Kind.ofName? name = some kind →
      (resolveName types depth name).outcome guard = .ok (.simple kind) → Fate types guard name depth
  | unknown {depth : Nat} : Kind.ofName? name = none → types.get? name = none →
      (resolveName types depth name).outcome guard = .error (.unknownType name) →
      Fate types guard name depth
  | guarded {depth : Nat} {definition : TypeDefinition} : Kind.ofName? name = none →
      types.get? name = some definition → name ∈ guard →
      (resolveName types depth name).outcome guard = .error (.selfReference name) →
      Fate types guard name depth
  | entered {depth : Nat} {definition : TypeDefinition} : Kind.ofName? name = none →
      types.get? name = some definition → name ∉ guard → Covers types depth (name :: guard) →
      (resolveName types (depth + 1) name).outcome guard =
        (definition.resolve (resolveReference types depth) name).outcome (name :: guard) →
      Fate types guard name (depth + 1)

theorem fate (h : Covers types depth guard) (name : String) : Fate types guard name depth := by
  rcases hkind : Kind.ofName? name with _ | kind
  · rcases hget : types.get? name with _ | definition
    · exact .unknown hkind hget (outcome_unknown hkind hget)
    · by_cases hmem : name ∈ guard
      · exact .guarded hkind hget hmem (outcome_guarded hkind hget hmem)
      · cases depth with
        | zero => exact absurd (h.mem hget) hmem
        | succ depth =>
          exact .entered hkind hget hmem (h.cons hget hmem) (outcome_entered hkind hget hmem)
  · exact .kind hkind (outcome_kind hkind)

/-- A name that is entered fails for a cause that comes of names when the first reference of its
definition that gives no type calls a name that does. -/
theorem entered_fails_iff {cause : ResolveError} (hcause : cause.OfName)
    (houtcome : (resolveName types (depth + 1) name).outcome guard =
      (definition.resolve (resolveReference types depth) name).outcome (name :: guard)) :
    (resolveName types (depth + 1) name).FailsBy guard cause ↔
      ∃ before r after dimension called, definition.references = before ++ r :: after ∧
        (∀ earlier ∈ before, ∃ type,
          (resolveReference types depth earlier).outcome (name :: guard) = .ok type) ∧
        Reference.Calls r dimension called ∧
        (resolveName types depth called).FailsBy (name :: guard) cause := by
  have hsame : (resolveName types (depth + 1) name).FailsBy guard cause ↔
      (definition.resolve (resolveReference types depth) name).FailsBy (name :: guard) cause := by
    unfold Resolver.FailsBy
    rw [houtcome]
  rw [hsame, TypeDefinition.failsBy_resolve (restores_resolveReference depth) hcause]
  refine exists_congr fun before => exists_congr fun r => exists_congr fun after => ?_
  unfold resolveReference
  rw [Reference.failsBy_resolve (restores_resolveName depth) hcause]
  simp

/-! ## What is found has the type -/

theorem derives_of_outcome {ofName : String → Resolver OpenType}
    (hrestores : ∀ name, (ofName name).Restores)
    (hname : ∀ name type, (ofName name).outcome guard = .ok type → NameDerives types name type)
    (h : (Reference.resolve ofName reference).outcome guard = .ok type) :
    Derives types reference type := by
  rcases Reference.empty_or_unboxed_or_calls reference with
    ⟨dimension, hwritten⟩ | ⟨dimension, name, kind, hwritten, hkind⟩ | ⟨dimension, name, hcalls⟩
  · rw [Reference.outcome_resolve_empty hwritten] at h
    cases h
  · rw [Reference.outcome_resolve_unboxed hwritten hkind] at h
    cases h
    exact .unboxed hwritten hkind
  · obtain ⟨element, helement, hover⟩ := (Reference.resolve_eq_ok_of_calls hrestores hcalls).mp h
    exact derives_iff.mpr (.inr ⟨dimension, name, element, hcalls, hname name element helement, hover⟩)

/-- What is found for a name has the type by the rules. -/
theorem nameDerives_of_outcome (hcovers : Covers types depth guard)
    (h : (resolveName types depth name).outcome guard = .ok type) :
    NameDerives types name type := by
  induction depth using Nat.strongRecOn generalizing guard name type with
  | _ depth ih =>
    cases fate hcovers name with
    | kind hkind houtcome =>
      rw [houtcome] at h
      cases h
      exact .inl ⟨_, hkind, rfl⟩
    | unknown _ _ houtcome =>
      rw [houtcome] at h
      cases h
    | guarded _ _ _ houtcome =>
      rw [houtcome] at h
      cases h
    | @entered shallower definition hnone hget _ hdeeper houtcome =>
      rw [houtcome, TypeDefinition.resolve_eq_ok (restores_resolveReference shallower)] at h
      obtain ⟨typeOf, hrefs, hmakes⟩ := h
      refine .inr ⟨hnone, definition, hget, typeOf, ?_, hmakes⟩
      intro r hr
      apply derives_of_outcome (restores_resolveName shallower) ?_ (hrefs r hr)
      intro name type hname
      exact ih shallower (Nat.lt_succ_self shallower) hdeeper hname

theorem derives_of_resolve (hcovers : Covers types depth guard)
    (h : (resolveReference types depth reference).outcome guard = .ok type) :
    Derives types reference type :=
  derives_of_outcome (restores_resolveName depth) (fun _ _ => nameDerives_of_outcome hcovers) h

/-! ## What has a type is found -/

/-- The reference leads to the definition of a name, by any number of definitions. -/
def Leads (types : Dictionary TypeDefinition) (reference name : String) : Prop :=
  ∃ first, Refers types reference first ∧ ReflTransGen (Uses types) first name

theorem Derives.acc_of_leads (h : Derives types reference type) (hleads : Leads types reference name) :
    Acc (flip (Uses types)) name := by
  obtain ⟨first, hrefers, hreach⟩ := hleads
  exact acc_of_uses (h.acc hrefers) hreach

/-- A reference with a type is not refused, when it leads to no name under the guard. -/
theorem resolve_of_derives (h : Derives types reference type) (hcovers : Covers types depth guard)
    (hfree : ∀ entered ∈ guard, ¬ Leads types reference entered) :
    (resolveReference types depth reference).outcome guard = .ok type := by
  induction h generalizing depth guard with
  | unboxed hwritten hkind => exact Reference.outcome_resolve_unboxed hwritten hkind
  | kind hcalls hkind hover =>
    refine (Reference.resolve_eq_ok_of_calls (restores_resolveName depth) hcalls).mpr ?_
    exact ⟨_, outcome_kind hkind, hover⟩
  | @definition reference name _ definition typeOf element _ hcalls hnone hget hrefs hmakes hover ih =>
    have hrefers : Refers types reference name := ⟨_, hcalls, hnone, by rw [hget]; rfl⟩
    have hacc : Acc (flip (Uses types)) name :=
      (Derives.definition hcalls hnone hget hrefs hmakes hover).acc hrefers
    refine (Reference.resolve_eq_ok_of_calls (restores_resolveName depth) hcalls).mpr ?_
    refine ⟨element, ?_, hover⟩
    cases fate hcovers name with
    | kind hkind _ =>
      rw [hnone] at hkind
      cases hkind
    | unknown _ hget' _ =>
      rw [hget] at hget'
      cases hget'
    | guarded _ _ hmem _ => exact absurd ⟨name, hrefers, .refl⟩ (hfree name hmem)
    | @entered shallower definition' _ hget' _ hdeeper houtcome =>
      obtain rfl := Option.some.inj (hget.symm.trans hget')
      rw [houtcome, TypeDefinition.resolve_eq_ok (restores_resolveReference shallower)]
      refine ⟨typeOf, ?_, hmakes⟩
      intro r hr
      apply ih r hr hdeeper
      rintro entered hentered ⟨first, hfirst, hreach⟩
      have huses : Uses types name first := ⟨definition, hget, r, hr, hfirst⟩
      rcases List.mem_cons.mp hentered with rfl | hentered
      · exact not_uses_self hacc (TransGen.head' huses hreach)
      · exact hfree entered hentered ⟨name, hrefers, .head huses hreach⟩

/-! ## What the guard refuses -/

/-- To look a name up under a guard fails because a definition is entered inside of itself. -/
def Circles (types : Dictionary TypeDefinition) (depth : Nat) (guard : List String)
    (name self : String) : Prop :=
  (resolveName types depth name).FailsBy guard (.selfReference self)

theorem refers_of_circles {called self : String} {dimension : Nat}
    (hcovers : Covers types depth guard) (hcalls : Reference.Calls reference dimension called)
    (h : Circles types depth guard called self) : Refers types reference called := by
  cases fate hcovers called with
  | kind _ houtcome => exact absurd h (Resolver.not_failsBy_of_ok houtcome)
  | unknown _ _ houtcome => cases (Resolver.failsBy_iff_of_error houtcome).mp h
  | guarded hnone hget _ _ => exact ⟨dimension, hcalls, hnone, by rw [hget]; rfl⟩
  | entered hnone hget _ _ _ => exact ⟨dimension, hcalls, hnone, by rw [hget]; rfl⟩

/-- The names under the guard lead to the one that is looked up, so when that one is among them,
it leads to itself. -/
theorem enters_of_circles {self : String} (hcovers : Covers types depth guard)
    (hchain : ∀ entered ∈ guard, TransGen (Enters types) entered name)
    (h : Circles types depth guard name self) :
    ReflTransGen (Enters types) name self ∧ TransGen (Enters types) self self := by
  induction depth using Nat.strongRecOn generalizing guard name with
  | _ depth ih =>
    cases fate hcovers name with
    | kind _ houtcome => exact absurd h (Resolver.not_failsBy_of_ok houtcome)
    | unknown _ _ houtcome => cases (Resolver.failsBy_iff_of_error houtcome).mp h
    | guarded _ _ hmem houtcome =>
      cases (Resolver.failsBy_iff_of_error houtcome).mp h
      exact ⟨.refl, hchain _ hmem⟩
    | @entered shallower definition _ hget _ hdeeper houtcome =>
      obtain ⟨before, r, after, dimension, called, hsplit, hbefore, hcalls, hself⟩ :=
        (entered_fails_iff (.selfReference self) houtcome).mp h
      have henters : Enters types name called := by
        refine ⟨definition, before, r, after, hget, hsplit, ?_, ?_⟩
        · intro earlier hmem
          obtain ⟨type, htype⟩ := hbefore earlier hmem
          exact ⟨type, derives_of_resolve hdeeper htype⟩
        · exact refers_of_circles hdeeper hcalls hself
      have hchain' : ∀ entered ∈ name :: guard, TransGen (Enters types) entered called := by
        rw [List.forall_mem_cons]
        exact ⟨.single henters, fun entered hmem => (hchain entered hmem).tail henters⟩
      obtain ⟨hreach, hcycle⟩ := ih shallower (Nat.lt_succ_self shallower) hdeeper hchain' hself
      exact ⟨.head henters hreach, hcycle⟩

/-- A definition that leads into a circle is refused: on the way all that comes earlier has a
type, and so leads to no name under the guard. -/
theorem circles_of_endless (hcovers : Covers types depth guard)
    (hguard : ∀ entered ∈ guard, Endless types entered) (h : Endless types name)
    (hrefers : Refers types reference name) :
    ∃ self, Circles types depth guard name self := by
  induction depth using Nat.strongRecOn generalizing guard name reference with
  | _ depth ih =>
    obtain ⟨_, _, hnone, hsome⟩ := hrefers
    cases fate hcovers name with
    | kind hkind _ =>
      rw [hnone] at hkind
      cases hkind
    | unknown _ hget _ =>
      rw [hget] at hsome
      cases hsome
    | guarded _ _ _ houtcome => exact ⟨name, (Resolver.failsBy_iff_of_error houtcome).mpr rfl⟩
    | @entered shallower definition _ hget _ hdeeper houtcome =>
      obtain ⟨next, ⟨definition', before, r, after, hget', hsplit, hbefore, hnext⟩, hendless⟩ := h.next
      obtain rfl := Option.some.inj (hget.symm.trans hget')
      have hguard' : ∀ entered ∈ name :: guard, Endless types entered :=
        List.forall_mem_cons.mpr ⟨h, hguard⟩
      obtain ⟨self, hself⟩ := ih shallower (Nat.lt_succ_self shallower) hdeeper hguard' hendless hnext
      obtain ⟨dimension, hcalls, _⟩ := hnext
      refine ⟨self, (entered_fails_iff (.selfReference self) houtcome).mpr ?_⟩
      refine ⟨before, r, after, dimension, next, hsplit, ?_, hcalls, hself⟩
      intro earlier hmem
      obtain ⟨type, htype⟩ := hbefore earlier hmem
      refine ⟨type, resolve_of_derives htype hdeeper ?_⟩
      intro entered hentered hleads
      exact (hguard' entered hentered).not_acc (htype.acc_of_leads hleads)

/-! ## The depth plays no part -/

/-- A lookup never ends because its depth is used up: every name that is entered takes one off the
depth and puts one under the guard, and no name is put there twice. -/
theorem not_tooDeep {deep : String} (hcovers : Covers types depth guard) :
    ¬ (resolveName types depth name).FailsBy guard (.tooDeep deep) := by
  induction depth using Nat.strongRecOn generalizing guard name with
  | _ depth ih =>
    intro h
    cases fate hcovers name with
    | kind _ houtcome => exact Resolver.not_failsBy_of_ok houtcome h
    | unknown _ _ houtcome => cases (Resolver.failsBy_iff_of_error houtcome).mp h
    | guarded _ _ _ houtcome => cases (Resolver.failsBy_iff_of_error houtcome).mp h
    | @entered shallower definition _ _ _ hdeeper houtcome =>
      obtain ⟨_, _, _, _, called, _, _, _, hfails⟩ :=
        (entered_fails_iff (.tooDeep deep) houtcome).mp h
      exact ih shallower (Nat.lt_succ_self shallower) hdeeper hfails

theorem outcome_of_covers {depth' : Nat} (hcovers : Covers types depth guard)
    (hcovers' : Covers types depth' guard) :
    (resolveName types depth name).outcome guard = (resolveName types depth' name).outcome guard := by
  induction depth using Nat.strongRecOn generalizing depth' guard name with
  | _ depth ih =>
    cases fate hcovers name with
    | kind hkind houtcome => rw [houtcome, outcome_kind hkind]
    | unknown hnone hget houtcome => rw [houtcome, outcome_unknown hnone hget]
    | guarded hnone hget hmem houtcome => rw [houtcome, outcome_guarded hnone hget hmem]
    | @entered shallower definition hnone hget hmem hdeeper houtcome =>
      cases depth' with
      | zero => exact absurd (hcovers'.mem hget) hmem
      | succ shallower' =>
        rw [houtcome, outcome_entered hnone hget hmem]
        refine TypeDefinition.outcome_resolve_congr (restores_resolveReference shallower)
          (restores_resolveReference shallower') ?_ definition
        intro r
        refine Reference.outcome_resolve_congr (restores_resolveName shallower)
          (restores_resolveName shallower') ?_ r
        intro called
        exact ih shallower (Nat.lt_succ_self shallower) hdeeper (hcovers'.cons hget hmem)

/-! ## The resolver is exact -/

theorem resolve_eq_outcome (m : Manifest) (reference : String) (h : m.types.size ≤ depth) :
    (resolveReference m.types depth reference).outcome [] = m.resolve reference := by
  refine Reference.outcome_resolve_congr (restores_resolveName depth)
    (restores_resolveName m.types.size) ?_ reference
  intro name
  exact outcome_of_covers (covers_nil h) (covers_nil (Nat.le_refl _))

theorem resolve_eq_ok_iff (m : Manifest) (reference : String) (type : OpenType) :
    m.resolve reference = .ok type ↔ Derives m.types reference type := by
  rw [← resolve_eq_outcome m reference (Nat.le_refl _)]
  have hcovers : Covers m.types m.types.size [] := covers_nil (Nat.le_refl _)
  refine ⟨derives_of_resolve hcovers, ?_⟩
  intro h
  exact resolve_of_derives h hcovers (by simp)

/-- A reference fails for a cause that comes of names when the name that it calls does. -/
theorem resolve_fails_iff (m : Manifest) (reference : String) {cause : ResolveError}
    (hcause : cause.OfName) :
    (∃ e, m.resolve reference = .error e ∧ e.origin = cause) ↔
      ∃ dimension name, Reference.Calls reference dimension name ∧
        (resolveName m.types m.types.size name).FailsBy [] cause := by
  rw [← resolve_eq_outcome m reference (Nat.le_refl _)]
  exact Reference.failsBy_resolve (restores_resolveName m.types.size) hcause

/-- The search for a type comes to an end by itself: it never fails because its depth is used up, so
the guard decides alone, and with more depth nothing changes. The guard is afterwards what it was
before. A reference gives a type just when the rules derive that type. What the guard refuses is
entered by the reference and leads to itself; everything of that kind is refused, and a reference
that leads to itself by whatever references has no type. -/
theorem resolution_is_exact (m : Manifest) (reference : String) :
    (∀ depth, m.types.size ≤ depth →
      (resolveReference m.types depth reference).on [] = (m.resolve reference, [])) ∧
    (∀ e deep, m.resolve reference = .error e → e.origin ≠ .tooDeep deep) ∧
    (∀ type, m.resolve reference = .ok type ↔ Derives m.types reference type) ∧
    (∀ e self, m.resolve reference = .error e → e.origin = .selfReference self →
      ∃ first, Refers m.types reference first ∧ ReflTransGen (Enters m.types) first self ∧
        TransGen (Enters m.types) self self) ∧
    (∀ first, Refers m.types reference first → Endless m.types first →
      ∃ e self, m.resolve reference = .error e ∧ e.origin = .selfReference self) ∧
    (∀ self, Leads m.types reference self → TransGen (Uses m.types) self self →
      ∀ type, m.resolve reference ≠ .ok type) ∧
    (∀ depth guard, ((resolveReference m.types depth reference).on guard).2 = guard ∧
      ∀ name, ((resolveName m.types depth name).on guard).2 = guard) := by
  have hcovers : Covers m.types m.types.size [] := covers_nil (Nat.le_refl _)
  refine ⟨?_, ?_, resolve_eq_ok_iff m reference, ?_, ?_, ?_, ?_⟩
  · intro depth hdepth
    rw [(restores_resolveReference depth reference).on_eq, resolve_eq_outcome m reference hdepth]
  · intro e deep herror horigin
    obtain ⟨_, name, _, hfails⟩ :=
      (resolve_fails_iff m reference (.tooDeep deep)).mp ⟨e, herror, horigin⟩
    exact not_tooDeep hcovers hfails
  · intro e self herror horigin
    obtain ⟨dimension, name, hcalls, hcircle⟩ :=
      (resolve_fails_iff m reference (.selfReference self)).mp ⟨e, herror, horigin⟩
    exact ⟨name, refers_of_circles hcovers hcalls hcircle,
      enters_of_circles hcovers (by simp) hcircle⟩
  · intro first hrefers hendless
    obtain ⟨self, hcircle⟩ := circles_of_endless hcovers (by simp) hendless hrefers
    obtain ⟨dimension, hcalls, _⟩ := hrefers
    obtain ⟨e, herror, horigin⟩ :=
      (resolve_fails_iff m reference (.selfReference self)).mpr
        ⟨dimension, first, hcalls, hcircle⟩
    exact ⟨e, self, herror, horigin⟩
  · intro self hleads hself type htype
    have hderives := (resolve_eq_ok_iff m reference type).mp htype
    exact not_uses_self (hderives.acc_of_leads hleads) hself
  · intro depth guard
    exact ⟨restores_resolveReference depth reference guard,
      fun name => restores_resolveName depth name guard⟩

end Manifest

end ManagementSchema
