import TypedScript.Proofs.Grammar.Entering
import TypedScript.Proofs.Grammar.Interfaces
import TypedScript.Proofs.Tree.Mirrors
import TypedScript.Proofs.Typing.Knowing

namespace TypedScript

namespace Interface

def types : Interface → List Ty
  | delegate returns _ parameters => returns :: parameters.map Prod.fst
  | struct _ fields => fields.map Field.type
  | global type _ => [type]

def fields : Interface → List Field
  | struct _ fields => fields
  | _ => []

def Coherent (interface : Interface) : Prop :=
  (interface.fields.map Field.name).Nodup ∧ ∀ field ∈ interface.fields, field.value.isSome → field.type = .num

instance : DecidablePred Coherent := fun interface =>
  inferInstanceAs (Decidable ((interface.fields.map Field.name).Nodup ∧
    ∀ field ∈ interface.fields, field.value.isSome → field.type = .num))

theorem Makes.shape_knows {interface : Interface} {decl : Declaration} (makes : interface.Makes decl)
    (catalog : Catalog) : ∀ type ∈ interface.types, (Grammar.shape decl catalog).Knows type := by
  intro type found
  cases makes with
  | delegate => exact catalog.addTypes_knows (List.mem_append_left _ found)
  | @struct name fields made span each =>
    have same : fields.map Field.type = (made.map fun line => (line.name, line.type)).map Prod.snd := by
      rw [List.map_map]
      exact map_eq_of_forall₂ each fun _ _ line => line.type.symm
    exact catalog.addTypes_knows (List.mem_cons_of_mem _ (same ▸ found))
  | @global kind name made line =>
    have listed : type ∈ [made.type] := by
      rw [line.type]
      exact found
    exact catalog.addTypes_knows listed

end Interface

theorem Grammar.ReadsDeclarations.knows {tokens : Stream} (worded : tokens.Worded) {list : List Interface}
    {decls : List Declaration} (makes : List.Forall₂ Interface.Makes list decls) {s t : State}
    (reads : ReadsDeclarations tokens decls s t) :
    ∀ interface ∈ list, ∀ type ∈ interface.types, t.catalog.Knows type := by
  induction makes generalizing s with
  | nil => exact List.forall_mem_nil _
  | cons first _ ih =>
    cases reads with
    | cons head rest =>
      refine List.forall_mem_cons.mpr ⟨?_, ih rest⟩
      intro type found
      obtain ⟨m, -, rfl⟩ := head.writes worded
      exact (rest.extends_ worded).knows (first.shape_knows m.catalog type found)

namespace Typing

variable {s : State}

theorem requireKnown_of_knows {catalog : Catalog} {type : Ty} (known : catalog.Knows type) (place : Position) :
    catalog.requireKnown place type = .ok () := by
  induction type with
  | named name =>
    have here : catalog.knows name = true := known (.named name) List.mem_cons_self
    unfold Catalog.requireKnown
    rw [here, Bool.or_true, if_pos rfl]
  | array element ih => exact ih known.element
  | map key value first second => exact except_bind_ok.mpr ⟨(), first known.key, second known.value⟩

theorem checkVariable_passes (env : Vectors) {field : Field} {made : Variable} (makes : field.Makes made)
    (fits : field.value.isSome → field.type = .num) (known : s.catalog.Knows field.type) :
    ∃ t, checkVariable made env s = .ok () t ∧ s.catalog.Extends t.catalog ∧ t.scopes = s.scopes := by
  have first : requireKnown made.type made.span.start env s = .ok () s :=
    requireKnown_ok.mpr ⟨requireKnown_of_knows (makes.type ▸ known) _, rfl⟩
  have starts := makes.value
  unfold checkVariable
  rw [bind_of_ok first, makes.type]
  generalize made.initializer = initializer at starts
  generalize field.value = value at starts fits
  cases starts with
  | none => exact ⟨s, rfl, .refl _, rfl⟩
  | @number value node =>
    have ran : checkExpr (.literal node (.number value)) env s = .ok .num (s.recorded node .num) := rfl
    have takes : (s.recorded node .num).catalog.accepts field.type .num = true := by
      rw [fits rfl]
      rfl
    refine ⟨s.recorded node .num, ?_, s.catalog.addTypes_extends [.num], rfl⟩
    rw [checkInitializer, bind_of_ok ran]
    exact requireAssignable_ok.mpr ⟨takes, rfl⟩

theorem checkFields_passes (env : Vectors) {fields : List Field} {made : List Variable}
    (makes : List.Forall₂ Field.Makes fields made)
    (fits : ∀ field ∈ fields, field.value.isSome → field.type = .num) (distinct : (fields.map Field.name).Nodup)
    (known : ∀ field ∈ fields, s.catalog.Knows field.type)
    (fresh : ∀ field ∈ fields, s.scopes.inner.contains field.name = false) :
    ∃ t, checkFields made env s = .ok () t ∧ s.catalog.Extends t.catalog := by
  induction makes generalizing s with
  | nil => exact ⟨s, rfl, .refl _⟩
  | @cons field line fields _ first _ ih =>
    obtain ⟨fit, fits⟩ := List.forall_mem_cons.mp fits
    obtain ⟨here, later⟩ := List.forall_mem_cons.mp known
    obtain ⟨new, others⟩ := List.forall_mem_cons.mp fresh
    obtain ⟨unlike, apart⟩ := List.nodup_cons.mp distinct
    obtain ⟨m, ran, grown, kept⟩ := checkVariable_passes env first fit here
    have bound : bindMember line.name line.type line.span.start env m =
        .ok () (m.rescoped (m.scopes.bound line.name line.type)) := by
      refine bindMember_ok.mpr ⟨_, Scopes.declare_ok.mpr ⟨?_, rfl⟩, rfl⟩
      rw [kept, first.name]
      exact new
    have still : ∀ field ∈ fields, (m.scopes.bound line.name line.type).inner.contains field.name = false := by
      intro other member
      have different : other.name ≠ field.name := fun same => unlike (same ▸ List.mem_map_of_mem member)
      rw [Scopes.contains_bound, kept, others other member, first.name]
      simpa using different
    have knows : ∀ field ∈ fields, m.catalog.Knows field.type := fun field member => grown.knows (later field member)
    obtain ⟨t, rest, more⟩ := ih (s := m.rescoped (m.scopes.bound line.name line.type)) fits apart knows still
    refine ⟨t, ?_, grown.trans more⟩
    unfold checkFields
    rw [bind_of_ok ran, bind_of_ok bound, rest]

theorem requireAllKnown_passes (env : Vectors) {types : List Ty} (known : ∀ type ∈ types, s.catalog.Knows type)
    (place : Position) : requireAllKnown place types env s = .ok () s := by
  induction types with
  | nil => rfl
  | cons type types ih =>
    obtain ⟨here, later⟩ := List.forall_mem_cons.mp known
    have first : requireKnown type place env s = .ok () s := requireKnown_ok.mpr ⟨requireKnown_of_knows here _, rfl⟩
    unfold requireAllKnown
    rw [bind_of_ok first, ih later]

theorem checkDeclaration_passes (env : Vectors) {interface : Interface} {decl : Declaration}
    (makes : interface.Makes decl) (coherent : interface.Coherent) (known : ∀ type ∈ interface.types, s.catalog.Knows type) :
    ∃ t, checkDeclaration decl env s = .ok () t ∧ s.catalog.Extends t.catalog := by
  cases makes with
  | delegate => exact ⟨s, requireAllKnown_passes env known _, .refl _⟩
  | struct each =>
    obtain ⟨t, ran, grown⟩ := checkFields_passes env (s := s.pushed) each coherent.2 coherent.1
      (List.forall_mem_map.mp known) (fun _ _ => rfl)
    exact ⟨t.popped, inScope_ok.mpr ⟨t, ran, rfl⟩, grown⟩
  | global line =>
    obtain ⟨t, ran, grown, -⟩ := checkVariable_passes env line Bool.noConfusion (known _ List.mem_cons_self)
    exact ⟨t, ran, grown⟩

theorem checkDeclarations_pass (env : Vectors) {list : List Interface} {decls : List Declaration}
    (makes : List.Forall₂ Interface.Makes list decls) (coherent : ∀ interface ∈ list, interface.Coherent)
    (known : ∀ interface ∈ list, ∀ type ∈ interface.types, s.catalog.Knows type) :
    ∃ t, checkDeclarations decls env s = .ok () t := by
  induction makes generalizing s with
  | nil => exact ⟨s, rfl⟩
  | cons first _ ih =>
    obtain ⟨right, rights⟩ := List.forall_mem_cons.mp coherent
    obtain ⟨here, later⟩ := List.forall_mem_cons.mp known
    obtain ⟨m, ran, grown⟩ := checkDeclaration_passes env first right here
    obtain ⟨t, rest⟩ := ih rights fun interface member type found => grown.knows (later interface member type found)
    refine ⟨t, ?_⟩
    unfold checkDeclarations
    rw [bind_of_ok ran, rest]

end Typing

end TypedScript
