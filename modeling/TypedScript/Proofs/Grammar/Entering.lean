import Mathlib.Data.List.Nodup
import TypedScript.Proofs.Catalog.Contents
import TypedScript.Proofs.Catalog.Paths
import TypedScript.Proofs.Grammar.Announcing
import TypedScript.Proofs.Tree.Nodes

namespace TypedScript

def Struct.layout (decl : Struct) : List (String × Ty) := decl.fields.map fun field => (field.name, field.type)

def Enumeration.values (decl : Enumeration) : List (String × Int) :=
  decl.members.map fun member => (member.name, member.value)

namespace Declaration

def own : Declaration → List Ty
  | .global _ => []
  | .function decl => [.named decl.signature.path]
  | .enumeration decl => [.named decl.name]
  | .delegate decl => [.named decl.name]
  | .struct decl => [.named decl.name]

def known (decl : Declaration) : List Ty := decl.own ++ (decl.entered ++ decl.written.filter Ty.isBracketed)

theorem own_known {decl : Declaration} {type : Ty} (member : type ∈ decl.own) : type ∈ decl.known :=
  List.mem_append_left _ member

theorem entered_known {decl : Declaration} {type : Ty} (member : type ∈ decl.entered) : type ∈ decl.known :=
  List.mem_append_right _ (List.mem_append_left _ member)

theorem bracketed_known {decl : Declaration} {type : Ty} (member : type ∈ decl.written)
    (bracketed : type.isBracketed = true) : type ∈ decl.known :=
  List.mem_append_right _ (List.mem_append_right _ (List.mem_filter.mpr ⟨member, bracketed⟩))

end Declaration

def Contents.of (decls : List Declaration) : Contents where
  types path type := type.path = path ∧
    (type ∈ Ty.builtinNames.map Ty.named ∨ ∃ decl ∈ decls, ∃ whole ∈ decl.known, type ∈ whole.parts)
  names name owner := ∃ decl ∈ decls, decl.name = name ∧ decl.owner = owner
  structs name fields := ∃ decl, .struct decl ∈ decls ∧ decl.name = name ∧ decl.layout = fields
  enums name members := ∃ decl, .enumeration decl ∈ decls ∧ decl.name = name ∧ decl.values = members
  delegates path signature :=
    (∃ decl, .delegate decl ∈ decls ∧ decl.name = path ∧ decl.signature = signature) ∨
      ∃ decl, .function decl ∈ decls ∧ decl.signature.path = path ∧ decl.signature = signature
  globals name type := ∃ decl, .global decl ∈ decls ∧ decl.name = name ∧ decl.type = type
  functions name type := ∃ decl, .function decl ∈ decls ∧ decl.name = name ∧ .named decl.signature.path = type

section
variable (label : Node → Node)

theorem Declaration.name_relabel (decl : Declaration) : (decl.relabel label).name = decl.name := by
  cases decl <;> rfl

theorem Declaration.owner_relabel (decl : Declaration) : (decl.relabel label).owner = decl.owner := by
  cases decl <;> rfl

theorem Struct.layout_relabel (decl : Struct) :
    Struct.layout { decl with fields := decl.fields.map (Variable.relabel label) } = decl.layout := by
  simp [layout, Variable.relabel]

theorem Declaration.known_relabel (decl : Declaration) : (decl.relabel label).known = decl.known := by
  have written : (decl.relabel label).written = decl.written := by
    unfold Declaration.written
    rw [items_relabel, List.flatMap_map]
    simp only [Item.written_relabel]
  have own : (decl.relabel label).own = decl.own := by cases decl <;> rfl
  have entered : (decl.relabel label).entered = decl.entered := by
    cases decl with
    | struct decl => simp [relabel, Declaration.entered, Variable.relabel]
    | _ => rfl
  unfold known
  rw [written, own, entered]

theorem Contents.of_relabel (decls : List Declaration) : of (decls.map (Declaration.relabel label)) = of decls := by
  ext name value
  case types => simp only [of, List.mem_map, exists_exists_and_eq_and, Declaration.known_relabel]
  case names =>
    simp only [of, List.mem_map, exists_exists_and_eq_and, Declaration.name_relabel, Declaration.owner_relabel]
  case structs =>
    constructor
    · rintro ⟨decl, member, rfl, rfl⟩
      obtain ⟨base, found, same⟩ := List.mem_map.mp member
      cases base <;> cases same
      exact ⟨_, found, rfl, (Struct.layout_relabel label _).symm⟩
    · rintro ⟨decl, member, rfl, rfl⟩
      exact ⟨_, List.mem_map_of_mem member, rfl, Struct.layout_relabel label decl⟩
  case enums =>
    constructor
    · rintro ⟨decl, member, rfl, rfl⟩
      obtain ⟨base, found, same⟩ := List.mem_map.mp member
      cases base <;> cases same
      exact ⟨_, found, rfl, rfl⟩
    · rintro ⟨decl, member, rfl, rfl⟩
      exact ⟨_, List.mem_map_of_mem member, rfl, rfl⟩
  case globals =>
    constructor
    · rintro ⟨decl, member, rfl, rfl⟩
      obtain ⟨base, found, same⟩ := List.mem_map.mp member
      cases base <;> cases same
      exact ⟨_, found, rfl, rfl⟩
    · rintro ⟨decl, member, rfl, rfl⟩
      exact ⟨_, List.mem_map_of_mem member, rfl, rfl⟩
  case functions =>
    constructor
    · rintro ⟨decl, member, rfl, rfl⟩
      obtain ⟨base, found, same⟩ := List.mem_map.mp member
      cases base <;> cases same
      exact ⟨_, found, rfl, rfl⟩
    · rintro ⟨decl, member, rfl, rfl⟩
      exact ⟨_, List.mem_map_of_mem member, rfl, rfl⟩
  case delegates =>
    constructor
    · rintro (⟨decl, member, rfl, rfl⟩ | ⟨decl, member, rfl, rfl⟩)
      · obtain ⟨base, found, same⟩ := List.mem_map.mp member
        cases base <;> cases same
        exact .inl ⟨_, found, rfl, rfl⟩
      · obtain ⟨base, found, same⟩ := List.mem_map.mp member
        cases base <;> cases same
        exact .inr ⟨_, found, rfl, rfl⟩
    · rintro (⟨decl, member, rfl, rfl⟩ | ⟨decl, member, rfl, rfl⟩)
      · exact .inl ⟨_, List.mem_map_of_mem member, rfl, rfl⟩
      · exact .inr ⟨_, List.mem_map_of_mem member, rfl, rfl⟩

end

theorem Contents.of_congr {left right : List Declaration} (same : ∀ decl, decl ∈ left ↔ decl ∈ right) :
    of left = of right := by
  simp only [of, same]

theorem Declaration.filter_name {decls : List Declaration} (distinct : (decls.map Declaration.name).Nodup)
    {decl : Declaration} (name : String) :
    decls.filter (fun other => other.name = name) = [decl] ↔ decl ∈ decls ∧ decl.name = name := by
  constructor
  · intro single
    have member : decl ∈ decls.filter (fun other => other.name = name) := by simp [single]
    simpa using member
  · rintro ⟨member, named⟩
    have nodup : (decls.filter (fun other => other.name = name)).Nodup := (distinct.of_map _).filter _
    apply List.perm_singleton.mp
    apply (List.perm_ext_iff_of_nodup nodup (List.nodup_singleton decl)).mpr
    intro other
    simp only [List.mem_filter, decide_eq_true_eq, List.mem_singleton]
    constructor
    · rintro ⟨also, called⟩
      exact List.inj_on_of_nodup_map distinct also member (called.trans named.symm)
    · rintro rfl
      exact ⟨member, named⟩

-- Declarations with distinct names, which all types that they state can be told apart from.
structure Distinct (decls : List Declaration) : Prop where
  names : (decls.map Declaration.name).Nodup
  plain : ∀ decl ∈ decls, Plain decl.name
  written : ∀ decl ∈ decls, ∀ type ∈ decl.written, type.Over Plain

namespace Distinct

variable {decls : List Declaration} {left right : Declaration}

theorem eq_of_name (distinct : Distinct decls) (first : left ∈ decls) (second : right ∈ decls)
    (same : left.name = right.name) : left = right := List.inj_on_of_nodup_map distinct.names first second same

theorem signature_plain (distinct : Distinct decls) {decl : Function} (member : .function decl ∈ decls) :
    decl.signature.Over Plain :=
  fun type found => distinct.written _ member type (Declaration.written_of_entered found)

theorem types_plain (distinct : Distinct decls) {path : String} {type : Ty}
    (known : (Contents.of decls).types path type) :
    type.Over Plain ∨ ∃ decl, .function decl ∈ decls ∧ type = .named decl.signature.path := by
  obtain ⟨-, builtin | ⟨decl, member, whole, found, part⟩⟩ := known
  · have builtins : ∀ type ∈ Ty.builtinNames.map Ty.named, type.Over Plain := by decide
    exact .inl (builtins type builtin)
  · have stated (inside : whole ∈ decl.written) : type.Over Plain :=
      (distinct.written decl member whole inside).parts type part
    have named (same : whole = .named decl.name) : type.Over Plain := by
      subst same
      cases List.mem_singleton.mp part
      exact Ty.over_named.mpr (distinct.plain decl member)
    rcases List.mem_append.mp found with own | others
    · cases decl with
      | global decl => cases own
      | function decl =>
        cases List.mem_singleton.mp own
        exact .inr ⟨decl, member, List.mem_singleton.mp part⟩
      | enumeration decl => exact .inl (named (List.mem_singleton.mp own))
      | delegate decl => exact .inl (named (List.mem_singleton.mp own))
      | struct decl => exact .inl (named (List.mem_singleton.mp own))
    · rcases List.mem_append.mp others with entered | bracketed
      · exact .inl (stated (Declaration.written_of_entered entered))
      · exact .inl (stated (List.mem_filter.mp bracketed).1)

theorem types_unique (distinct : Distinct decls) (path : String) (first second : Ty)
    (here : (Contents.of decls).types path first) (there : (Contents.of decls).types path second) : first = second := by
  have same : first.path = second.path := here.1.trans there.1.symm
  rcases distinct.types_plain here with plain | ⟨decl, -, rfl⟩
  · rcases distinct.types_plain there with also | ⟨decl, -, rfl⟩
    · exact Ty.path_inj plain also same
    · exact (decl.signature.path_ne plain same.symm).elim
  · rcases distinct.types_plain there with also | ⟨other, -, rfl⟩
    · exact (decl.signature.path_ne also same).elim
    · exact congrArg Ty.named same

theorem delegates_unique (distinct : Distinct decls) (path : String) (first second : Signature)
    (here : (Contents.of decls).delegates path first) (there : (Contents.of decls).delegates path second) :
    first = second := by
  rcases here with ⟨decl, member, named, rfl⟩ | ⟨decl, member, named, rfl⟩
  · have plain : Plain path := named ▸ distinct.plain _ member
    rcases there with ⟨other, also, called, rfl⟩ | ⟨other, also, called, rfl⟩
    · cases distinct.eq_of_name member also (named.trans called.symm)
      rfl
    · exact (other.signature.path_not_plain (called ▸ plain)).elim
  · rcases there with ⟨other, also, called, rfl⟩ | ⟨other, also, called, rfl⟩
    · have plain : Plain path := called ▸ distinct.plain _ also
      exact (decl.signature.path_not_plain (named ▸ plain)).elim
    · exact Signature.path_inj (distinct.signature_plain member) (distinct.signature_plain also)
        (named.trans called.symm)

end Distinct

namespace Grammar

variable {tokens : Stream} {s t m : State} {decls : List Declaration} {decl : Declaration} {catalog claimed : Catalog}
  {types : List Ty}

section Within
variable (member : decl ∈ decls)
include member

theorem enter_within (within : catalog.Within (.of decls)) (inside : ∀ type ∈ types, type ∈ decl.known) :
    (catalog.addTypes types).Within (.of decls) := by
  apply within.addTypes
  intro part found
  obtain ⟨whole, listed, here⟩ := List.mem_flatMap.mp found
  exact ⟨rfl, .inr ⟨decl, member, whole, inside whole listed, here⟩⟩

theorem shape_within (within : catalog.Within (.of decls)) : (shape decl catalog).Within (.of decls) := by
  cases decl with
  | global decl =>
    have known : (catalog.addTypes [decl.type]).Within (.of decls) :=
      enter_within member within fun type found => Declaration.entered_known found
    exact { known with globals := known.globals.insertNew ⟨decl, member, rfl, rfl⟩ }
  | function decl =>
    have known : (if catalog.delegates.contains decl.signature.path then catalog
        else catalog.addDelegate decl.signature.path decl.signature).Within (.of decls) := by
      split
      · exact within
      · have known : (catalog.addTypes (decl.signature.types ++ [.named decl.signature.path])).Within (.of decls) := by
          apply enter_within member within
          intro type found
          rcases List.mem_append.mp found with stated | own
          · exact Declaration.entered_known stated
          · exact Declaration.own_known own
        exact { known with delegates := known.delegates.insertNew (.inr ⟨decl, member, rfl, rfl⟩) }
    exact { known with functions := known.functions.insertNew ⟨decl, member, rfl, rfl⟩ }
  | enumeration decl =>
    have known : (catalog.addTypes [.named decl.name]).Within (.of decls) :=
      enter_within member within fun type found => Declaration.own_known found
    exact { known with enums := known.enums.insertNew ⟨decl, member, rfl, rfl⟩ }
  | delegate decl =>
    have known : (catalog.addTypes (decl.signature.types ++ [.named decl.name])).Within (.of decls) := by
      apply enter_within member within
      intro type found
      rcases List.mem_append.mp found with stated | own
      · exact Declaration.entered_known stated
      · exact Declaration.own_known own
    exact { known with delegates := known.delegates.insertNew (.inl ⟨decl, member, rfl, rfl⟩) }
  | struct decl =>
    have known : (catalog.addTypes (.named decl.name :: decl.layout.map Prod.snd)).Within (.of decls) := by
      apply enter_within member within
      intro type found
      rcases List.mem_cons.mp found with rfl | field
      · exact Declaration.own_known List.mem_cons_self
      · apply Declaration.entered_known
        simpa [Struct.layout, Declaration.entered] using field
    exact { known with structs := known.structs.insertNew ⟨decl, member, rfl, rfl⟩ }

theorem announced_within (within : catalog.Within (.of decls)) : (announced decl catalog).Within (.of decls) := by
  cases decl with
  | struct _ | enumeration _ => exact within
  | global _ | function _ | delegate _ => exact shape_within member within

theorem claim_within {place : Position} (claims : catalog.claim decl.name decl.owner place = .ok () claimed)
    (within : catalog.Within (.of decls)) : claimed.Within (.of decls) := by
  obtain ⟨-, rfl⟩ := Catalog.claim_ok claims
  have named : Catalog.Within (.of decls) { catalog with names := catalog.names.insertNew decl.name decl.owner } :=
    { within with names := within.names.insertNew ⟨decl, member, rfl, rfl⟩ }
  apply enter_within member named
  intro type found
  split at found
  · apply Declaration.own_known
    cases decl with
    | struct _ | enumeration _ | delegate _ => exact found
    | global _ | function _ => contradiction
  · cases found

theorem Writes.within {written : List Ty} (writes : Writes written s t) (inside : ∀ type ∈ written, type ∈ decl.written)
    (within : s.catalog.Within (.of decls)) : t.catalog.Within (.of decls) := by
  obtain ⟨-, types, after, each⟩ := writes
  rw [after]
  apply within.addTypes
  intro part found
  obtain ⟨whole, listed, bracketed, here⟩ := (each part).mp found
  exact ⟨rfl, .inr ⟨decl, member, whole, Declaration.bracketed_known (inside whole listed) bracketed, here⟩⟩

theorem Announces.within (announces : Announces decl s t) (within : s.catalog.Within (.of decls)) :
    t.catalog.Within (.of decls) := by
  obtain ⟨_, m, place, claimed, writes, inside, claims, last⟩ := announces
  rw [last]
  have read := writes.within member (fun type found => Declaration.written_of_entered (inside type found)) within
  exact announced_within member (claim_within member claims read)

end Within

theorem shape_extends (decl : Declaration) (catalog : Catalog) : catalog.Extends (shape decl catalog) := by
  cases decl with
  | global decl => exact catalog.addGlobal_extends _ _
  | function decl => exact catalog.addFunction_extends _ _
  | enumeration decl => exact catalog.addEnum_extends _ _
  | delegate decl => exact catalog.addDelegate_extends _ _
  | struct decl => exact catalog.addStruct_extends _ _

theorem Writes.extends_ {written : List Ty} (writes : Writes written s t) : s.catalog.Extends t.catalog := by
  obtain ⟨-, types, after, -⟩ := writes
  rw [after]
  exact s.catalog.addTypes_extends types

theorem ReadsDeclaration.extends_ (worded : tokens.Worded) (reads : ReadsDeclaration tokens decl s t) :
    s.catalog.Extends t.catalog := by
  obtain ⟨m, writes, rfl⟩ := reads.writes worded
  exact writes.extends_.trans (shape_extends decl m.catalog)

theorem ReadsDeclarations.extends_ (worded : tokens.Worded) {list : List Declaration}
    (reads : ReadsDeclarations tokens list s t) : s.catalog.Extends t.catalog := by
  induction reads with
  | nil => exact .refl _
  | cons head _ ih => exact (head.extends_ worded).trans ih

def Backed (catalog : Catalog) : Prop :=
  catalog.delegates.All fun path signature => ∀ type ∈ signature.types ++ [.named path], catalog.Knows type

theorem Backed.of_same {before after : Catalog} (backed : Backed before) (grown : before.Extends after)
    (same : after.delegates = before.delegates) : Backed after := by
  intro entry member type found
  rw [same] at member
  exact grown.knows (backed entry member type found)

theorem Backed.addDelegate (backed : Backed catalog) (name : String) (signature : Signature) :
    Backed (catalog.addDelegate name signature) := by
  have grown := catalog.addTypes_extends (signature.types ++ [.named name])
  apply Table.All.insertNew
  · exact backed.of_same grown (catalog.addTypes_delegates _)
  · intro type found
    exact catalog.addTypes_knows found

theorem shape_backed (decl : Declaration) (backed : Backed catalog) : Backed (shape decl catalog) := by
  have grown := shape_extends decl catalog
  cases decl with
  | global decl => exact backed.of_same grown (catalog.addTypes_delegates [decl.type])
  | function decl =>
    simp only [shape, Catalog.addFunction]
    split
    · exact backed
    · exact backed.addDelegate decl.signature.path decl.signature
  | enumeration decl => exact backed.of_same grown (catalog.addTypes_delegates [.named decl.name])
  | delegate decl => exact backed.addDelegate decl.name decl.signature
  | struct decl => exact backed.of_same grown (catalog.addTypes_delegates (.named decl.name :: decl.layout.map Prod.snd))

theorem Writes.backed {written : List Ty} (writes : Writes written s t) (backed : Backed s.catalog) :
    Backed t.catalog := by
  apply backed.of_same writes.extends_
  obtain ⟨-, types, after, -⟩ := writes
  rw [after, Catalog.addTypes_delegates]

-- A catalog on its way to having all that the declarations state.
structure Entering (decls : List Declaration) (catalog : Catalog) : Prop where
  within : catalog.Within (.of decls)
  backed : Backed catalog

def Shaped (catalog : Catalog) : Declaration → Prop
  | .global decl => catalog.globals.contains decl.name = true
  | .function decl =>
    catalog.functions.contains decl.name = true ∧ catalog.delegates.contains decl.signature.path = true
  | .enumeration decl => catalog.enums.contains decl.name = true
  | .delegate decl => catalog.delegates.contains decl.name = true
  | .struct decl => catalog.structs.contains decl.name = true

structure Has (catalog : Catalog) (decl : Declaration) : Prop where
  shaped : Shaped catalog decl
  known : ∀ type ∈ decl.known, catalog.Knows type

theorem Has.mono {before after : Catalog} (has : Has before decl) (grown : before.Extends after) : Has after decl := by
  refine ⟨?_, fun type found => grown.knows (has.known type found)⟩
  have shaped := has.shaped
  cases decl with
  | global decl => exact grown.globals.contains shaped
  | function decl => exact ⟨grown.functions.contains shaped.1, grown.delegates.contains shaped.2⟩
  | enumeration decl => exact grown.enums.contains shaped
  | delegate decl => exact grown.delegates.contains shaped
  | struct decl => exact grown.structs.contains shaped

theorem shape_shaped (decl : Declaration) (catalog : Catalog) : Shaped (shape decl catalog) decl := by
  cases decl with
  | global decl | enumeration decl | delegate decl | struct decl => exact Table.contains_insertNew _ _ _
  | function decl =>
    refine ⟨Table.contains_insertNew _ _ _, ?_⟩
    simp only [shape, Catalog.addFunction]
    split
    · assumption
    · exact Table.contains_insertNew _ _ _

theorem signature_known {decl : Function} (distinct : Distinct decls) (member : .function decl ∈ decls)
    (entering : Entering decls catalog) :
    ∀ type ∈ decl.signature.types ++ [.named decl.signature.path], (shape (.function decl) catalog).Knows type := by
  intro type found
  simp only [shape, Catalog.addFunction]
  split
  · rename_i present
    obtain ⟨signature, entry⟩ := Option.isSome_iff_exists.mp present
    have stated := entering.within.delegates.get? entry
    cases distinct.delegates_unique _ _ _ stated (.inr ⟨decl, member, rfl, rfl⟩)
    exact entering.backed.get? entry type found
  · exact catalog.addTypes_knows found

theorem shape_known (distinct : Distinct decls) (member : decl ∈ decls) (entering : Entering decls catalog) :
    ∀ type ∈ decl.own ++ decl.entered, (shape decl catalog).Knows type := by
  intro type found
  cases decl with
  | global decl => exact catalog.addTypes_knows found
  | function decl => exact signature_known distinct member entering type (List.perm_append_comm.mem_iff.mp found)
  | enumeration decl => exact catalog.addTypes_knows found
  | delegate decl => exact catalog.addTypes_knows (List.perm_append_comm.mem_iff.mp found)
  | struct decl =>
    have same : Declaration.entered (.struct decl) = decl.layout.map Prod.snd := by
      simp [Declaration.entered, Struct.layout]
    rw [same] at found
    exact catalog.addTypes_knows found

theorem ReadsDeclaration.enters (worded : tokens.Worded) (distinct : Distinct decls) (member : decl ∈ decls)
    (reads : ReadsDeclaration tokens decl s t) (entering : Entering decls s.catalog) :
    Entering decls t.catalog ∧ s.catalog.Extends t.catalog ∧ Has t.catalog decl := by
  obtain ⟨m, writes, rfl⟩ := reads.writes worded
  have read : Entering decls m.catalog :=
    ⟨writes.within member (fun _ found => found) entering.within, writes.backed entering.backed⟩
  have grown := shape_extends decl m.catalog
  refine ⟨⟨shape_within member read.within, shape_backed decl read.backed⟩, writes.extends_.trans grown,
    shape_shaped decl m.catalog, ?_⟩
  intro type found
  rw [Declaration.known, ← List.append_assoc] at found
  rcases List.mem_append.mp found with stated | bracketed
  · exact shape_known distinct member read type stated
  · obtain ⟨inside, brackets⟩ := List.mem_filter.mp bracketed
    obtain ⟨-, types, after, each⟩ := writes
    apply grown.knows
    intro part here
    obtain ⟨whole, listed, there⟩ := List.mem_flatMap.mp ((each part).mpr ⟨type, inside, brackets, here⟩)
    rw [after]
    exact s.catalog.addTypes_knows listed part there

theorem ReadsDeclarations.enters (worded : tokens.Worded) (distinct : Distinct decls) {list : List Declaration}
    (reads : ReadsDeclarations tokens list s t) (sub : ∀ decl ∈ list, decl ∈ decls)
    (entering : Entering decls s.catalog) :
    Entering decls t.catalog ∧ s.catalog.Extends t.catalog ∧ ∀ decl ∈ list, Has t.catalog decl := by
  induction reads with
  | nil => exact ⟨entering, .refl _, nofun⟩
  | cons head _ ih =>
    obtain ⟨here, first, has⟩ := head.enters worded distinct (sub _ (by simp)) entering
    obtain ⟨last, rest, others⟩ := ih (fun decl later => sub decl (by simp [later])) here
    refine ⟨last, first.trans rest, ?_⟩
    intro decl member
    rcases List.mem_cons.mp member with rfl | later
    · exact has.mono rest
    · exact others decl later

theorem announced_extends (decl : Declaration) (catalog : Catalog) : catalog.Extends (announced decl catalog) := by
  cases decl with
  | struct _ | enumeration _ => exact .refl catalog
  | global decl => exact shape_extends (.global decl) catalog
  | function decl => exact shape_extends (.function decl) catalog
  | delegate decl => exact shape_extends (.delegate decl) catalog

theorem announced_backed (decl : Declaration) (backed : Backed catalog) : Backed (announced decl catalog) := by
  cases decl with
  | struct _ | enumeration _ => exact backed
  | global _ | function _ | delegate _ => exact shape_backed _ backed

theorem claim_backed {name : String} {owner : Owner} {place : Position}
    (claims : catalog.claim name owner place = .ok () claimed) (backed : Backed catalog) : Backed claimed := by
  apply backed.of_same (Catalog.claim_extends claims)
  obtain ⟨-, rfl⟩ := Catalog.claim_ok claims
  exact Catalog.addTypes_delegates _ _

theorem Announces.enters (member : decl ∈ decls) (announces : Announces decl s t)
    (entering : Entering decls s.catalog) : Entering decls t.catalog ∧ s.catalog.Extends t.catalog := by
  have within := announces.within member entering.within
  obtain ⟨_, m, place, claimed, writes, inside, claims, last⟩ := announces
  rw [last] at within ⊢
  refine ⟨⟨within, ?_⟩, ?_⟩
  · exact announced_backed decl (claim_backed claims (writes.backed entering.backed))
  · exact (writes.extends_.trans (Catalog.claim_extends claims)).trans (announced_extends decl claimed)

theorem AnnouncesAll.enters {list : List Declaration} {before after : Catalog}
    (announces : AnnouncesAll list before after) (sub : ∀ decl ∈ list, decl ∈ decls)
    (entering : Entering decls before) : Entering decls after ∧ before.Extends after := by
  induction announces with
  | nil => exact ⟨entering, .refl _⟩
  | cons head _ ih =>
    obtain ⟨here, first⟩ := head.enters (sub _ (by simp)) entering
    obtain ⟨last, rest⟩ := ih (fun decl later => sub decl (by simp [later])) here
    exact ⟨last, first.trans rest⟩

-- Each name is free when it is claimed, so that no two are the same.
theorem AnnouncesAll.distinct {before after : Catalog} (announces : AnnouncesAll decls before after) :
    (∀ decl ∈ decls, before.owner? decl.name = none ∧ Plain decl.name) ∧ (decls.map Declaration.name).Nodup := by
  induction announces with
  | nil => exact ⟨nofun, List.nodup_nil⟩
  | @cons s m _ decl others head _ ih =>
    obtain ⟨keeps, owned⟩ := head.owners
    have plain : Plain decl.name ∧ s.catalog.owner? decl.name = none := by
      obtain ⟨_, l, place, claimed, writes, -, claims, -⟩ := head
      obtain ⟨free, -⟩ := Catalog.claim_ok claims
      unfold Catalog.owner? at free ⊢
      rw [writes.names] at free
      exact ⟨Catalog.claim_plain claims, free⟩
    have later : ∀ other ∈ others, s.catalog.owner? other.name = none ∧ Plain other.name := by
      intro other member
      obtain ⟨free, also⟩ := ih.1 other member
      refine ⟨?_, also⟩
      cases before : s.catalog.owner? other.name with
      | none => rfl
      | some owner =>
        rw [keeps _ _ before] at free
        cases free
    refine ⟨List.forall_mem_cons.mpr ⟨plain.symm, later⟩, List.nodup_cons.mpr ⟨?_, ih.2⟩⟩
    intro member
    obtain ⟨other, found, same⟩ := List.mem_map.mp member
    have free := (ih.1 other found).1
    rw [same, owned] at free
    cases free

theorem initial_entering (decls : List Declaration) : Entering decls .initial := by
  have nothing : (⟨.empty, .empty, .empty, .empty, .empty, .empty, .empty⟩ : Catalog).Within (.of decls) :=
    ⟨.empty, .empty, .empty, .empty, .empty, .empty, .empty⟩
  constructor
  · apply nothing.addTypes
    intro part found
    obtain ⟨whole, listed, here⟩ := List.mem_flatMap.mp found
    obtain ⟨name, -, rfl⟩ := List.mem_map.mp listed
    cases List.mem_singleton.mp here
    exact ⟨rfl, .inl listed⟩
  · unfold Backed
    unfold Catalog.initial
    rw [Catalog.addTypes_delegates]
    exact .empty

end Grammar

end TypedScript
