import TypedScript.Proofs.Catalog.Grounding

namespace TypedScript

namespace Table

variable {α : Type} {holds : String → α → Prop} {table before middle after : Table String α} {name : String} {value : α}

def Lists (holds : String → α → Prop) (table : Table String α) : Prop :=
  ∀ name value, table.get? name = some value ↔ holds name value

theorem All.lists (all : table.All holds) (has : ∀ name value, holds name value → table.contains name = true)
    (unique : ∀ name left right, holds name left → holds name right → left = right) : table.Lists holds := by
  intro name value
  constructor
  · exact all.get?
  · intro stated
    obtain ⟨found, entry⟩ := Option.isSome_iff_exists.mp (has name value stated)
    rw [entry, unique name found value (all.get? entry) stated]

theorem Lists.get?_eq {other : Table String α} (first : table.Lists holds) (second : other.Lists holds) :
    table.get? = other.get? := by
  funext name
  apply Option.ext
  intro value
  exact (first name value).trans (second name value).symm

def Extends (before after : Table String α) : Prop :=
  ∀ name value, before.get? name = some value → after.get? name = some value

theorem Extends.refl (table : Table String α) : table.Extends table := fun _ _ found => found

theorem Extends.trans (first : before.Extends middle) (second : middle.Extends after) : before.Extends after :=
  fun name value found => second name value (first name value found)

theorem extends_insertNew (table : Table String α) (name : String) (value : α) :
    table.Extends (table.insertNew name value) := by
  intro other old found
  rw [get?_insertNew, found]
  rfl

theorem Extends.contains (grown : before.Extends after) (known : before.contains name = true) :
    after.contains name = true := by
  obtain ⟨value, entry⟩ := Option.isSome_iff_exists.mp known
  rw [Table.contains, grown name value entry]
  rfl

theorem contains_insertNew (table : Table String α) (name : String) (value : α) :
    (table.insertNew name value).contains name = true := by
  rw [contains, get?_insertNew, if_pos rfl]
  cases table.get? name <;> rfl

end Table

@[ext] structure Contents where
  types : String → Ty → Prop
  names : String → Owner → Prop
  structs : String → List (String × Ty) → Prop
  enums : String → List (String × Int) → Prop
  delegates : String → Signature → Prop
  globals : String → Ty → Prop
  functions : String → Ty → Prop

namespace Catalog

variable {contents : Contents} {catalog before middle after : Catalog} {type : Ty} {types : List Ty} {name : String}

-- A type is known with all that comes with it.
def Knows (catalog : Catalog) (type : Ty) : Prop := ∀ part ∈ type.parts, catalog.knows part.path = true

structure Within (contents : Contents) (catalog : Catalog) : Prop where
  types : catalog.types.All contents.types
  names : catalog.names.All contents.names
  structs : catalog.structs.All contents.structs
  enums : catalog.enums.All contents.enums
  delegates : catalog.delegates.All contents.delegates
  globals : catalog.globals.All contents.globals
  functions : catalog.functions.All contents.functions

structure Extends (before after : Catalog) : Prop where
  types : before.types.Extends after.types
  names : before.names.Extends after.names
  structs : before.structs.Extends after.structs
  enums : before.enums.Extends after.enums
  delegates : before.delegates.Extends after.delegates
  globals : before.globals.Extends after.globals
  functions : before.functions.Extends after.functions

structure Lists (contents : Contents) (catalog : Catalog) : Prop where
  types : catalog.types.Lists contents.types
  names : catalog.names.Lists contents.names
  structs : catalog.structs.Lists contents.structs
  enums : catalog.enums.Lists contents.enums
  delegates : catalog.delegates.Lists contents.delegates
  globals : catalog.globals.Lists contents.globals
  functions : catalog.functions.Lists contents.functions

-- Catalogs that are equal as maps. Their entries may have been made in another order.
structure Agrees (left right : Catalog) : Prop where
  types : left.types.get? = right.types.get?
  names : left.names.get? = right.names.get?
  structs : left.structs.get? = right.structs.get?
  enums : left.enums.get? = right.enums.get?
  delegates : left.delegates.get? = right.delegates.get?
  globals : left.globals.get? = right.globals.get?
  functions : left.functions.get? = right.functions.get?

theorem Lists.agrees {left right : Catalog} (first : left.Lists contents) (second : right.Lists contents) :
    left.Agrees right :=
  ⟨first.types.get?_eq second.types, first.names.get?_eq second.names, first.structs.get?_eq second.structs,
    first.enums.get?_eq second.enums, first.delegates.get?_eq second.delegates,
    first.globals.get?_eq second.globals, first.functions.get?_eq second.functions⟩

namespace Agrees

theorem refl (catalog : Catalog) : catalog.Agrees catalog := ⟨rfl, rfl, rfl, rfl, rfl, rfl, rfl⟩

theorem symm (agrees : before.Agrees after) : after.Agrees before :=
  ⟨agrees.types.symm, agrees.names.symm, agrees.structs.symm, agrees.enums.symm, agrees.delegates.symm,
    agrees.globals.symm, agrees.functions.symm⟩

theorem trans (first : before.Agrees middle) (second : middle.Agrees after) : before.Agrees after :=
  ⟨first.types.trans second.types, first.names.trans second.names, first.structs.trans second.structs,
    first.enums.trans second.enums, first.delegates.trans second.delegates, first.globals.trans second.globals,
    first.functions.trans second.functions⟩

end Agrees

namespace Extends

theorem refl (catalog : Catalog) : catalog.Extends catalog :=
  ⟨.refl _, .refl _, .refl _, .refl _, .refl _, .refl _, .refl _⟩

theorem trans (first : before.Extends middle) (second : middle.Extends after) : before.Extends after :=
  ⟨first.types.trans second.types, first.names.trans second.names, first.structs.trans second.structs,
    first.enums.trans second.enums, first.delegates.trans second.delegates, first.globals.trans second.globals,
    first.functions.trans second.functions⟩

theorem knows (grown : before.Extends after) (known : before.Knows type) : after.Knows type := by
  intro part member
  exact grown.types.contains (known part member)

end Extends

theorem addTypes_eq (catalog : Catalog) (types : List Ty) :
    catalog.addTypes types = (types.flatMap Ty.parts).foldl addPath catalog := by
  unfold addTypes addType
  rw [List.foldl_flatMap]

theorem addPaths_extends (catalog : Catalog) (parts : List Ty) : catalog.Extends (parts.foldl addPath catalog) := by
  induction parts generalizing catalog with
  | nil => exact .refl catalog
  | cons first rest ih =>
    have here : catalog.Extends (catalog.addPath first) :=
      { Extends.refl catalog with types := Table.extends_insertNew _ _ _ }
    exact here.trans (ih (catalog.addPath first))

theorem addTypes_extends (catalog : Catalog) (types : List Ty) : catalog.Extends (catalog.addTypes types) := by
  rw [addTypes_eq]
  exact catalog.addPaths_extends _

theorem addStruct_extends (catalog : Catalog) (name : String) (fields : List (String × Ty)) :
    catalog.Extends (catalog.addStruct name fields) := by
  have known := catalog.addTypes_extends (.named name :: fields.map Prod.snd)
  exact { known with structs := known.structs.trans (Table.extends_insertNew _ _ _) }

theorem addEnum_extends (catalog : Catalog) (name : String) (members : List (String × Int)) :
    catalog.Extends (catalog.addEnum name members) := by
  have known := catalog.addTypes_extends [.named name]
  exact { known with enums := known.enums.trans (Table.extends_insertNew _ _ _) }

theorem addDelegate_extends (catalog : Catalog) (name : String) (signature : Signature) :
    catalog.Extends (catalog.addDelegate name signature) := by
  have known := catalog.addTypes_extends (signature.types ++ [.named name])
  exact { known with delegates := known.delegates.trans (Table.extends_insertNew _ _ _) }

theorem addFunction_extends (catalog : Catalog) (name : String) (signature : Signature) :
    catalog.Extends (catalog.addFunction name signature) := by
  have known : catalog.Extends (if catalog.delegates.contains signature.path then catalog
      else catalog.addDelegate signature.path signature) := by
    split
    · exact .refl catalog
    · exact catalog.addDelegate_extends signature.path signature
  exact { known with functions := known.functions.trans (Table.extends_insertNew _ _ _) }

theorem addGlobal_extends (catalog : Catalog) (name : String) (type : Ty) :
    catalog.Extends (catalog.addGlobal name type) := by
  have known := catalog.addTypes_extends [type]
  exact { known with globals := known.globals.trans (Table.extends_insertNew _ _ _) }

theorem claim_extends {claimed : Catalog} {owner : Owner} {place : Position}
    (claims : catalog.claim name owner place = .ok () claimed) : catalog.Extends claimed := by
  obtain ⟨-, rfl⟩ := claim_ok claims
  have named : catalog.Extends { catalog with names := catalog.names.insertNew name owner } :=
    { Extends.refl catalog with names := Table.extends_insertNew _ _ _ }
  exact named.trans (addTypes_extends _ _)

theorem addTypes_delegates (catalog : Catalog) (types : List Ty) :
    (catalog.addTypes types).delegates = catalog.delegates := by
  obtain ⟨_, same⟩ := catalog.addTypes_types types
  rw [same]

theorem addPaths_knows (catalog : Catalog) (parts : List Ty) :
    ∀ part ∈ parts, (parts.foldl addPath catalog).knows part.path = true := by
  induction parts generalizing catalog with
  | nil => nofun
  | cons first rest ih =>
    intro part member
    rcases List.mem_cons.mp member with rfl | later
    · exact (addPaths_extends _ rest).types.contains (Table.contains_insertNew _ _ _)
    · exact ih (catalog.addPath first) part later

theorem addTypes_knows (catalog : Catalog) (member : type ∈ types) : (catalog.addTypes types).Knows type := by
  intro part inside
  rw [addTypes_eq]
  exact catalog.addPaths_knows _ part (List.mem_flatMap.mpr ⟨type, member, inside⟩)

theorem addType_of_knows (known : catalog.Knows type) : catalog.addType type = catalog := by
  unfold addType
  unfold Knows at known
  generalize type.parts = parts at known
  induction parts with
  | nil => rfl
  | cons first rest ih =>
    obtain ⟨here, later⟩ := List.forall_mem_cons.mp known
    have same : catalog.addPath first = catalog := by
      unfold addPath
      rw [Table.insertNew_of_contains _ _ _ here]
    rw [List.foldl_cons, same]
    exact ih later

theorem claim_plain {catalog claimed : Catalog} {owner : Owner} {place : Position}
    (ran : catalog.claim name owner place = .ok () claimed) : Plain name := by
  have valid := claim_required ran
  unfold requireValid at valid
  split at valid
  · rename_i holds
    simp only [isValidName, Bool.and_eq_true, List.all_eq_true, Bool.not_eq_true'] at holds
    exact ⟨by simpa using holds.1, fun c member => (holds.2 c member).2⟩
  · cases valid

namespace Within

theorem addTypes (within : catalog.Within contents)
    (stated : ∀ part ∈ types.flatMap Ty.parts, contents.types part.path part) :
    (catalog.addTypes types).Within contents := by
  rw [addTypes_eq]
  generalize types.flatMap Ty.parts = parts at stated
  induction parts generalizing catalog with
  | nil => exact within
  | cons first rest ih =>
    obtain ⟨here, later⟩ := List.forall_mem_cons.mp stated
    exact ih { within with types := within.types.insertNew here } later

end Within

end Catalog

end TypedScript
