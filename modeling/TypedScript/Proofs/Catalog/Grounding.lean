import TypedScript.Catalog.Basic
import TypedScript.Proofs.Outcome

namespace TypedScript

namespace Ty

def names : Ty → List String
  | named name => [name]
  | array element => element.names
  | map key value => key.names ++ value.names

def isBracketed : Ty → Bool
  | named _ => false
  | array _ | map _ _ => true

def Over (leaf : String → Prop) (type : Ty) : Prop := ∀ name ∈ type.names, leaf name

variable {leaf other : String → Prop}

instance [DecidablePred leaf] (type : Ty) : Decidable (type.Over leaf) :=
  inferInstanceAs (Decidable (∀ name ∈ type.names, leaf name))

@[simp] theorem over_named {name : String} : (named name).Over leaf ↔ leaf name := by simp [Over, names]

@[simp] theorem over_array {element : Ty} : (array element).Over leaf ↔ element.Over leaf := by
  simp [Over, names]

@[simp] theorem over_map {key value : Ty} : (map key value).Over leaf ↔ key.Over leaf ∧ value.Over leaf := by
  simp only [Over, names, List.mem_append]
  constructor
  · intro rests
    exact ⟨fun name member => rests name (.inl member), fun name member => rests name (.inr member)⟩
  · rintro ⟨left, right⟩ name (here | there)
    · exact left name here
    · exact right name there

theorem Over.mono {type : Ty} (rests : type.Over leaf) (wider : ∀ name, leaf name → other name) :
    type.Over other := fun name member => wider name (rests name member)

theorem mem_parts (type : Ty) : type ∈ type.parts := by
  cases type <;> simp [parts]

theorem Over.parts {type : Ty} (rests : type.Over leaf) : ∀ part ∈ type.parts, part.Over leaf := by
  induction type with
  | named name =>
    intro part member
    cases List.mem_singleton.mp member
    exact rests
  | array element ih =>
    intro part member
    rcases List.mem_append.mp member with inner | last
    · exact ih (over_array.mp rests) part inner
    · cases List.mem_singleton.mp last
      exact rests
  | map key value first second =>
    obtain ⟨left, right⟩ := over_map.mp rests
    intro part member
    rcases List.mem_append.mp member with inner | last
    · rcases List.mem_append.mp inner with here | there
      · exact first left part here
      · exact second right part there
    · simp only [List.mem_cons, List.not_mem_nil, or_false] at last
      rcases last with rfl | rfl | rfl
      · exact over_array.mpr left
      · exact over_array.mpr right
      · exact rests

end Ty

def Plain (name : String) : Prop := name.toList ≠ [] ∧ ∀ c ∈ name.toList, Catalog.isPathMark c = false

instance (name : String) : Decidable (Plain name) :=
  @instDecidableAnd _ _ inferInstance (List.decidableBAll (fun c => Catalog.isPathMark c = false) name.toList)

theorem Ty.named_of_plain {type : Ty} (plain : Plain type.path) : type = .named type.path := by
  cases type with
  | named name => rfl
  | array element =>
    have mark : '[' ∈ (Ty.array element).path.toList := by simp [Ty.path]
    cases plain.2 '[' mark
  | map key value =>
    have mark : '[' ∈ (Ty.map key value).path.toList := by simp [Ty.path]
    cases plain.2 '[' mark

theorem Signature.path_not_plain (signature : Signature) : ¬Plain signature.path := by
  intro plain
  have mark : '(' ∈ signature.path.toList := by simp [Signature.path]
  cases plain.2 '(' mark

def Signature.types (signature : Signature) : List Ty := signature.returns :: signature.parameters

namespace Table

variable {α : Type} {holds : String → α → Prop} {table : Table String α}

def All (holds : String → α → Prop) (table : Table String α) : Prop := ∀ entry ∈ table.entries, holds entry.1 entry.2

theorem All.empty : (Table.empty : Table String α).All holds := nofun

theorem All.insertNew (all : table.All holds) {name : String} {value : α} (new : holds name value) :
    (table.insertNew name value).All holds := by
  unfold Table.insertNew
  split
  · exact all
  · intro entry member
    rcases List.mem_cons.mp member with rfl | old
    · exact new
    · exact all entry old

theorem All.get? (all : table.All holds) {name : String} {value : α} (found : table.get? name = some value) :
    holds name value := by
  obtain ⟨before, after, same, -⟩ := List.lookup_eq_some_iff.mp found
  exact all (name, value) (by simp [same])

end Table

namespace Catalog

-- All that a catalog says of types comes down to names of one sort, the leaves. Functions alone have types
-- under the paths of their signatures. Builtin names are leaves, and no plain name can be such a path.
structure Grounded (leaf callable : String → Prop) (catalog : Catalog) : Prop where
  builtin : ∀ name ∈ Ty.builtinNames, leaf name
  marked : ∀ path, callable path → ¬Plain path
  types : catalog.types.All fun path _ => Plain path → leaf path
  structs : catalog.structs.All fun _ fields => ∀ field ∈ fields, field.2.Over leaf
  enums : catalog.enums.All fun name _ => leaf name
  delegates : catalog.delegates.All fun _ signature => ∀ type ∈ signature.types, type.Over leaf
  globals : catalog.globals.All fun _ type => type.Over leaf
  functions : catalog.functions.All fun _ type => type.Over callable

theorem addType_types (catalog : Catalog) (type : Ty) :
    ∃ types, catalog.addType type = { catalog with types } := by
  have parts : ∀ (list : List Ty) (catalog : Catalog),
      ∃ types, list.foldl Catalog.addPath catalog = { catalog with types } := by
    intro list
    induction list with
    | nil => exact fun catalog => ⟨catalog.types, rfl⟩
    | cons first rest ih =>
      intro catalog
      obtain ⟨types, same⟩ := ih (catalog.addPath first)
      exact ⟨types, same⟩
  exact parts type.parts catalog

theorem addTypes_types (catalog : Catalog) (list : List Ty) :
    ∃ types, catalog.addTypes list = { catalog with types } := by
  induction list generalizing catalog with
  | nil => exact ⟨catalog.types, rfl⟩
  | cons first rest ih =>
    obtain ⟨types, same⟩ := catalog.addType_types first
    obtain ⟨later, after⟩ := ih (catalog.addType first)
    refine ⟨later, after.trans ?_⟩
    rw [same]

theorem addTypes_append (catalog : Catalog) (left right : List Ty) :
    catalog.addTypes (left ++ right) = (catalog.addTypes left).addTypes right := List.foldl_append

@[simp] theorem addType_names (catalog : Catalog) (type : Ty) : (catalog.addType type).names = catalog.names := by
  obtain ⟨types, same⟩ := catalog.addType_types type
  rw [same]

@[simp] theorem addTypes_names (catalog : Catalog) (list : List Ty) :
    (catalog.addTypes list).names = catalog.names := by
  obtain ⟨types, same⟩ := catalog.addTypes_types list
  rw [same]

theorem addStruct_names (catalog : Catalog) (name : String) (fields : List (String × Ty)) :
    (catalog.addStruct name fields).names = catalog.names := catalog.addTypes_names _

theorem addEnum_names (catalog : Catalog) (name : String) (members : List (String × Int)) :
    (catalog.addEnum name members).names = catalog.names := catalog.addType_names _

theorem addDelegate_names (catalog : Catalog) (name : String) (signature : Signature) :
    (catalog.addDelegate name signature).names = catalog.names := catalog.addTypes_names _

theorem addGlobal_names (catalog : Catalog) (name : String) (type : Ty) :
    (catalog.addGlobal name type).names = catalog.names := catalog.addType_names _

theorem addFunction_names (catalog : Catalog) (name : String) (signature : Signature) :
    (catalog.addFunction name signature).names = catalog.names := by
  unfold addFunction
  dsimp only
  split
  · rfl
  · exact catalog.addTypes_names _

namespace Grounded

variable {leaf callable : String → Prop} {catalog : Catalog}

theorem addPath (grounded : catalog.Grounded leaf callable) {type : Ty}
    (rests : type.Over fun name => Plain name → leaf name) : (catalog.addPath type).Grounded leaf callable := by
  refine { grounded with types := grounded.types.insertNew ?_ }
  intro plain
  have named := Ty.named_of_plain plain
  rw [named] at rests
  exact Ty.over_named.mp rests plain

-- A type that is entered may also be built from names that no program can write.
theorem addType (grounded : catalog.Grounded leaf callable) {type : Ty}
    (rests : type.Over fun name => Plain name → leaf name) : (catalog.addType type).Grounded leaf callable := by
  have each := rests.parts
  unfold Catalog.addType
  generalize type.parts = parts at each
  induction parts generalizing catalog with
  | nil => exact grounded
  | cons first rest ih =>
    exact ih (grounded.addPath (each first (by simp))) fun part later => each part (by simp [later])

theorem addTypes (grounded : catalog.Grounded leaf callable) {types : List Ty}
    (rests : ∀ type ∈ types, type.Over fun name => Plain name → leaf name) :
    (catalog.addTypes types).Grounded leaf callable := by
  unfold Catalog.addTypes
  induction types generalizing catalog with
  | nil => exact grounded
  | cons first rest ih =>
    exact ih (grounded.addType (rests first (by simp))) fun type later => rests type (by simp [later])

theorem addStruct (grounded : catalog.Grounded leaf callable) {name : String} {fields : List (String × Ty)}
    (named : leaf name) (rests : ∀ field ∈ fields, field.2.Over leaf) :
    (catalog.addStruct name fields).Grounded leaf callable := by
  have known : Grounded leaf callable (catalog.addTypes (.named name :: fields.map Prod.snd)) := by
    refine grounded.addTypes fun type member => ?_
    rcases List.mem_cons.mp member with rfl | inner
    · exact Ty.over_named.mpr fun _ => named
    · obtain ⟨field, there, rfl⟩ := List.mem_map.mp inner
      exact (rests field there).mono fun _ found _ => found
  exact { known with structs := known.structs.insertNew rests }

theorem addEnum (grounded : catalog.Grounded leaf callable) {name : String} {members : List (String × Int)}
    (named : leaf name) : (catalog.addEnum name members).Grounded leaf callable := by
  have known : Grounded leaf callable (catalog.addType (.named name)) :=
    grounded.addType (Ty.over_named.mpr fun _ => named)
  exact { known with enums := known.enums.insertNew named }

theorem addDelegate (grounded : catalog.Grounded leaf callable) {name : String} {signature : Signature}
    (named : Plain name → leaf name) (rests : ∀ type ∈ signature.types, type.Over leaf) :
    (catalog.addDelegate name signature).Grounded leaf callable := by
  have known : Grounded leaf callable (catalog.addTypes (signature.types ++ [.named name])) := by
    refine grounded.addTypes fun type member => ?_
    rcases List.mem_append.mp member with inner | last
    · exact (rests type inner).mono fun _ found _ => found
    · cases List.mem_singleton.mp last
      exact Ty.over_named.mpr named
  exact { known with delegates := known.delegates.insertNew rests }

theorem addFunction (grounded : catalog.Grounded leaf callable) {name : String} {signature : Signature}
    (called : callable signature.path) (rests : ∀ type ∈ signature.types, type.Over leaf) :
    (catalog.addFunction name signature).Grounded leaf callable := by
  have known : Grounded leaf callable
      (if catalog.delegates.contains signature.path then catalog
        else catalog.addDelegate signature.path signature) := by
    split
    · exact grounded
    · exact grounded.addDelegate (fun plain => (signature.path_not_plain plain).elim) rests
  exact { known with functions := known.functions.insertNew (Ty.over_named.mpr called) }

theorem addGlobal (grounded : catalog.Grounded leaf callable) {name : String} {type : Ty}
    (rests : type.Over leaf) : (catalog.addGlobal name type).Grounded leaf callable := by
  have known : Grounded leaf callable (catalog.addType type) :=
    grounded.addType (rests.mono fun _ found _ => found)
  exact { known with globals := known.globals.insertNew rests }

theorem initial (builtin : ∀ name ∈ Ty.builtinNames, leaf name) (marked : ∀ path, callable path → ¬Plain path) :
    Catalog.initial.Grounded leaf callable := by
  have nothing : (⟨.empty, .empty, .empty, .empty, .empty, .empty, .empty⟩ : Catalog).Grounded leaf callable :=
    ⟨builtin, marked, .empty, .empty, .empty, .empty, .empty, .empty⟩
  refine nothing.addTypes fun type member => ?_
  obtain ⟨name, there, rfl⟩ := List.mem_map.mp member
  exact Ty.over_named.mpr fun _ => builtin name there

theorem known_over (grounded : catalog.Grounded leaf callable) {place : Position} {type : Ty}
    (plain : type.Over Plain) (known : catalog.requireKnown place type = .ok ()) : type.Over leaf := by
  induction type with
  | named name =>
    rw [Ty.over_named] at plain ⊢
    unfold requireKnown at known
    split at known
    · rename_i found
      rcases Bool.or_eq_true _ _ ▸ found with builtin | entered
      · exact grounded.builtin name (by simpa [Ty.isBuiltin] using builtin)
      · obtain ⟨type, entry⟩ := Option.isSome_iff_exists.mp entered
        exact grounded.types.get? entry plain
    · cases known
  | array element ih => exact Ty.over_array.mpr (ih (Ty.over_array.mp plain) known)
  | map key value first second =>
    obtain ⟨left, right⟩ := Ty.over_map.mp plain
    obtain ⟨_, here, there⟩ := except_bind_ok.mp known
    exact Ty.over_map.mpr ⟨first left here, second right there⟩

theorem struct? (grounded : catalog.Grounded leaf callable) {type : Ty} {fields : List (String × Ty)}
    (found : catalog.struct? type = some fields) : ∀ field ∈ fields, field.2.Over leaf := by
  obtain ⟨name, -, entry⟩ := Option.bind_eq_some_iff.mp found
  exact grounded.structs.get? entry

theorem delegate? (grounded : catalog.Grounded leaf callable) {type : Ty} {signature : Signature}
    (found : catalog.delegate? type = some signature) : ∀ type ∈ signature.types, type.Over leaf := by
  obtain ⟨name, -, entry⟩ := Option.bind_eq_some_iff.mp found
  exact grounded.delegates.get? entry

end Grounded

section Claims

variable {catalog claimed left : Catalog} {name : String} {owner : Owner} {place : Position} {error : Error}

-- A claim enters a free name with its owner, and the type that it names if it names one.
theorem claim_ok_iff :
    catalog.claim name owner place = .ok () claimed ↔ catalog.requireFree name place = .ok () ∧
      claimed = { catalog with names := catalog.names.insertNew name owner }.addTypes
        (if owner.isType then [.named name] else []) := by
  unfold claim
  cases catalog.requireFree name place with
  | error error =>
    constructor
    · intro ran
      cases ran
    · rintro ⟨failed, -⟩
      cases failed
  | ok free =>
    simp only [true_and, EStateM.Result.ok.injEq]
    split
    · exact eq_comm
    · exact eq_comm

theorem claim_error_iff :
    catalog.claim name owner place = .error error left ↔
      catalog.requireFree name place = .error error ∧ left = catalog := by
  unfold claim
  cases catalog.requireFree name place with
  | error fault => simp [eq_comm]
  | ok free =>
    constructor
    · intro ran
      cases ran
    · rintro ⟨failed, -⟩
      cases failed

theorem requireFree_ok :
    catalog.requireFree name place = .ok () ↔ requireValid name place = .ok () ∧ catalog.owner? name = none := by
  simp only [requireFree, except_bind_ok]
  cases catalog.owner? name with
  | none => exact ⟨fun ⟨_, valid, _⟩ => ⟨valid, rfl⟩, fun ⟨valid, _⟩ => ⟨(), valid, rfl⟩⟩
  | some owner => simp

theorem claim_ok (ran : catalog.claim name owner place = .ok () claimed) :
    catalog.owner? name = none ∧
      claimed = { catalog with names := catalog.names.insertNew name owner }.addTypes
        (if owner.isType then [.named name] else []) := by
  obtain ⟨free, same⟩ := claim_ok_iff.mp ran
  exact ⟨(requireFree_ok.mp free).2, same⟩

theorem claim_required (ran : catalog.claim name owner place = .ok () claimed) : requireValid name place = .ok () :=
  (requireFree_ok.mp (claim_ok_iff.mp ran).1).1

end Claims

theorem claim_grounded {leaf callable : String → Prop} {catalog claimed : Catalog} {name : String}
    {owner : Owner} {place : Position} (grounded : catalog.Grounded leaf callable)
    (named : owner.isType = true → leaf name) (ran : catalog.claim name owner place = .ok () claimed) :
    claimed.Grounded leaf callable := by
  obtain ⟨-, rfl⟩ := claim_ok ran
  have renamed : Grounded leaf callable { catalog with names := catalog.names.insertNew name owner } :=
    { grounded with }
  refine renamed.addTypes fun type member => ?_
  split at member
  · rename_i sort
    cases List.mem_singleton.mp member
    exact Ty.over_named.mpr fun _ => named sort
  · cases member

end Catalog

end TypedScript
