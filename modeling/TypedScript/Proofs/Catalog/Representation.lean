import TypedScript.Proofs.Catalog.Paths
import TypedScript.Proofs.Catalog.Contents

namespace TypedScript

namespace Ty

def components : Ty → List Ty
  | named _ => []
  | array element => [element]
  | map key value => [key, value, array key, array value]

-- What comes with a type: all that it is made of, and the arrays of the keys and of the values of a map.
inductive Brings (whole : Ty) : Ty → Prop where
  | self : Brings whole whole
  | element {inner : Ty} (outer : Brings whole (.array inner)) : Brings whole inner
  | key {key value : Ty} (outer : Brings whole (.map key value)) : Brings whole key
  | value {key value : Ty} (outer : Brings whole (.map key value)) : Brings whole value
  | keys {key value : Ty} (outer : Brings whole (.map key value)) : Brings whole (.array key)
  | values {key value : Ty} (outer : Brings whole (.map key value)) : Brings whole (.array value)

theorem parts_components {type part component : Ty} (inside : part ∈ type.parts)
    (below : component ∈ part.components) : component ∈ type.parts := by
  induction type with
  | named name =>
    cases List.mem_singleton.mp inside
    cases below
  | array element ih =>
    rcases List.mem_append.mp inside with inner | last
    · exact List.mem_append_left _ (ih inner)
    · cases List.mem_singleton.mp last
      cases List.mem_singleton.mp below
      exact List.mem_append_left _ (mem_parts _)
  | map key value first second =>
    have keys := mem_parts key
    have values := mem_parts value
    simp only [parts, List.mem_append, List.mem_cons, List.not_mem_nil, or_false] at inside ⊢
    rcases inside with (inner | inner) | rfl | rfl | rfl
    · exact .inl (.inl (first inner))
    · exact .inl (.inr (second inner))
    · cases List.mem_singleton.mp below
      exact .inl (.inl keys)
    · cases List.mem_singleton.mp below
      exact .inl (.inr values)
    · simp only [components, List.mem_cons, List.not_mem_nil, or_false] at below
      rcases below with rfl | rfl | rfl | rfl
      · exact .inl (.inl keys)
      · exact .inl (.inr values)
      · exact .inr (.inl rfl)
      · exact .inr (.inr (.inl rfl))

theorem Brings.mem_parts {whole part : Ty} (brings : Brings whole part) : part ∈ whole.parts := by
  induction brings with
  | self => exact Ty.mem_parts whole
  | element _ ih | key _ ih | value _ ih | keys _ ih | values _ ih => exact parts_components ih (by simp [components])

end Ty

theorem Table.All.imp {α : Type} {holds other : String → α → Prop} {table : Table String α} (all : table.All holds)
    (wider : ∀ name value, holds name value → other name value) : table.All other :=
  fun entry member => wider entry.1 entry.2 (all entry member)

namespace Catalog

variable {world catalog before after : Catalog} {types : List Ty} {name : String} {type : Ty} {signature : Signature}

inductive Operation where
  | claim (name : String) (owner : Owner) (place : Position)
  | addType (type : Ty)
  | addStruct (name : String) (fields : List (String × Ty))
  | addEnum (name : String) (members : List (String × Int))
  | addDelegate (name : String) (signature : Signature)
  | addFunction (name : String) (signature : Signature)
  | addGlobal (name : String) (type : Ty)

-- Only a claim can fail.
def attempt (catalog : Catalog) : Operation → EStateM.Result Error Catalog Unit
  | .claim name owner place => catalog.claim name owner place
  | .addType type => .ok () (catalog.addType type)
  | .addStruct name fields => .ok () (catalog.addStruct name fields)
  | .addEnum name members => .ok () (catalog.addEnum name members)
  | .addDelegate name signature => .ok () (catalog.addDelegate name signature)
  | .addFunction name signature => .ok () (catalog.addFunction name signature)
  | .addGlobal name type => .ok () (catalog.addGlobal name type)

def perform (catalog : Catalog) (operation : Operation) : Catalog := finalState (catalog.attempt operation)

theorem attempt_error {operation : Operation} {error : Error} {left : Catalog}
    (failed : catalog.attempt operation = .error error left) : left = catalog := by
  cases operation with
  | claim name owner place => exact (claim_error_iff.mp failed).2
  | _ => cases failed

def filled (operations : List Operation) : Catalog := operations.foldl perform initial

theorem knows_named : catalog.Knows (.named name) ↔ catalog.knows name = true := by
  simp [Knows, Ty.parts, Ty.path]

-- A type is there if its path is, with the paths of all that comes with it. The names of an operation may look like
-- paths, and then one path stands for two types.
def Present (catalog : Catalog) (type : Ty) : Prop :=
  catalog.knows type.path = true ∧ ∀ part, type.Brings part → catalog.knows part.path = true

theorem Knows.present (known : catalog.Knows type) : catalog.Present type :=
  ⟨known type (Ty.mem_parts type), fun part brings => known part brings.mem_parts⟩

structure Represented (catalog : Catalog) : Prop where
  types : ∀ path type, catalog.types.get? path = some type → type.path = path
  arrays : ∀ path element, catalog.types.get? path = some (.array element) → catalog.knows element.path = true
  maps : ∀ path key value, catalog.types.get? path = some (.map key value) →
    catalog.knows key.path = true ∧ catalog.knows value.path = true ∧ catalog.knows (Ty.array key).path = true ∧
      catalog.knows (Ty.array value).path = true
  structs : ∀ name fields, catalog.structs.get? name = some fields → ∀ field ∈ fields, catalog.Present field.2
  delegates : ∀ path signature, catalog.delegates.get? path = some signature →
    catalog.Present signature.returns ∧ ∀ type ∈ signature.parameters, catalog.Present type
  globals : ∀ name type, catalog.globals.get? name = some type → catalog.Present type
  functions : ∀ name type, catalog.functions.get? name = some type →
    catalog.Present type ∧ ∃ signature, catalog.delegate? type = some signature
  typeNames : ∀ name owner, catalog.names.get? name = some owner →
    owner = .struct ∨ owner = .enumeration ∨ owner = .delegate → catalog.types.get? name = some (.named name)
  names : ∀ name owner, catalog.names.get? name = some owner → isValidName name = true

-- The tables of a catalog are in order as far as another one knows types: while a catalog is filled, the other
-- one is what it will be.
structure Ordered (world catalog : Catalog) : Prop where
  types : catalog.types.All fun path type =>
    type.path = path ∧ ∀ component ∈ type.components, world.knows component.path = true
  names : catalog.names.All fun name owner =>
    isValidName name = true ∧ (owner.isType = true → world.types.get? name = some (.named name))
  structs : catalog.structs.All fun _ fields => ∀ field ∈ fields, world.Knows field.2
  delegates : catalog.delegates.All fun path signature =>
    world.knows path = true ∧ ∀ type ∈ signature.types, world.Knows type
  globals : catalog.globals.All fun _ type => world.Knows type
  functions : catalog.functions.All fun _ type => world.Knows type ∧ world.isDelegate type = true

def InOrder (catalog : Catalog) : Prop := Ordered catalog catalog

theorem InOrder.represented (ordered : catalog.InOrder) : catalog.Represented where
  types := fun _ _ found => (ordered.types.get? found).1
  arrays := fun _ element found => (ordered.types.get? found).2 element (by simp [Ty.components])
  maps := by
    intro _ key value found
    have known := (ordered.types.get? found).2
    exact ⟨known key (by simp [Ty.components]), known value (by simp [Ty.components]),
      known (.array key) (by simp [Ty.components]), known (.array value) (by simp [Ty.components])⟩
  structs := fun _ _ found field member => (ordered.structs.get? found field member).present
  delegates := by
    intro _ signature found
    obtain ⟨-, known⟩ := ordered.delegates.get? found
    obtain ⟨returns, parameters⟩ := List.forall_mem_cons.mp known
    exact ⟨returns.present, fun type member => (parameters type member).present⟩
  globals := fun _ _ found => (ordered.globals.get? found).present
  functions := by
    intro _ type found
    obtain ⟨known, called⟩ := ordered.functions.get? found
    exact ⟨known.present, Option.isSome_iff_exists.mp called⟩
  typeNames := by
    intro _ owner found sort
    refine (ordered.names.get? found).2 ?_
    rcases sort with rfl | rfl | rfl <;> rfl
  names := fun _ _ found => (ordered.names.get? found).1

theorem Extends.isDelegate (grown : before.Extends after) (called : before.isDelegate type = true) :
    after.isDelegate type = true := by
  obtain ⟨signature, found⟩ := Option.isSome_iff_exists.mp called
  obtain ⟨name, named, entry⟩ := Option.bind_eq_some_iff.mp found
  apply Option.isSome_iff_exists.mpr
  exact ⟨signature, Option.bind_eq_some_iff.mpr ⟨name, named, grown.delegates name signature entry⟩⟩

namespace Ordered

theorem mono (ordered : Ordered before catalog) (grown : before.Extends after) : Ordered after catalog where
  types := ordered.types.imp fun _ _ placed =>
    ⟨placed.1, fun component below => grown.types.contains (placed.2 component below)⟩
  names := ordered.names.imp fun _ _ named => ⟨named.1, fun sort => grown.types _ _ (named.2 sort)⟩
  structs := ordered.structs.imp fun _ _ known field member => grown.knows (known field member)
  delegates := ordered.delegates.imp fun _ _ known =>
    ⟨grown.types.contains known.1, fun type member => grown.knows (known.2 type member)⟩
  globals := ordered.globals.imp fun _ _ known => grown.knows known
  functions := ordered.functions.imp fun _ _ known => ⟨grown.knows known.1, grown.isDelegate known.2⟩

theorem addTypes (ordered : Ordered world catalog) (known : ∀ type ∈ types, world.Knows type) :
    Ordered world (catalog.addTypes types) := by
  have components : ∀ part ∈ types.flatMap Ty.parts, ∀ component ∈ part.components,
      world.knows component.path = true := by
    intro part inside component below
    obtain ⟨type, member, there⟩ := List.mem_flatMap.mp inside
    exact known type member component (Ty.parts_components there below)
  rw [addTypes_eq]
  generalize types.flatMap Ty.parts = parts at components
  induction parts generalizing catalog with
  | nil => exact ordered
  | cons first rest ih =>
    obtain ⟨here, later⟩ := List.forall_mem_cons.mp components
    exact ih { ordered with types := ordered.types.insertNew ⟨rfl, here⟩ } later

theorem addDelegate (ordered : Ordered world catalog) (named : world.knows name = true)
    (known : ∀ type ∈ signature.types, world.Knows type) : Ordered world (catalog.addDelegate name signature) := by
  have entered : Ordered world (catalog.addTypes (signature.types ++ [.named name])) := by
    apply ordered.addTypes
    intro type member
    rcases List.mem_append.mp member with inside | last
    · exact known type inside
    · cases List.mem_singleton.mp last
      exact knows_named.mpr named
  exact { entered with delegates := entered.delegates.insertNew ⟨named, known⟩ }

-- A name without marks of paths is the path of the type it names and of no other.
theorem get?_types (ordered : Ordered world catalog) (plain : Plain name) (known : catalog.knows name = true) :
    catalog.types.get? name = some (.named name) := by
  obtain ⟨type, found⟩ := Option.isSome_iff_exists.mp known
  have placed := (ordered.types.get? found).1
  have named : type = .named type.path := Ty.named_of_plain (placed ▸ plain)
  rw [found, named, placed]

end Ordered

theorem addTypes_names_with (catalog : Catalog) (names : Table String Owner) (types : List Ty) :
    { catalog with names }.addTypes types = { catalog.addTypes types with names } := by
  rw [addTypes_eq, addTypes_eq]
  generalize types.flatMap Ty.parts = parts
  induction parts generalizing catalog with
  | nil => rfl
  | cons first rest ih => exact ih (catalog.addPath first)

theorem claim_valid {claimed : Catalog} {owner : Owner} {place : Position}
    (claims : catalog.claim name owner place = .ok () claimed) : isValidName name = true := by
  exact validName_iff.mp ⟨place, claim_required claims⟩

namespace InOrder

-- A claimed name is entered as a type before it has an owner, so that it finds its type.
theorem claim (ordered : catalog.InOrder) {claimed : Catalog} {owner : Owner} {place : Position}
    (claims : catalog.claim name owner place = .ok () claimed) : claimed.InOrder := by
  have valid := claim_valid claims
  have before := Ordered.mono ordered (claim_extends claims)
  obtain ⟨-, same⟩ := claim_ok claims
  rw [addTypes_names_with] at same
  have known : ∀ type ∈ if owner.isType then [Ty.named name] else [], claimed.Knows type := by
    intro type member
    rw [same]
    exact catalog.addTypes_knows member
  have entered := before.addTypes known
  have named : owner.isType = true → claimed.types.get? name = some (.named name) := by
    intro sort
    have found := known (.named name) (by simp [sort])
    rw [same] at found ⊢
    exact entered.get?_types (claim_plain claims) (knows_named.mp found)
  unfold InOrder
  nth_rewrite 2 [same]
  exact { entered with names := before.names.insertNew ⟨valid, named⟩ }

theorem addType (ordered : catalog.InOrder) (type : Ty) : (catalog.addType type).InOrder := by
  have before := Ordered.mono ordered (catalog.addTypes_extends [type])
  exact before.addTypes fun _ member => catalog.addTypes_knows member

theorem addStruct (ordered : catalog.InOrder) (name : String) (fields : List (String × Ty)) :
    (catalog.addStruct name fields).InOrder := by
  have before := Ordered.mono ordered (catalog.addStruct_extends name fields)
  have known : ∀ type ∈ .named name :: fields.map Prod.snd, (catalog.addStruct name fields).Knows type :=
    fun _ member => catalog.addTypes_knows member
  have entered := before.addTypes known
  refine { entered with structs := entered.structs.insertNew ?_ }
  intro field member
  exact known field.2 (List.mem_cons_of_mem _ (List.mem_map_of_mem member))

theorem addEnum (ordered : catalog.InOrder) (name : String) (members : List (String × Int)) :
    (catalog.addEnum name members).InOrder := by
  have before := Ordered.mono ordered (catalog.addEnum_extends name members)
  have known : ∀ type ∈ [Ty.named name], (catalog.addEnum name members).Knows type :=
    fun _ member => catalog.addTypes_knows member
  exact { before.addTypes known with }

theorem addDelegate (ordered : catalog.InOrder) (name : String) (signature : Signature) :
    (catalog.addDelegate name signature).InOrder := by
  have before := Ordered.mono ordered (catalog.addDelegate_extends name signature)
  have known : ∀ type ∈ signature.types ++ [.named name], (catalog.addDelegate name signature).Knows type :=
    fun _ member => catalog.addTypes_knows member
  apply before.addDelegate
  · exact knows_named.mp (known (.named name) (by simp))
  · exact fun type member => known type (List.mem_append_left _ member)

theorem addFunction (ordered : catalog.InOrder) (name : String) (signature : Signature) :
    (catalog.addFunction name signature).InOrder := by
  have shared : InOrder (if catalog.delegates.contains signature.path then catalog
      else catalog.addDelegate signature.path signature) ∧
      (if catalog.delegates.contains signature.path then catalog
        else catalog.addDelegate signature.path signature).delegates.contains signature.path = true := by
    split
    · rename_i found
      exact ⟨ordered, found⟩
    · exact ⟨ordered.addDelegate signature.path signature, Table.contains_insertNew _ _ _⟩
  obtain ⟨known, found⟩ := shared
  obtain ⟨other, entry⟩ := Option.isSome_iff_exists.mp found
  have named := (known.delegates.get? entry).1
  exact { known with functions := known.functions.insertNew ⟨knows_named.mpr named, found⟩ }

theorem addGlobal (ordered : catalog.InOrder) (name : String) (type : Ty) :
    (catalog.addGlobal name type).InOrder := by
  have before := Ordered.mono ordered (catalog.addGlobal_extends name type)
  have known : ∀ type' ∈ [type], (catalog.addGlobal name type).Knows type' :=
    fun _ member => catalog.addTypes_knows member
  have entered := before.addTypes known
  exact { entered with globals := entered.globals.insertNew (known type (by simp)) }

theorem initial : Catalog.initial.InOrder := by
  have nothing : Ordered Catalog.initial ⟨.empty, .empty, .empty, .empty, .empty, .empty, .empty⟩ :=
    ⟨.empty, .empty, .empty, .empty, .empty, .empty⟩
  exact nothing.addTypes fun _ member => addTypes_knows _ member

theorem perform (ordered : catalog.InOrder) (operation : Operation) :
    (catalog.perform operation).InOrder := by
  cases operation with
  | claim name owner place =>
    unfold Catalog.perform
    cases claims : catalog.attempt (.claim name owner place) with
    | ok _ claimed => exact ordered.claim claims
    | error _ left =>
      cases attempt_error claims
      exact ordered
  | addType type => exact ordered.addType type
  | addStruct name fields => exact ordered.addStruct name fields
  | addEnum name members => exact ordered.addEnum name members
  | addDelegate name signature => exact ordered.addDelegate name signature
  | addFunction name signature => exact ordered.addFunction name signature
  | addGlobal name type => exact ordered.addGlobal name type

end InOrder

theorem perform_extends (catalog : Catalog) (operation : Operation) :
    catalog.Extends (catalog.perform operation) := by
  cases operation with
  | claim name owner place =>
    unfold perform
    cases claims : catalog.attempt (.claim name owner place) with
    | ok _ claimed => exact claim_extends claims
    | error _ left =>
      cases attempt_error claims
      exact .refl catalog
  | addType type => exact catalog.addTypes_extends [type]
  | addStruct name fields => exact catalog.addStruct_extends name fields
  | addEnum name members => exact catalog.addEnum_extends name members
  | addDelegate name signature => exact catalog.addDelegate_extends name signature
  | addFunction name signature => exact catalog.addFunction_extends name signature
  | addGlobal name type => exact catalog.addGlobal_extends name type

theorem filled_inOrder (operations : List Operation) : (filled operations).InOrder := by
  suffices run : ∀ catalog : Catalog, catalog.InOrder → (operations.foldl perform catalog).InOrder from
    run initial .initial
  induction operations with
  | nil => exact fun _ ordered => ordered
  | cons first rest ih => exact fun catalog ordered => ih _ (ordered.perform first)

-- Whatever is done to a catalog, its tables stay represented, and an operation only adds to them. One that fails
-- leaves all as it was.
theorem operations_keep_representation (operations : List Operation) :
    (filled operations).Represented ∧
      ∀ operation, (filled operations).Extends (filled (operations ++ [operation])) ∧
        ∀ error left, (filled operations).attempt operation = .error error left →
          left = filled operations ∧ filled (operations ++ [operation]) = filled operations := by
  refine ⟨(filled_inOrder operations).represented, ?_⟩
  intro operation
  have last : filled (operations ++ [operation]) = (filled operations).perform operation := by
    unfold filled
    rw [List.foldl_append]
    rfl
  rw [last]
  refine ⟨perform_extends _ operation, ?_⟩
  intro error left failed
  have same := attempt_error failed
  unfold perform
  rw [failed]
  exact ⟨same, same⟩

theorem operations_keep_representation_aliased :
    let operations := [.claim "P" .struct (.first "p"), .addType (.named "P[]"),
      .addGlobal "g" (.map .num (.array (.named "P"))), .addStruct "P" [("next", .array (.named "P"))],
      .addStruct "P" [], .addFunction "f" ⟨.named "P", [.num]⟩]
    let again := Operation.claim "P" .enumeration (.first "q")
    (filled operations).types.names = ["P(num)", "P[][num]", "P[][]", "num[]", "P[]", "P", "null", "void", "object",
        "string", "char", "num", "bool"] ∧
      (filled operations).types.get? "P" = some (.named "P") ∧
      (filled operations).types.get? "num[]" = some (.array .num) ∧
      (filled operations).types.get? "P[][num]" = some (.map .num (.array (.named "P"))) ∧
      (filled operations).types.get? "P[]" = some (.named "P[]") ∧
      (filled operations).structs.get? "P" = some [("next", .array (.named "P"))] ∧
      (filled operations).attempt again = .error ⟨.nameTaken "P" "struct", .first "q"⟩ (filled operations) ∧
      (filled operations).Represented ∧ filled (operations ++ [again]) = filled operations := by
  intro operations again
  have taken : (filled operations).attempt again = .error ⟨.nameTaken "P" "struct", .first "q"⟩ (filled operations) := rfl
  obtain ⟨represented, step⟩ := operations_keep_representation operations
  exact ⟨rfl, rfl, rfl, rfl, rfl, rfl, taken, represented, ((step again).2 _ _ taken).2⟩

end Catalog

end TypedScript
