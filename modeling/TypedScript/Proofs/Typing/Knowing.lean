import TypedScript.Proofs.Catalog.Contents
import TypedScript.Proofs.Typing.Recording

namespace TypedScript

namespace Catalog.Knows

variable {catalog : Catalog} {left right : Ty}

theorem element (known : catalog.Knows (.array left)) : catalog.Knows left :=
  fun part inside => known part (List.mem_append_left _ inside)

theorem key (known : catalog.Knows (.map left right)) : catalog.Knows left :=
  fun part inside => known part (List.mem_append_left _ (List.mem_append_left _ inside))

theorem value (known : catalog.Knows (.map left right)) : catalog.Knows right :=
  fun part inside => known part (List.mem_append_left _ (List.mem_append_right _ inside))

theorem keys (known : catalog.Knows (.map left right)) : catalog.Knows (.array left) := by
  intro part inside
  rcases List.mem_append.mp inside with deeper | last
  · exact known.key part deeper
  · cases List.mem_singleton.mp last
    exact known _ (by simp [Ty.parts])

theorem values (known : catalog.Knows (.map left right)) : catalog.Knows (.array right) := by
  intro part inside
  rcases List.mem_append.mp inside with deeper | last
  · exact known.value part deeper
  · cases List.mem_singleton.mp last
    exact known _ (by simp [Ty.parts])

end Catalog.Knows

namespace Typing

-- A catalog that knows every type that it speaks of.
structure Complete (catalog : Catalog) : Prop where
  builtin : ∀ name ∈ Ty.builtinNames, catalog.Knows (.named name)
  structs : ∀ name fields, catalog.structs.get? name = some fields → ∀ field ∈ fields, catalog.Knows field.2
  enums : ∀ name members, catalog.enums.get? name = some members → catalog.Knows (.named name)
  delegates : ∀ path signature, catalog.delegates.get? path = some signature →
    ∀ type ∈ signature.types, catalog.Knows type
  globals : ∀ name type, catalog.globals.get? name = some type → catalog.Knows type
  functions : ∀ name type, catalog.functions.get? name = some type → catalog.Knows type

namespace Complete

variable {catalog : Catalog} {env : Vectors} {type : Ty}

theorem literal (complete : Complete catalog) (value : Literal) : catalog.Knows value.type := by
  cases value <;> exact complete.builtin _ (by decide)

theorem member (complete : Complete catalog) {object : Ty} {name : String} (known : catalog.Knows object)
    (found : MemberTyped catalog object name type) : catalog.Knows type := by
  rcases found with ⟨_, -, -, rfl⟩ | ⟨fields, entry, field⟩
  · exact known
  · obtain ⟨before, after, same, -⟩ := List.lookup_eq_some_iff.mp field
    obtain ⟨text, -, listed⟩ := Option.bind_eq_some_iff.mp entry
    exact complete.structs text fields listed (name, type) (by simp [same])

theorem element (complete : Complete catalog) {container : Ty} (known : catalog.Knows container)
    (found : container.elementType? = some type) : catalog.Knows type := by
  cases container with
  | named name =>
    simp only [Ty.elementType?] at found
    split at found
    · cases found
      exact complete.builtin _ (by decide)
    · cases found
  | array element =>
    cases found
    exact known.element
  | map key value =>
    cases found
    exact known.value

theorem binary (complete : Complete catalog) {operator : BinaryOp} {left right : Ty} (first : catalog.Knows left)
    (second : catalog.Knows right) (found : binaryType? catalog env operator left right = some type) :
    catalog.Knows type := by
  rcases binaryType?_cases found with rfl | rfl | rfl | rfl | rfl
  · exact complete.builtin _ (by decide)
  · exact complete.builtin _ (by decide)
  · exact complete.builtin _ (by decide)
  · exact first
  · exact second

-- Keys and values come as arrays, which a map brings with it. Those of an array are the array itself.
theorem operation (complete : Complete catalog) {op : ContainerOp} {container : Ty} {types : ContainerTypes}
    (known : catalog.Knows container) (meant : ContainerTypes.of? op.container container = some types) :
    catalog.Knows (types.result op.result) := by
  have inside : catalog.Knows types.whole ∧ (catalog.Knows types.element ∧ catalog.Knows types.value) ∧
      catalog.Knows (.array types.element) ∧ catalog.Knows (.array types.value) := by
    unfold ContainerTypes.of? at meant
    split at meant
    · cases meant
      exact ⟨known, ⟨known.element, known.element⟩, known, known⟩
    · cases meant
      exact ⟨known, ⟨known.key, known.value⟩, known.keys, known.values⟩
    · cases meant
  obtain ⟨whole, ⟨element, value⟩, keys, values⟩ := inside
  cases op.result with
  | void | num | bool => exact complete.builtin _ (by decide)
  | element => exact element
  | value => exact value
  | container => exact whole
  | keys => exact keys
  | values => exact values

theorem returns (complete : Complete catalog) {callee : Ty} {signature : Signature}
    (found : catalog.delegate? callee = some signature) : catalog.Knows signature.returns := by
  obtain ⟨path, -, entry⟩ := Option.bind_eq_some_iff.mp found
  exact complete.delegates path signature entry _ List.mem_cons_self

theorem required (complete : Complete catalog) {place : Position}
    (written : type.isBracketed = true → catalog.Knows type) (known : catalog.requireKnown place type = .ok ()) :
    catalog.Knows type := by
  cases type with
  | named name =>
    unfold Catalog.requireKnown at known
    split at known
    · rename_i found
      rcases Bool.or_eq_true _ _ ▸ found with builtin | entered
      · exact complete.builtin name (by simpa [Ty.isBuiltin] using builtin)
      · intro part inside
        cases List.mem_singleton.mp inside
        exact entered
    · cases known
  | array element => exact written rfl
  | map key value => exact written rfl

end Complete

end Typing

end TypedScript
