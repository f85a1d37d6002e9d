import TypedScript.Proofs.Catalog.Assignability
import TypedScript.Proofs.Typing.Rules

namespace TypedScript.Typing

-- What may be given in a role where callees are declared as in the prelude. All but numbers and comparators are taken
-- as by a place of the container.
inductive Suits (catalog : Catalog) : Ty → ArgumentRole → Ty → Prop where
  | container (whole : Ty) : Suits catalog whole .container whole
  | num (whole : Ty) : Suits catalog whole .num .num
  | element {element given : Ty} (takes : catalog.accepts element given = true) :
      Suits catalog (.array element) .element given
  | key {key value given : Ty} (takes : catalog.accepts key given = true) : Suits catalog (.map key value) .key given
  | value {key value given : Ty} (takes : catalog.accepts value given = true) :
      Suits catalog (.map key value) .value given
  | unordered (element : Ty) : Suits catalog (.array element) .comparator .null
  | ordered {element given : Ty} (compares : catalog.delegate? given = some ⟨.num, [element, element]⟩) :
      Suits catalog (.array element) .comparator given

-- The rule of an operation: the first argument is a container of its kind, there is one argument for each role and
-- suits it, and the result is that of the container.
inductive ContainerOp.Typed (catalog : Catalog) (op : ContainerOp) : List Ty → Ty → Prop where
  | mk {whole type : Ty} {others : List Ty} (holds : op.container.Holds whole)
      (suit : List.Forall₂ (Suits catalog whole) op.arguments (whole :: others)) (gives : Gives whole op.result type) :
      Typed catalog op (whole :: others) type

theorem SameShape.symm {left right : Catalog} (shape : SameShape left right) : SameShape right left :=
  ⟨shape.names.symm, shape.structs.symm, shape.enums.symm, shape.delegates.symm⟩

theorem Suits.shape {left right : Catalog} (shape : SameShape left right) {whole given : Ty} {role : ArgumentRole}
    (suits : Suits left whole role given) : Suits right whole role given := by
  cases suits with
  | container => exact .container _
  | num => exact .num _
  | element takes => exact .element (shape.accepts ▸ takes)
  | key takes => exact .key (shape.accepts ▸ takes)
  | value takes => exact .value (shape.accepts ▸ takes)
  | unordered => exact .unordered _
  | ordered compares => exact .ordered (shape.delegate? ▸ compares)

theorem SameShape.typed {left right : Catalog} (shape : SameShape left right) {op : ContainerOp} {given : List Ty}
    {type : Ty} : op.Typed left given type ↔ op.Typed right given type := by
  constructor
  · rintro ⟨holds, suit, gives⟩
    exact .mk holds (suit.imp fun _ _ suits => suits.shape shape) gives
  · rintro ⟨holds, suit, gives⟩
    exact .mk holds (suit.imp fun _ _ suits => suits.shape shape.symm) gives

def Container.roles : Container → List ArgumentRole
  | .array => [.num, .element, .comparator]
  | .map => [.num, .key, .value]

def Container.results : Container → List ResultRole
  | .array => [.void, .num, .bool, .element, .container]
  | .map => [.void, .num, .bool, .value, .container, .keys, .values]

theorem ContainerOp.regular : ∀ op ∈ all, op.arguments = .container :: op.arguments.tail ∧
    (∀ role ∈ op.arguments.tail, role ∈ op.container.roles) ∧ op.result ∈ op.container.results := by
  decide

variable {catalog : Catalog} {container : Container} {types : ContainerTypes} {whole element given : Ty}
  {declared : Option Ty}

def Compares (catalog : Catalog) (declared : Option Ty) : Prop :=
  ∃ parameter left right, declared = some parameter ∧ catalog.delegate? parameter = some ⟨.num, [left, right]⟩

def ContainerOp.Comparable (catalog : Catalog) (callee : Ty) (op : ContainerOp) : Prop :=
  ∀ i : Nat, op.arguments[i]? = some .comparator →
    Compares catalog ((catalog.delegate? callee).elim [] Signature.parameters)[i]?

theorem SameShape.comparable {left right : Catalog} (shape : SameShape left right) {callee : Ty} {op : ContainerOp}
    (comparable : op.Comparable left callee) : op.Comparable right callee := by
  unfold ContainerOp.Comparable Compares at comparable ⊢
  rwa [← shape.delegate?]

theorem fits_pair {left right : Ty} {signature : Signature} :
    Signature.fits ⟨.num, [left, right]⟩ [element, element] signature = true ↔
      signature = ⟨.num, [element, element]⟩ := by
  obtain ⟨returns, parameters⟩ := signature
  simp only [Signature.fits, Signature.overridden, Bool.and_eq_true, beq_iff_eq, Signature.mk.injEq]
  constructor
  · rintro ⟨⟨-, same⟩, result⟩
    exact ⟨result.symm, same.symm⟩
  · rintro ⟨rfl, rfl⟩
    exact ⟨⟨rfl, rfl⟩, rfl⟩

theorem serves_comparator (apart : catalog.BuiltinsApart) (compares : Compares catalog declared) :
    Serves catalog declared (.array element) .comparator given ↔
      given = .null ∨ catalog.delegate? given = some ⟨.num, [element, element]⟩ := by
  obtain ⟨parameter, left, right, rfl, wanted⟩ := compares
  have compared {signature : Signature} (null : given ≠ .null) (called : catalog.delegate? given = some signature) :
      catalog.acceptsWith (some [element, element]) parameter given = true ↔
        signature = ⟨.num, [element, element]⟩ := by
    have void : given ≠ .void := apart.ne called (by decide)
    have object : parameter ≠ .object := apart.ne wanted (by decide)
    have string : parameter ≠ .string := apart.ne wanted (by decide)
    rw [← @fits_pair element left right]
    simp [Catalog.acceptsWith, void, null, object, string, wanted, called]
  by_cases null : given = .null
  · rw [null]
    exact ⟨fun _ => .inl rfl, fun _ => .unordered element⟩
  constructor
  · rintro (_ | _ | _ | _ | _ | _ | ⟨called, fits⟩)
    · exact absurd rfl null
    · rw [(compared null called).mp (fits parameter rfl)] at called
      exact .inr called
  · rintro (same | called)
    · exact absurd same null
    · refine .ordered called fun _ same => ?_
      cases same
      exact (compared null called).mpr rfl

theorem accepts_num (apart : catalog.BuiltinsApart) : catalog.accepts .num given = true ↔ given = .num := by
  constructor
  · intro accepted
    exact (Catalog.takes_of_accepts accepted).into_least apart (by decide)
  · rintro rfl
    exact (Catalog.Takes.same _).accepts apart

theorem ContainerTypes.of?_iff : ContainerTypes.of? container whole ≠ none ↔ container.Holds whole := by
  constructor
  · intro found
    unfold ContainerTypes.of? at found
    split at found
    · exact .array _
    · exact .map _ _
    · exact absurd rfl found
  · rintro (element | ⟨key, value⟩)
    · exact Option.some_ne_none _
    · exact Option.some_ne_none _

theorem suits_element : Suits catalog (.array element) .element given ↔ catalog.accepts element given = true := by
  constructor
  · rintro ⟨⟩
    assumption
  · exact .element

theorem acceptsComparator_serves : acceptsComparator catalog element declared given = true ↔
    Serves catalog declared (.array element) .comparator given := by
  unfold acceptsComparator
  rw [Bool.or_eq_true, decide_eq_true_eq, Bool.and_eq_true, Catalog.isDelegate, Option.isSome_iff_exists]
  constructor
  · rintro (rfl | ⟨⟨signature, called⟩, fits⟩)
    · exact .unordered element
    · refine .ordered called fun parameter same => ?_
      cases same
      exact fits
  · rintro (_ | _ | _ | _ | _ | _ | ⟨called, fits⟩)
    · exact .inl rfl
    · refine .inr ⟨⟨_, called⟩, ?_⟩
      cases declared with
      | none => rfl
      | some parameter => exact fits parameter rfl

theorem requireRole_ok {role : ArgumentRole} (meant : ContainerTypes.of? container whole = some types)
    (served : role ∈ container.roles) (index : Nat) (argument : Argument) :
    requireRole catalog types declared index role argument = .ok () ↔
      Serves catalog declared whole role argument.type := by
  have holds : container.Holds whole := ContainerTypes.of?_iff.mp (by simp [meant])
  have measured {wanted : Ty} (wants : types.wanted? role = some wanted) :
      requireRole catalog types declared index role argument = .ok () ↔
        catalog.accepts wanted argument.type = true := by
    simp [requireRole, wants]
  cases holds with
  | array element =>
    cases meant
    simp only [Container.roles, List.mem_cons, List.not_mem_nil, or_false] at served
    rcases served with rfl | rfl | rfl
    · exact (measured rfl).trans ⟨.num, by rintro ⟨⟩; assumption⟩
    · exact (measured rfl).trans ⟨.element, by rintro ⟨⟩; assumption⟩
    · rw [← acceptsComparator_serves]
      simp [requireRole, ContainerTypes.wanted?]
  | map key value =>
    cases meant
    simp only [Container.roles, List.mem_cons, List.not_mem_nil, or_false] at served
    rcases served with rfl | rfl | rfl
    · exact (measured rfl).trans ⟨.num, by rintro ⟨⟩; assumption⟩
    · exact (measured rfl).trans ⟨.key, by rintro ⟨⟩; assumption⟩
    · exact (measured rfl).trans ⟨.value, by rintro ⟨⟩; assumption⟩

theorem requireRoles_ok {parameters : List Ty} {index : Nat} {roles : List ArgumentRole} {arguments : List Argument}
    (meant : ContainerTypes.of? container whole = some types) (served : ∀ role ∈ roles, role ∈ container.roles)
    (length : arguments.length = roles.length) :
    requireRoles catalog types parameters index roles arguments = .ok () ↔
      ServeAll catalog parameters whole index roles (arguments.map Argument.type) := by
  induction roles generalizing index arguments with
  | nil =>
    cases List.length_eq_zero_iff.mp length
    exact ⟨fun _ => .nil, fun _ => rfl⟩
  | cons role roles ih =>
    obtain ⟨argument, others, rfl⟩ := List.exists_cons_of_length_eq_add_one length
    obtain ⟨here, later⟩ := List.forall_mem_cons.mp served
    rw [requireRoles, except_bind_ok, List.map_cons]
    constructor
    · rintro ⟨_, first, rest⟩
      exact .cons ((requireRole_ok meant here index argument).mp first) ((ih later (Nat.succ.inj length)).mp rest)
    · rintro (_ | ⟨first, rest⟩)
      exact ⟨(), (requireRole_ok meant here index argument).mpr first, (ih later (Nat.succ.inj length)).mpr rest⟩

theorem gives_iff {role : ResultRole} {type : Ty} (meant : ContainerTypes.of? container whole = some types)
    (served : role ∈ container.results) : Gives whole role type ↔ types.result role = type := by
  have holds : container.Holds whole := ContainerTypes.of?_iff.mp (by simp [meant])
  constructor
  · intro gives
    cases holds with
    | array element =>
      cases meant
      cases gives <;> rfl
    | map key value =>
      cases meant
      cases gives <;> rfl
  · rintro rfl
    cases holds with
    | array element =>
      cases meant
      simp only [Container.results, List.mem_cons, List.not_mem_nil, or_false] at served
      rcases served with rfl | rfl | rfl | rfl | rfl <;> constructor
    | map key value =>
      cases meant
      simp only [Container.results, List.mem_cons, List.not_mem_nil, or_false] at served
      rcases served with rfl | rfl | rfl | rfl | rfl | rfl | rfl <;> constructor

theorem containerOpType_follows {op : ContainerOp} {callee type : Ty} {place : Position} {arguments : List Argument}
    (listed : op ∈ ContainerOp.all) (length : arguments.length = op.arguments.length) :
    containerOpType catalog op callee place arguments = .ok type ↔
      op.Follows catalog callee (arguments.map Argument.type) type := by
  obtain ⟨first, served, results⟩ := ContainerOp.regular op listed
  generalize op.arguments.tail = roles at first served
  rw [first] at length
  obtain ⟨container, others, rfl⟩ := List.exists_cons_of_length_eq_add_one length
  cases meant : ContainerTypes.of? op.container container.type with
  | none =>
    constructor
    · intro found
      simp only [containerOpType, meant] at found
      cases found
    · rintro ⟨holds, -, -⟩
      exact absurd meant (ContainerTypes.of?_iff.mpr holds)
  | some types =>
    have measured (parameters : List Ty) := @requireRoles_ok catalog _ _ _ parameters 1 _ _ meant served (Nat.succ.inj length)
    simp only [containerOpType, meant, except_bind_ok, first, List.tail_cons, List.map_cons]
    constructor
    · rintro ⟨_, passed, same⟩
      cases same
      refine .mk (ContainerTypes.of?_iff.mp (by simp [meant])) ?_ ((gives_iff meant results).mpr rfl)
      rw [first]
      exact .cons (.container _) ((measured _).mp passed)
    · rintro ⟨-, serve, gives⟩
      rw [first] at serve
      obtain _ | ⟨-, rest⟩ := serve
      refine ⟨(), (measured _).mpr rest, ?_⟩
      rw [(gives_iff meant results).mp gives]
      rfl

-- Where comparators are declared, the rule needs no declarations.
theorem serves_iff {role : ArgumentRole} (apart : catalog.BuiltinsApart)
    (compares : role = .comparator → Compares catalog declared) :
    Serves catalog declared whole role given ↔ Suits catalog whole role given := by
  constructor
  · intro serves
    cases serves with
    | container => exact .container _
    | num takes =>
      cases (accepts_num apart).mp takes
      exact .num _
    | element takes => exact .element takes
    | key takes => exact .key takes
    | value takes => exact .value takes
    | unordered => exact .unordered _
    | ordered called fits =>
      rcases (serves_comparator apart (compares rfl)).mp (.ordered called fits) with rfl | ordered
      · exact .unordered _
      · exact .ordered ordered
  · intro suits
    cases suits with
    | container => exact .container _
    | num => exact .num ((accepts_num apart).mpr rfl)
    | element takes => exact .element takes
    | key takes => exact .key takes
    | value takes => exact .value takes
    | unordered => exact .unordered _
    | ordered called => exact (serves_comparator apart (compares rfl)).mpr (.inr called)

theorem serveAll_iff {parameters others : List Ty} {index : Nat} {roles : List ArgumentRole}
    (apart : catalog.BuiltinsApart)
    (compares : ∀ i : Nat, roles[i]? = some .comparator → Compares catalog parameters[index + i]?) :
    ServeAll catalog parameters whole index roles others ↔ List.Forall₂ (Suits catalog whole) roles others := by
  induction roles generalizing index others with
  | nil =>
    constructor
    · rintro ⟨⟩
      exact .nil
    · rintro ⟨⟩
      exact .nil
  | cons role roles ih =>
    have first {given : Ty} : Serves catalog parameters[index]? whole role given ↔ Suits catalog whole role given :=
      serves_iff apart fun same => compares 0 (congrArg some same)
    have shifted : ∀ i : Nat, roles[i]? = some .comparator → Compares catalog parameters[index + 1 + i]? := by
      intro i found
      rw [Nat.add_assoc, Nat.add_comm 1 i]
      exact compares (i + 1) found
    constructor
    · rintro (_ | ⟨serves, rest⟩)
      exact .cons (first.mp serves) ((ih shifted).mp rest)
    · rintro (_ | ⟨suits, rest⟩)
      exact .cons (first.mpr suits) ((ih shifted).mpr rest)

theorem ContainerOp.follows_iff {op : ContainerOp} {callee type : Ty} {types : List Ty} (apart : catalog.BuiltinsApart)
    (comparable : op.Comparable catalog callee) :
    op.Follows catalog callee types type ↔ op.Typed catalog types type := by
  have suit {whole : Ty} {types : List Ty} := @serveAll_iff catalog whole _ types 0 op.arguments apart (by
    intro i found
    rw [Nat.zero_add]
    exact comparable i found)
  constructor
  · rintro ⟨holds, serve, gives⟩
    exact .mk holds (suit.mp serve) gives
  · rintro ⟨holds, suits, gives⟩
    exact .mk holds (suit.mpr suits) gives

theorem checkAll_length {env : Vectors} {exprs : List Expr} {s t : State} {given : List Ty}
    (ran : checkAll exprs env s = .ok given t) : given.length = exprs.length := by
  induction exprs generalizing s given with
  | nil =>
    simp only [checkAll, pure_ok] at ran
    rw [← ran.1]
    rfl
  | cons first others ih =>
    simp only [checkAll, bind_ok, pure_ok] at ran
    obtain ⟨_, m, -, types, n, last, rfl, rfl⟩ := ran
    rw [List.length_cons, ih last, List.length_cons]

theorem checked_types {arguments : List Expr} {given : List Ty} (length : given.length = arguments.length) :
    (checked arguments given).map Argument.type = given := by
  unfold checked
  rw [List.map_map]
  exact List.map_snd_zip (Nat.le_of_eq length)

theorem checked_length {arguments : List Expr} {given : List Ty} (length : given.length = arguments.length) :
    (checked arguments given).length = arguments.length := by
  rw [← List.length_map Argument.type, checked_types length, length]

theorem ContainerOp.Typed.length {op : ContainerOp} {given : List Ty} {type : Ty}
    (typed : op.Typed catalog given type) : given.length = op.arguments.length := by
  obtain ⟨-, suit, -⟩ := typed
  exact suit.length_eq.symm

theorem checkExpr_operation {env : Vectors} {s m t last : State} {node : Node} {callee : Expr} {arguments : List Expr}
    {op : ContainerOp} {calleeType type : Ty} {given : List Ty} (before : checkExpr callee env s = .ok calleeType m)
    (meant : containerOp? m.catalog callee = some op) (between : checkAll arguments env m = .ok given t)
    (apart : t.catalog.BuiltinsApart) (comparable : op.Comparable t.catalog calleeType) :
    checkExpr (.call node callee arguments) env s = .ok type last ↔
      op.Typed t.catalog given type ∧ last = t.recorded node type := by
  have same := checkAll_length between
  have typed (place : Position) (arity : arguments.length = op.arguments.length) :
      containerOpType t.catalog op calleeType place (checked arguments given) = .ok type ↔
        op.Typed t.catalog given type := by
    have listed := (containerOp?_eq_some.mp meant).listed
    rw [containerOpType_follows listed ((checked_length same).trans arity), checked_types same,
      ContainerOp.follows_iff apart comparable]
  rw [checkExpr, bind_of_ok before, catalog_bind]
  simp only [meant, bind_ok, catalog_bind, require_ok, requireArity_ok, record_ok]
  constructor
  · rintro ⟨_, _, ⟨arity, rfl⟩, _, _, ran, _, _, ⟨found, rfl⟩, rfl, rfl⟩
    cases between.symm.trans ran
    exact ⟨(typed _ arity).mp found, rfl⟩
  · rintro ⟨found, rfl⟩
    have arity : arguments.length = op.arguments.length := same.symm.trans found.length
    exact ⟨(), m, ⟨arity, rfl⟩, given, t, between, type, t, ⟨(typed _ arity).mpr found, rfl⟩, rfl, rfl⟩

end TypedScript.Typing
