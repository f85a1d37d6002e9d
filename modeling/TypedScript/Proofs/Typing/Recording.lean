import TypedScript.Proofs.Typing.Rules

namespace TypedScript.Typing

-- A type that expressions may have: it may also be that of a function.
def Recordable (leaf callable : String → Prop) (type : Ty) : Prop :=
  type.Over fun name => leaf name ∨ callable name

structure Grounded (leaf callable : String → Prop) (s : State) : Prop where
  catalog : s.catalog.Grounded leaf callable
  scopes : ∀ scope ∈ s.scopes.inner :: s.scopes.outer, scope.All fun _ type => Recordable leaf callable type
  types : ∀ id type, s.types.get? id = some type → Recordable leaf callable type

variable {leaf callable : String → Prop} {env : Vectors} {s t m : State} {type : Ty}

theorem Recordable.ofLeaf (rests : type.Over leaf) : Recordable leaf callable type := rests.mono fun _ => .inl

namespace Grounded

theorem builtin (grounded : Grounded leaf callable s) {name : String} (known : name ∈ Ty.builtinNames) :
    Recordable leaf callable (.named name) :=
  .ofLeaf (Ty.over_named.mpr (grounded.catalog.builtin name known))

theorem recorded (grounded : Grounded leaf callable s) (node : Node) (recordable : Recordable leaf callable type) :
    Grounded leaf callable (s.recorded node type) := by
  refine ⟨grounded.catalog.addType (recordable.mono ?_), grounded.scopes, ?_⟩
  · rintro name (known | called) plain
    · exact known
    · exact (grounded.catalog.marked name called plain).elim
  · intro id found entry
    rw [show (s.recorded node type).types = s.types.insertNew node.id type from rfl, Table.get?_insertNew] at entry
    rcases Option.or_eq_some_iff.mp entry with old | ⟨-, new⟩
    · exact grounded.types id found old
    · split at new
      · cases new
        exact recordable
      · cases new

theorem pushed (grounded : Grounded leaf callable s) : Grounded leaf callable s.pushed := by
  refine ⟨grounded.catalog, ?_, grounded.types⟩
  intro scope member
  rcases List.mem_cons.mp member with rfl | outer
  · exact .empty
  · exact grounded.scopes scope outer

theorem popped (grounded : Grounded leaf callable s) : Grounded leaf callable s.popped := by
  refine ⟨grounded.catalog, ?_, grounded.types⟩
  have inside := grounded.scopes
  unfold State.popped Scopes.pop
  generalize s.scopes = scopes at inside
  obtain ⟨inner, outer⟩ := scopes
  cases outer with
  | nil => exact inside
  | cons next others => exact fun scope member => inside scope (List.mem_cons_of_mem _ member)

theorem declared (grounded : Grounded leaf callable s) {name : String} {place : Position} {scopes : Scopes}
    (recordable : Recordable leaf callable type) (bound : s.scopes.declare name type place = .ok scopes) :
    Grounded leaf callable (s.rescoped scopes) := by
  obtain ⟨inner, new, same⟩ := except_bind_ok.mp bound
  cases same
  refine ⟨grounded.catalog, ?_, grounded.types⟩
  intro scope member
  rcases List.mem_cons.mp member with rfl | outer
  · unfold Scope.declare at new
    split at new
    · cases new
    · cases new
      exact (grounded.scopes s.scopes.inner List.mem_cons_self).insertNew recordable
  · exact grounded.scopes scope (List.mem_cons_of_mem _ outer)

theorem bound (grounded : Grounded leaf callable s) {name : String} (found : s.scopes.get? name = some type) :
    Recordable leaf callable type := by
  obtain ⟨scope, member, entry⟩ := List.exists_of_findSome?_eq_some found
  exact (grounded.scopes scope member).get? entry

theorem start {catalog : Catalog} (grounded : catalog.Grounded leaf callable) :
    Grounded leaf callable (.start catalog) := by
  refine ⟨grounded, ?_, nofun⟩
  intro scope member
  cases List.mem_singleton.mp member
  intro entry member
  rcases List.mem_append.mp member with first | global
  · rcases List.mem_append.mp first with enumeration | function
    · obtain ⟨name, listed, rfl⟩ := List.mem_map.mp enumeration
      obtain ⟨old, there, rfl⟩ := List.mem_map.mp listed
      exact .ofLeaf (Ty.over_named.mpr (grounded.enums old there))
    · exact (grounded.functions entry function).mono fun _ => .inr
  · exact .ofLeaf (grounded.globals entry global)

theorem known (grounded : Grounded leaf callable s) {place : Position} (plain : type.Over Plain)
    (known : s.catalog.requireKnown place type = .ok ()) : type.Over leaf :=
  grounded.catalog.known_over plain known

theorem member (grounded : Grounded leaf callable s) {object : Ty} {name : String}
    (recordable : Recordable leaf callable object) (found : MemberTyped s.catalog object name type) :
    Recordable leaf callable type := by
  rcases found with ⟨_, -, -, rfl⟩ | ⟨fields, entry, field⟩
  · exact recordable
  · obtain ⟨before, after, same, -⟩ := List.lookup_eq_some_iff.mp field
    exact .ofLeaf (grounded.catalog.struct? entry (name, type) (by simp [same]))

theorem element (grounded : Grounded leaf callable s) {container : Ty}
    (recordable : Recordable leaf callable container) (found : container.elementType? = some type) :
    Recordable leaf callable type := by
  cases container with
  | named name =>
    simp only [Ty.elementType?] at found
    split at found
    · cases found
      exact grounded.builtin (by decide)
    · cases found
  | array element =>
    cases found
    exact Ty.over_array.mp recordable
  | map key value =>
    cases found
    exact (Ty.over_map.mp recordable).2

end Grounded

theorem binaryType?_cases {catalog : Catalog} {operator : BinaryOp} {left right : Ty}
    (found : binaryType? catalog env operator left right = some type) :
    type = .bool ∨ type = .num ∨ type = .string ∨ type = left ∨ type = right := by
  unfold binaryType? sumType? differenceType? productType? equalityType? at found
  cases operator <;> grind

theorem containerOpType_ok {catalog : Catalog} {op : ContainerOp} {callee : Ty} {place : Position}
    {arguments : List Argument} (found : containerOpType catalog op callee place arguments = .ok type) :
    ∃ container ∈ arguments, ∃ types, ContainerTypes.of? op.container container.type = some types ∧
      type = types.result op.result := by
  cases arguments with
  | nil => cases found
  | cons container others =>
    simp only [containerOpType] at found
    cases meant : ContainerTypes.of? op.container container.type with
    | none =>
      simp only [meant] at found
      cases found
    | some types =>
      simp only [meant, except_bind_ok] at found
      obtain ⟨_, -, same⟩ := found
      cases same
      exact ⟨container, List.mem_cons_self, types, meant, rfl⟩

theorem checked_type {arguments : List Expr} {types : List Ty} {argument : Argument}
    (member : argument ∈ checked arguments types) : argument.type ∈ types := by
  obtain ⟨⟨expr, type⟩, both, rfl⟩ := List.mem_map.mp member
  exact (List.of_mem_zip both).2

namespace Grounded

theorem binary (grounded : Grounded leaf callable s) {operator : BinaryOp} {left right : Ty}
    (first : Recordable leaf callable left) (second : Recordable leaf callable right)
    (found : binaryType? s.catalog env operator left right = some type) : Recordable leaf callable type := by
  rcases binaryType?_cases found with rfl | rfl | rfl | rfl | rfl
  · exact grounded.builtin (by decide)
  · exact grounded.builtin (by decide)
  · exact grounded.builtin (by decide)
  · exact first
  · exact second

theorem operation (grounded : Grounded leaf callable s) {op : ContainerOp} {container : Ty}
    {types : ContainerTypes} (recordable : Recordable leaf callable container)
    (meant : ContainerTypes.of? op.container container = some types) :
    Recordable leaf callable (types.result op.result) := by
  have inside : Recordable leaf callable types.whole ∧ Recordable leaf callable types.element ∧
      Recordable leaf callable types.value := by
    unfold ContainerTypes.of? at meant
    split at meant
    · cases meant
      exact ⟨recordable, Ty.over_array.mp recordable, Ty.over_array.mp recordable⟩
    · cases meant
      exact ⟨recordable, Ty.over_map.mp recordable⟩
    · cases meant
  obtain ⟨whole, element, value⟩ := inside
  cases op.result with
  | void | num | bool => exact grounded.builtin (by decide)
  | element => exact element
  | value => exact value
  | container => exact whole
  | keys => exact Ty.over_array.mpr element
  | values => exact Ty.over_array.mpr value

end Grounded

def Query.Recordable (leaf callable : String → Prop) : Query → Prop
  | .expr _ type => Typing.Recordable leaf callable type
  | .all _ types | .arguments _ _ types => ∀ type ∈ types, Typing.Recordable leaf callable type

theorem grounded_node {expr : Expr} {node : Node} (grounded : Grounded leaf callable t)
    (recordable : Recordable leaf callable type) (own : ∀ target ∈ expr.targets, target.Over leaf)
    (stated : Expr.States (Ty.Over leaf) expr.parts) :
    Grounded leaf callable (t.recorded node type) ∧ Recordable leaf callable type ∧
      Expr.States (Ty.Over leaf) [expr] :=
  ⟨grounded.recorded node recordable, recordable, Expr.states_single.mpr ⟨own, stated⟩⟩

theorem Checks.grounded {query : Query} (checks : Checks env query s t)
    (plain : Expr.States (Ty.Over Plain) query.roots) (grounded : Grounded leaf callable s) :
    Grounded leaf callable t ∧ query.Recordable leaf callable ∧ Expr.States (Ty.Over leaf) query.roots := by
  have silent : Expr.States (Ty.Over leaf) [] := List.forall_mem_nil _
  induction checks with
  | @group s t node inner type body ih =>
    obtain ⟨done, given, stated⟩ := ih (Expr.states_single.mp plain).2 grounded
    exact grounded_node done given (List.forall_mem_nil _) stated
  | @literal s node value =>
    have recordable : Recordable leaf callable value.type := by
      cases value <;> exact grounded.builtin (by decide)
    exact grounded_node grounded recordable (List.forall_mem_nil _) silent
  | name found => exact grounded_node grounded (grounded.bound found) (List.forall_mem_nil _) silent
  | @member s t node object name objectType type body found ih =>
    obtain ⟨done, given, stated⟩ := ih (Expr.states_single.mp plain).2 grounded
    exact grounded_node done (done.member given (memberType_typed found)) (List.forall_mem_nil _) stated
  | @setName s t node name operator value target given found last assigns ih =>
    obtain ⟨done, -, stated⟩ := ih (Expr.states_single.mp plain).2 grounded
    exact grounded_node done (grounded.bound found) (List.forall_mem_nil _) stated
  | @setMember s m t node object name operator value objectType target given first found last assigns one two =>
    have parts : Expr.States (Ty.Over Plain) ([object] ++ [value]) := (Expr.states_single.mp plain).2
    obtain ⟨early, late⟩ := Expr.states_append.mp parts
    obtain ⟨middle, given, left⟩ := one early grounded
    obtain ⟨done, -, right⟩ := two late middle
    exact grounded_node done (middle.member given (memberType_typed found)) (List.forall_mem_nil _)
      (Expr.states_append.mpr ⟨left, right⟩)
  | @setIndex s m n t node object index operator value container key target given first second found last assigns
      one two three =>
    have parts : Expr.States (Ty.Over Plain) ([object] ++ [index] ++ [value]) := (Expr.states_single.mp plain).2
    obtain ⟨both, late⟩ := Expr.states_append.mp parts
    obtain ⟨early, between⟩ := Expr.states_append.mp both
    obtain ⟨start, given, left⟩ := one early grounded
    obtain ⟨middle, -, centre⟩ := two between start
    obtain ⟨done, -, right⟩ := three late middle
    exact grounded_node done (middle.element given (elementType_typed found).elementType?) (List.forall_mem_nil _)
      (Expr.states_append.mpr ⟨Expr.states_append.mpr ⟨left, centre⟩, right⟩)
  | @unary s t node operator operand after body ih =>
    obtain ⟨done, given, stated⟩ := ih (Expr.states_single.mp plain).2 grounded
    exact grounded_node done given (List.forall_mem_nil _) stated
  | @binary s m t node operator left right leftType rightType type first last found one two =>
    have parts : Expr.States (Ty.Over Plain) ([left] ++ [right]) := (Expr.states_single.mp plain).2
    obtain ⟨early, late⟩ := Expr.states_append.mp parts
    obtain ⟨middle, before, left⟩ := one early grounded
    obtain ⟨done, behind, right⟩ := two late middle
    exact grounded_node done (done.binary before behind found) (List.forall_mem_nil _)
      (Expr.states_append.mpr ⟨left, right⟩)
  | @operation s m t node callee arguments calleeType type given op first meant arity last found one two =>
    have parts : Expr.States (Ty.Over Plain) ([callee] ++ arguments) := (Expr.states_single.mp plain).2
    obtain ⟨early, late⟩ := Expr.states_append.mp parts
    obtain ⟨middle, -, left⟩ := one early grounded
    obtain ⟨done, behind, right⟩ := two late middle
    obtain ⟨container, member, types, meant, rfl⟩ := containerOpType_ok found
    have recordable := done.operation (behind container.type (checked_type member)) meant
    exact grounded_node done recordable (List.forall_mem_nil _) (Expr.states_append.mpr ⟨left, right⟩)
  | @call s m t node callee arguments calleeType signature given first _ found last one two =>
    have parts : Expr.States (Ty.Over Plain) ([callee] ++ arguments) := (Expr.states_single.mp plain).2
    obtain ⟨early, late⟩ := Expr.states_append.mp parts
    obtain ⟨middle, -, left⟩ := one early grounded
    obtain ⟨done, -, right⟩ := two late middle
    have recordable := middle.catalog.delegate? found signature.returns List.mem_cons_self
    exact grounded_node done (.ofLeaf recordable) (List.forall_mem_nil _) (Expr.states_append.mpr ⟨left, right⟩)
  | @index s m t node callee argument container key type first last found one two =>
    have parts : Expr.States (Ty.Over Plain) ([callee] ++ [argument]) := (Expr.states_single.mp plain).2
    obtain ⟨early, late⟩ := Expr.states_append.mp parts
    obtain ⟨middle, before, left⟩ := one early grounded
    obtain ⟨done, -, right⟩ := two late middle
    exact grounded_node done (done.element before (elementType_typed found).elementType?) (List.forall_mem_nil _)
      (Expr.states_append.mpr ⟨left, right⟩)
  | @cast s t node operand given target body known ih =>
    obtain ⟨own, deeper⟩ := Expr.states_single.mp plain
    obtain ⟨done, -, stated⟩ := ih deeper grounded
    -- A type that is stated is only plain. It comes down to leaves because it is known here.
    have rests := done.known (own target List.mem_cons_self) known
    exact grounded_node done (.ofLeaf rests) (by simpa [Expr.targets] using rests) stated
  | @construct s t node target arguments given known last fits ih =>
    obtain ⟨own, deeper⟩ := Expr.states_single.mp plain
    have rests := grounded.known (own target List.mem_cons_self) known
    obtain ⟨done, -, stated⟩ := ih deeper grounded
    exact grounded_node done (.ofLeaf rests) (by simpa [Expr.targets] using rests) stated
  | none | noArgument => exact ⟨grounded, List.forall_mem_nil _, silent⟩
  | @cons s m t head rest type given first last one two
  | @argument s m t head rest parameter type parameters given first fits last one two =>
    have both : Expr.States (Ty.Over Plain) ([head] ++ rest) := plain
    obtain ⟨early, late⟩ := Expr.states_append.mp both
    obtain ⟨middle, here, left⟩ := one early grounded
    obtain ⟨done, there, right⟩ := two late middle
    exact ⟨done, List.forall_mem_cons.mpr ⟨here, there⟩, Expr.states_append.mpr ⟨left, right⟩⟩

theorem Initializes.grounded {given : Option Expr} (initializes : Initializes env type given s t)
    (plain : Expr.States (Ty.Over Plain) given.toList) (grounded : Grounded leaf callable s) :
    Grounded leaf callable t ∧ Expr.States (Ty.Over leaf) given.toList := by
  cases initializes with
  | none => exact ⟨grounded, nofun⟩
  | some inner _ =>
    obtain ⟨done, -, stated⟩ := inner.grounded plain grounded
    exact ⟨done, stated⟩

theorem Passes.grounded {items : List Item} (passes : Passes env items s t)
    (plain : ∀ type ∈ items.flatMap Item.written, type.Over Plain) (grounded : Grounded leaf callable s) :
    Grounded leaf callable t ∧ ∀ type ∈ items.flatMap Item.written, type.Over leaf := by
  induction passes with
  | done => exact ⟨grounded, nofun⟩
  | push _ ih => exact ih plain grounded.pushed
  | pop _ ih => exact ih plain grounded.popped
  | frame _ _ ih => exact ih plain ⟨grounded.catalog, grounded.scopes, grounded.types⟩
  | @declare s m n t items decl place known given bound rest ih =>
    obtain ⟨here, later⟩ := List.forall_mem_append.mp plain
    obtain ⟨own, inner⟩ := List.forall_mem_cons.mp here
    have rests := grounded.known own known
    obtain ⟨middle, stated⟩ := given.grounded inner grounded
    have after : Grounded leaf callable n := by
      rcases bound with rfl | ⟨_, scopes, bound, rfl⟩
      · exact middle
      · exact middle.declared (.ofLeaf rests) bound
    obtain ⟨done, others⟩ := ih later after
    exact ⟨done, List.forall_mem_append.mpr ⟨List.forall_mem_cons.mpr ⟨rests, stated⟩, others⟩⟩
  | @parameter s t items decl place scopes known bound rest ih =>
    obtain ⟨own, later⟩ := List.forall_mem_cons.mp plain
    have rests := grounded.known own known
    obtain ⟨done, others⟩ := ih later (grounded.declared (.ofLeaf rests) bound)
    exact ⟨done, List.forall_mem_cons.mpr ⟨rests, others⟩⟩
  | mention known rest ih =>
    obtain ⟨own, later⟩ := List.forall_mem_cons.mp plain
    obtain ⟨done, others⟩ := ih later grounded
    exact ⟨done, List.forall_mem_cons.mpr ⟨grounded.known own known, others⟩⟩
  | condition test rest ih =>
    obtain ⟨here, later⟩ := List.forall_mem_append.mp plain
    obtain ⟨middle, -, stated⟩ := test.grounded here grounded
    obtain ⟨done, others⟩ := ih later middle
    exact ⟨done, List.forall_mem_append.mpr ⟨stated, others⟩⟩
  | value inner rest ih =>
    obtain ⟨here, later⟩ := List.forall_mem_append.mp plain
    obtain ⟨middle, -, stated⟩ := inner.grounded here grounded
    obtain ⟨done, others⟩ := ih later middle
    exact ⟨done, List.forall_mem_append.mpr ⟨stated, others⟩⟩

end TypedScript.Typing
