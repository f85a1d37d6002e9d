import TypedScript.Proofs.Program.Phases
import TypedScript.Proofs.Typing.Containers

namespace TypedScript.Typing

def Fresh (s : State) (exprs : List Expr) : Prop :=
  (exprs.map Expr.id).Nodup ∧ ∀ expr ∈ exprs, s.types.get? expr.id = none

def Extends (left right : TypeMap) : Prop := ∀ id type, left.get? id = some type → right.get? id = some type

variable {env : Vectors} {s t m : State} {expr : Expr} {exprs others parts : List Expr} {node : Node} {type : Ty}
  {catalog : Catalog} {types : TypeMap}

namespace Fresh

theorem left (fresh : Fresh s (exprs ++ others)) : Fresh s exprs := by
  obtain ⟨distinct, absent⟩ := fresh
  rw [List.map_append, List.nodup_append] at distinct
  exact ⟨distinct.1, fun expr member => absent expr (List.mem_append_left others member)⟩

theorem right (fresh : Fresh s (exprs ++ others)) (records : Records s m exprs) : Fresh m others := by
  obtain ⟨distinct, absent⟩ := fresh
  rw [List.map_append, List.nodup_append] at distinct
  refine ⟨distinct.2.1, ?_⟩
  intro expr member
  have old := absent expr (List.mem_append_right exprs member)
  cases found : m.types.get? expr.id with
  | none => rfl
  | some type =>
    have known := (records expr.id).mp (by rw [found]; rfl)
    rw [old] at known
    rcases known with before | ⟨other, there, same⟩
    · cases before
    · have apart := distinct.2.2 other.id (List.mem_map_of_mem there) expr.id (List.mem_map_of_mem member)
      exact (apart same).elim

theorem pair (fresh : Fresh s (Expr.allOf (exprs ++ others))) (records : Records s m (Expr.allOf exprs)) :
    Fresh s (Expr.allOf exprs) ∧ Fresh m (Expr.allOf others) := by
  rw [Expr.allOf_append] at fresh
  exact ⟨fresh.left, fresh.right records⟩

theorem within (fresh : Fresh s (Expr.allOf [expr])) : Fresh s (Expr.allOf expr.parts) := by
  obtain ⟨distinct, absent⟩ := fresh
  rw [Expr.allOf_single] at distinct absent
  rw [List.map_cons, List.nodup_cons] at distinct
  exact ⟨distinct.2, fun found member => absent found (List.mem_cons_of_mem expr member)⟩

-- The record of an expression is the first one under its identity, so that it counts.
theorem typed (fresh : Fresh s (Expr.allOf [expr])) (records : Records s m (Expr.allOf expr.parts))
    (same : expr.node = node) : Typed (m.recorded node type).types expr type := by
  have rest : Fresh s (Expr.allOf expr.parts ++ [expr]) := by
    obtain ⟨distinct, absent⟩ := fresh
    rw [Expr.allOf_single] at distinct absent
    refine ⟨?_, fun found member => absent found (by simpa [or_comm] using member)⟩
    rw [List.map_append, List.nodup_append]
    rw [List.map_cons, List.nodup_cons] at distinct
    refine ⟨distinct.2, by simp, ?_⟩
    intro id here other there equal
    cases List.mem_singleton.mp there
    exact distinct.1 (equal ▸ here)
  have absent := (rest.right records).2 expr (by simp)
  show (m.types.insertNew node.id type).get? expr.id = some type
  rw [Table.get?_insertNew, absent, ← same]
  simp [Expr.id]

end Fresh

def Query.Holds (catalog : Catalog) (types : TypeMap) : Query → Prop
  | .expr found type => Typed types found type
  | .all found given => TypedAll types found given
  | .arguments found parameters _ => Fit catalog types parameters found

theorem Fit.arity {parameters : List Ty} {arguments : List Expr} (fit : Fit catalog types parameters arguments) :
    arguments.length = parameters.length := by
  induction fit with
  | nil => rfl
  | cons _ _ _ ih => simp [ih]

theorem TypedAll.length_eq {given : List Ty} (typed : TypedAll types exprs given) : given.length = exprs.length := by
  induction typed with
  | nil => rfl
  | cons _ _ ih => simp [ih]

structure Later (s : State) (catalog : Catalog) (types : TypeMap) : Prop where
  grown : ∃ types, catalog = { s.catalog with types }
  kept : Extends s.types types

theorem Later.shape (later : Later s catalog types) : SameShape s.catalog catalog := by
  obtain ⟨_, same⟩ := later.grown
  exact .of_types same

theorem Later.before (later : Later t catalog types) (grows : Grows s t) : Later s catalog types := by
  obtain ⟨⟨_, rfl⟩, kept⟩ := later
  obtain ⟨⟨_, same⟩, grown⟩ := grows
  refine ⟨⟨_, by rw [same]⟩, ?_⟩
  exact fun id type found => kept id type (grown id type found)

theorem valid_node (fresh : Fresh s (Expr.allOf [expr])) (records : Records s m (Expr.allOf expr.parts))
    (same : expr.node = node) (later : Later (m.recorded node type) catalog types)
    (inner : ∀ found ∈ Expr.allOf expr.parts, Valid catalog env types found)
    (rule : Typed types expr type → Valid catalog env types expr) :
    (∀ found ∈ Expr.allOf [expr], Valid catalog env types found) ∧ Typed types expr type := by
  have whole : Typed types expr type := later.kept _ _ (fresh.typed records same)
  refine ⟨?_, whole⟩
  rw [Expr.allOf_single]
  intro found member
  rcases List.mem_cons.mp member with rfl | deeper
  · exact rule whole
  · exact inner found deeper

theorem valid_append (first : ∀ found ∈ Expr.allOf exprs, Valid catalog env types found)
    (second : ∀ found ∈ Expr.allOf others, Valid catalog env types found) :
    ∀ found ∈ Expr.allOf (exprs ++ others), Valid catalog env types found := by
  intro found member
  rw [Expr.allOf_append] at member
  rcases List.mem_append.mp member with here | there
  · exact first found here
  · exact second found there

theorem Checks.valid {query : Query} (checks : Checks env query s t) (fresh : Fresh s (Expr.allOf query.roots))
    (later : Later t catalog types) :
    (∀ found ∈ Expr.allOf query.roots, Valid catalog env types found) ∧ query.Holds catalog types := by
  induction checks with
  | @group s t node inner type body ih =>
    obtain ⟨deeper, typed⟩ := ih fresh.within (later.before (.recorded _ _ _))
    exact valid_node fresh body.records rfl later deeper (.group typed)
  | literal => exact valid_node fresh (.nil rfl) rfl later (List.forall_mem_nil _) (.literal · (literal_typed _))
  | name _ => exact valid_node fresh (.nil rfl) rfl later (List.forall_mem_nil _) .name
  | @member s t node object name objectType type body found ih =>
    have before := later.before (.recorded _ _ _)
    obtain ⟨deeper, typed⟩ := ih fresh.within before
    -- A rule is tested in the catalog of its moment. Later catalogs have the same shape, so that it holds in the last
    -- one too.
    rw [before.shape.memberType] at found
    exact valid_node fresh body.records rfl later deeper (.member typed · (memberType_typed found))
  | @setName s t node name operator value target given bound last assigns ih =>
    have before := later.before (.recorded _ _ _)
    obtain ⟨deeper, typed⟩ := ih fresh.within before
    have rule := before.shape.assigns (assigns_typed assigns)
    exact valid_node fresh last.records rfl later deeper (.setName typed · rule)
  | @setMember s m t node object name operator value objectType target given first found last assigns one two =>
    have parts : Fresh s (Expr.allOf ([object] ++ [value])) := fresh.within
    obtain ⟨early, late⟩ := parts.pair first.records
    have after := later.before (.recorded _ _ _)
    have middle := after.before last.grows
    obtain ⟨left, object⟩ := one early middle
    obtain ⟨right, value⟩ := two late after
    rw [middle.shape.memberType] at found
    have rule := after.shape.assigns (assigns_typed assigns)
    exact valid_node fresh (first.records.roots last.records) rfl later (valid_append left right)
      (.setMember object value · (memberType_typed found) rule)
  -- The target is typed before the value is checked, so that its rule holds in `middle` and the other one in `after`.
  | @setIndex s m n t node object index operator value container key target given first second found last assigns
      one two three =>
    have parts : Fresh s (Expr.allOf ([object] ++ [index] ++ [value])) := fresh.within
    obtain ⟨start, late⟩ := parts.pair (first.records.roots second.records)
    obtain ⟨early, between⟩ := start.pair first.records
    have after := later.before (.recorded _ _ _)
    have middle := after.before last.grows
    obtain ⟨left, object⟩ := one early (middle.before second.grows)
    obtain ⟨centre, index⟩ := two between middle
    obtain ⟨right, value⟩ := three late after
    rw [middle.shape.elementType] at found
    have rule := after.shape.assigns (assigns_typed assigns)
    exact valid_node fresh ((first.records.roots second.records).roots last.records) rfl later
      (valid_append (valid_append left centre) right)
      (.setIndex object index value · (elementType_typed found) rule)
  | @unary s t node operator operand after body ih =>
    obtain ⟨deeper, typed⟩ := ih fresh.within (later.before (.recorded _ _ _))
    cases operator with
    | not => exact valid_node fresh body.records rfl later deeper (.not typed)
    | negate | increment | decrement => exact valid_node fresh body.records rfl later deeper (.numeric nofun typed)
  | @binary s m t node operator left right leftType rightType type first last found one two =>
    have parts : Fresh s (Expr.allOf ([left] ++ [right])) := fresh.within
    obtain ⟨early, late⟩ := parts.pair first.records
    have after := later.before (.recorded _ _ _)
    obtain ⟨before, left⟩ := one early (after.before last.grows)
    obtain ⟨behind, right⟩ := two late after
    rw [after.shape.binaryType?] at found
    exact valid_node fresh (first.records.roots last.records) rfl later (valid_append before behind)
      (.binary left right · (binaryType?_typed found))
  | @operation s m t node callee arguments calleeType type given op first meant arity last found one two =>
    have parts : Fresh s (Expr.allOf ([callee] ++ arguments)) := fresh.within
    obtain ⟨early, late⟩ := parts.pair first.records
    have after := later.before (.recorded _ _ _)
    have middle := after.before last.grows
    obtain ⟨before, callee⟩ := one early middle
    obtain ⟨behind, arguments⟩ := two late after
    rw [middle.shape.containerOp?, containerOp?_eq_some] at meant
    rw [after.shape.containerOpType, containerOpType_follows meant.listed
      ((checked_length arguments.length_eq).trans arity), checked_types arguments.length_eq] at found
    exact valid_node fresh (first.records.roots last.records) rfl later (valid_append before behind)
      (.operation meant callee arguments · found)
  | @call s m t node callee arguments calleeType signature given first plain found last one two =>
    have parts : Fresh s (Expr.allOf ([callee] ++ arguments)) := fresh.within
    obtain ⟨early, late⟩ := parts.pair first.records
    have after := later.before (.recorded _ _ _)
    have middle := after.before last.grows
    obtain ⟨before, typed⟩ := one early middle
    obtain ⟨behind, fit⟩ := two late after
    rw [middle.shape.containerOp?] at plain
    rw [middle.shape.delegate?] at found
    have none : ∀ op, ¬ Means catalog callee op := fun op meant =>
      Option.some_ne_none op ((containerOp?_eq_some.mpr meant).symm.trans plain)
    exact valid_node fresh (first.records.roots last.records) rfl later (valid_append before behind)
      (.call none typed found fit.arity fit)
  | @index s m t node callee argument container key type first last found one two =>
    have parts : Fresh s (Expr.allOf ([callee] ++ [argument])) := fresh.within
    obtain ⟨early, late⟩ := parts.pair first.records
    have after := later.before (.recorded _ _ _)
    obtain ⟨before, callee⟩ := one early (after.before last.grows)
    obtain ⟨behind, argument⟩ := two late after
    rw [after.shape.elementType] at found
    exact valid_node fresh (first.records.roots last.records) rfl later (valid_append before behind)
      (.index callee argument · (elementType_typed found))
  | @cast s t node operand given target body known ih =>
    obtain ⟨deeper, typed⟩ := ih fresh.within (later.before (.recorded _ _ _))
    exact valid_node fresh body.records rfl later deeper (.cast typed)
  | @construct s t node target arguments given known last fits ih =>
    have after := later.before (.recorded _ _ _)
    obtain ⟨deeper, typed⟩ := ih fresh.within after
    rw [after.shape.requireConstruction] at fits
    have rule := requireConstruction_builds fits
    rw [checked_types typed.length_eq] at rule
    exact valid_node fresh last.records rfl later deeper (.construct typed · rule)
  | none => exact ⟨List.forall_mem_nil _, .nil⟩
  | @cons s m t head rest type given first last one two =>
    have both : Fresh s (Expr.allOf ([head] ++ rest)) := fresh
    obtain ⟨early, late⟩ := both.pair first.records
    obtain ⟨before, head⟩ := one early (later.before last.grows)
    obtain ⟨behind, rest⟩ := two late later
    exact ⟨valid_append before behind, .cons head rest⟩
  | noArgument => exact ⟨List.forall_mem_nil _, .nil⟩
  | @argument s m t head rest parameter type parameters given first fits last one two =>
    have both : Fresh s (Expr.allOf ([head] ++ rest)) := fresh
    obtain ⟨early, late⟩ := both.pair first.records
    have middle := later.before last.grows
    obtain ⟨before, head⟩ := one early middle
    obtain ⟨behind, rest⟩ := two late later
    rw [middle.shape.accepts] at fits
    exact ⟨valid_append before behind, .cons head fits rest⟩

theorem Initializes.valid {given : Option Expr} (initializes : Initializes env type given s t)
    (fresh : Fresh s (Expr.allOf given.toList)) (later : Later t catalog types) :
    (∀ found ∈ Expr.allOf given.toList, Valid catalog env types found) ∧
      ∀ value ∈ given, ∃ given, Typed types value given ∧ catalog.accepts type given = true := by
  cases initializes with
  | none => exact ⟨nofun, nofun⟩
  | some inner fits =>
    obtain ⟨deeper, typed⟩ := inner.valid fresh later
    rw [later.shape.accepts] at fits
    refine ⟨deeper, ?_⟩
    intro value member
    cases member
    exact ⟨_, typed, fits⟩

theorem valid_item {item : Item} {items : List Item} (here : ItemValid catalog types item)
    (inner : ∀ found ∈ item.exprs, Valid catalog env types found)
    (rest : (∀ item ∈ items, ItemValid catalog types item) ∧
      ∀ found ∈ items.flatMap Item.exprs, Valid catalog env types found) :
    (∀ found ∈ item :: items, ItemValid catalog types found) ∧
      ∀ found ∈ (item :: items).flatMap Item.exprs, Valid catalog env types found := by
  constructor
  · intro found member
    rcases List.mem_cons.mp member with rfl | there
    · exact here
    · exact rest.1 found there
  · intro found member
    rw [List.flatMap_cons] at member
    rcases List.mem_append.mp member with first | there
    · exact inner found first
    · exact rest.2 found there

theorem Passes.valid {items : List Item} (passes : Passes env items s t)
    (fresh : Fresh s (items.flatMap Item.exprs)) (later : Later t catalog types) :
    (∀ item ∈ items, ItemValid catalog types item) ∧
      ∀ found ∈ items.flatMap Item.exprs, Valid catalog env types found := by
  induction passes with
  | done => exact ⟨nofun, nofun⟩
  | push _ ih | pop _ ih | frame _ _ ih => exact ih fresh later
  | parameter _ _ _ ih | mention _ _ ih => exact valid_item trivial nofun (ih fresh later)
  | declare _ given bound rest ih =>
    obtain ⟨same, records⟩ := bound_same bound
    have middle := later.before (rest.grows.same same records)
    obtain ⟨inner, fits⟩ := given.valid fresh.left middle
    have after := fresh.right given.records
    unfold Fresh at after ih
    rw [records] at ih
    exact valid_item fits inner (ih after later)
  | condition test rest ih =>
    obtain ⟨inner, typed⟩ := test.valid fresh.left (later.before rest.grows)
    exact valid_item typed inner (ih (fresh.right test.records) later)
  | value inner rest ih =>
    obtain ⟨deeper, -⟩ := inner.valid fresh.left (later.before rest.grows)
    exact valid_item trivial deeper (ih (fresh.right inner.records) later)

end TypedScript.Typing

namespace TypedScript

open Typing

-- The types of a program that is accepted are a typing of it: in the catalog at the end, and with the types as
-- they are recorded, every expression keeps the rule of its form, every condition is boolean and every
-- initializer fits the type of its variable.
theorem types_valid {options : Options} {given : List Source} {program : Program}
    (accepted : compile options given = .ok program) :
    (∀ item ∈ program.items, ItemValid program.catalog program.types item) ∧
      ∀ expr ∈ program.exprs, Valid program.catalog options.vectors program.types expr := by
  obtain ⟨_, numbered⟩ := compile_numbered accepted
  obtain ⟨entered, t, passes, recorded, left⟩ := compile_passes accepted
  have fresh : Fresh (.start entered) program.exprs := by
    refine ⟨?_, fun _ _ => rfl⟩
    have distinct := numbered.distinct
    rwa [Item.allOf_roots] at distinct
  rw [← recorded, ← left]
  exact passes.valid fresh ⟨⟨_, rfl⟩, fun _ _ found => found⟩

def fieldsAndElements : List Source :=
  [⟨"main.sc", "enum E \x7b A \x7d struct P \x7b E e = E.A; num x; \x7d struct Lib \x7b num at; \x7d Lib array; " ++
    "num f(num[] v, P p) \x7b if (!(p.e == E.A)) \x7b v[0] += f(v, p); \x7d " ++
    "string[char] m = new string[char]('a', \"b\" + v[1]); p = new P(E.A); m['c'] = new string[](\"d\")[0]; " ++
    "return -array.at(v, 0); \x7d"⟩]

def fieldsAndElementsTypes : List String :=
  ["E", "E", "bool", "bool", "bool", "E", "P", "E", "E", "num", "num[]", "num", "num", "num(num[],P)", "num[]", "P",
    "string[char]", "char", "string", "string", "num", "num[]", "num", "P", "P", "E", "E", "string", "string[char]",
    "char", "string", "string[]", "string", "num", "num", "num", "num", "Lib", "num[]", "num"]

theorem types_valid_fieldsAndElements :
    ∃ program, compile ⟨false, []⟩ fieldsAndElements = .ok program ∧
      program.exprs.map (fun expr => ((program.types.get? expr.id).getD .void).path) = fieldsAndElementsTypes ∧
      (∀ item ∈ program.items, ItemValid program.catalog program.types item) ∧
      ∀ expr ∈ program.exprs, Valid program.catalog [] program.types expr := by
  have tested : yields (fun program => program.exprs.map
        (fun expr => ((program.types.get? expr.id).getD .void).path) == fieldsAndElementsTypes)
      (compile ⟨false, []⟩ fieldsAndElements) = true := by
    decide +kernel
  obtain ⟨program, accepted, same⟩ := yields_ok tested
  exact ⟨program, accepted, eq_of_beq same, types_valid accepted⟩

end TypedScript
