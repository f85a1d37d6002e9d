import TypedScript.Proofs.Typing.Twins

namespace TypedScript.Typing

variable {pair : Pairing} {place other : Position}

namespace Pairing

def Written (pair : Pairing) (items : List Item) : Prop :=
  ∀ type ∈ items.flatMap Item.written, type.isBracketed = true → pair.Known type

theorem Written.append {left right : List Item} (written : pair.Written (left ++ right)) :
    pair.Written left ∧ pair.Written right := by
  unfold Written at written
  rw [List.flatMap_append] at written
  exact List.forall_mem_append.mp written

theorem Written.cons {item : Item} {items : List Item} (written : pair.Written (item :: items)) :
    pair.Written [item] ∧ pair.Written items := by
  rw [← List.singleton_append] at written
  exact written.append

theorem Written.item {item : Item} (written : pair.Written [item]) :
    (∀ type ∈ item.types, type.isBracketed = true → pair.Known type) ∧ pair.Stated item.roots := by
  unfold Written at written
  rw [List.flatMap_singleton] at written
  exact List.forall_mem_append.mp written

theorem Written.values {exprs : List Expr} (written : pair.Written (exprs.map .value)) : pair.Stated exprs := by
  induction exprs with
  | nil => exact List.forall_mem_nil _
  | cons first others ih =>
    obtain ⟨here, later⟩ := written.cons
    rw [← List.singleton_append]
    exact Expr.states_append.mpr ⟨here.item.2, ih later⟩

end Pairing

namespace Twin

theorem checkCondition {condition test : Expr} (conditions : condition.Mirrors pair.At pair.Ids test)
    (written : pair.Written [.condition condition]) :
    Twin pair (fun _ => True) (checkCondition condition) (checkCondition test) :=
  (checkExpr conditions written.item.2).bind fun _ _ => .ite (.pure ⟨rfl, trivial⟩) (fail _ conditions.start)

theorem checkInitializer (type : Ty) {value given : Option Expr}
    (values : Option.Rel (Expr.Mirrors pair.At pair.Ids) value given) (stated : pair.Stated value.toList) :
    Twin pair (fun _ => True) (checkInitializer type value) (checkInitializer type given) := by
  cases values with
  | none => exact pure trivial
  | some exprs => exact (checkExpr exprs stated).bind fun found _ => requireAssignable exprs.start type found

theorem checkVariable {decl copy : Variable} (decls : decl.Mirrors pair.At pair.Ids copy)
    (written : pair.Written [.declare decl]) :
    Twin pair (fun _ => pair.Known decl.type) (checkVariable decl) (checkVariable copy) := by
  obtain ⟨types, stated⟩ := written.item
  unfold Typing.checkVariable
  rw [← decls.type]
  refine (requireKnown decls.span.start (types decl.type List.mem_cons_self)).bind fun _ known => ?_
  exact (checkInitializer decl.type decls.initializer stated).imp fun _ _ => known

theorem checkLocal {decl copy : Variable} (decls : decl.Mirrors pair.At pair.Ids copy)
    (written : pair.Written [.declare decl]) : Twin pair (fun _ => True) (checkLocal decl) (checkLocal copy) := by
  refine (checkVariable decls written).bind fun _ known => ?_
  rw [← decls.name, ← decls.type]
  exact bindLocal decls.span.start decl.name known

theorem checkOpening {opening copy : Opening} (mirrors : opening.Mirrors pair.At pair.Ids copy)
    (written : pair.Written [opening.item]) :
    Twin pair (fun _ => True) (checkOpening opening) (checkOpening copy) := by
  cases mirrors with
  | declare decls => exact checkLocal decls written
  | evaluate exprs => exact (checkExpr exprs written.item.2).bind fun _ _ => pure trivial

theorem checkOpenings {list others : List Opening} (lists : List.Forall₂ (Opening.Mirrors pair.At pair.Ids) list others)
    (written : pair.Written (list.map Opening.item)) :
    Twin pair (fun _ => True) (checkOpenings list) (checkOpenings others) := by
  induction lists with
  | nil => exact pure trivial
  | cons firsts _ ih =>
    obtain ⟨here, later⟩ := written.cons
    exact (checkOpening firsts here).bind fun _ _ => ih later

theorem checkOptionalCondition {condition test : Option Expr}
    (conditions : Option.Rel (Expr.Mirrors pair.At pair.Ids) condition test)
    (written : pair.Written (condition.toList.map .condition)) :
    Twin pair (fun _ => True) (checkOptionalCondition condition) (checkOptionalCondition test) := by
  cases conditions with
  | none => exact pure trivial
  | some exprs => exact checkCondition exprs written

theorem checkReturn (places : pair.At place other) {value given : Option Expr}
    (values : Option.Rel (Expr.Mirrors pair.At pair.Ids) value given)
    (written : pair.Written (value.toList.map .value)) :
    Twin pair (fun _ => True) (checkReturn place value) (checkReturn other given) := by
  refine (currentFunction places).bind fun frame _ => ?_
  cases values with
  | none => exact .ite (.pure ⟨rfl, trivial⟩) (fail _ places)
  | some exprs =>
    exact .ite (fail _ exprs.start) ((checkExpr exprs written.item.2).bind fun type _ =>
      (requireAssignable exprs.start frame.returns type).bind fun _ _ => markReturned)

theorem ownScope {stmt copy : Stmt} (stmts : stmt.Mirrors pair.At pair.Ids copy) {body inner : Check Unit}
    (bodies : Twin pair (fun _ => True) body inner) :
    Twin pair (fun _ => True) (ownScope stmt body) (ownScope copy inner) := by
  have block : stmt.isBlock = copy.isBlock := by cases stmts <;> rfl
  unfold Typing.ownScope
  rw [block]
  exact .ite bodies bodies.inScope

mutual

theorem checkStmt {stmt copy : Stmt} (mirrors : stmt.Mirrors pair.At pair.Ids copy)
    (written : pair.Written stmt.items) : Twin pair (fun _ => True) (checkStmt stmt) (checkStmt copy) := by
  cases mirrors with
  | block _ bodies => exact (checkStmts bodies written).inScope
  | declare decls => exact checkLocal decls written
  | evaluate _ exprs => exact (checkExpr exprs written.item.2).bind fun _ _ => pure trivial
  | @jump _ _ kind _ _ spans values =>
    cases kind with
    | returning => exact checkReturn spans.start values written
    | breaking | continuing => exact pure trivial
  | ifThen _ conditions bodies =>
    obtain ⟨test, rest⟩ := written.cons
    exact (checkCondition conditions test).bind fun _ _ => ownScope bodies (checkStmt bodies rest)
  | ifElse _ conditions bodies others =>
    obtain ⟨test, both⟩ := written.cons
    obtain ⟨first, second⟩ := both.append
    exact (checkCondition conditions test).bind fun _ _ => (ownScope bodies (checkStmt bodies first)).bind fun _ _ =>
      ownScope others (checkStmt others second)
  | whileLoop _ conditions bodies =>
    obtain ⟨test, rest⟩ := written.cons
    exact (checkCondition conditions test).bind fun _ _ => ownScope bodies (checkStmt bodies rest)
  | forLoop _ firsts conditions lasts bodies =>
    obtain ⟨before, last⟩ := written.append
    obtain ⟨before, steps⟩ := before.append
    obtain ⟨first, test⟩ := before.append
    refine inScope ?_
    exact (checkOpenings firsts first).bind fun _ _ => (checkOptionalCondition conditions test).bind fun _ _ =>
      (checkAll lasts steps.values).bind fun _ _ => ownScope bodies (checkStmt bodies last)

theorem checkStmts {list others : List Stmt} (lists : List.Forall₂ (Stmt.Mirrors pair.At pair.Ids) list others)
    (written : pair.Written (Stmt.itemsOf list)) :
    Twin pair (fun _ => True) (checkStmts list) (checkStmts others) := by
  cases lists with
  | nil => exact pure trivial
  | cons firsts rest =>
    obtain ⟨here, later⟩ := written.append
    exact (checkStmt firsts here).bind fun _ _ => checkStmts rest later

end

theorem checkParameters {list others : List Parameter} (lists : List.Forall₂ (Parameter.Mirrors pair.At) list others)
    (written : pair.Written (list.map .parameter)) :
    Twin pair (fun _ => True) (checkParameters list) (checkParameters others) := by
  induction lists with
  | nil => exact pure trivial
  | @cons first _ _ _ firsts _ ih =>
    obtain ⟨here, later⟩ := written.cons
    unfold Typing.checkParameters
    rw [← firsts.type, ← firsts.name]
    exact (requireKnown firsts.span.start (here.item.1 first.type List.mem_cons_self)).bind fun _ known =>
      (bindLocal firsts.span.start first.name known).bind fun _ _ => ih later

theorem checkFunction {decl copy : Function} (decls : decl.Mirrors pair.At pair.Ids copy)
    (written : pair.Written (Declaration.items (.function decl))) :
    Twin pair (fun _ => True) (checkFunction decl) (checkFunction copy) := by
  obtain ⟨mention, rest⟩ := written.cons
  obtain ⟨parameters, body⟩ := rest.append
  unfold Typing.checkFunction
  rw [← decls.returns, ← decls.name]
  refine (requireKnown decls.span.start (mention.item.1 decl.returns List.mem_cons_self)).bind fun _ _ => ?_
  have inside := (checkParameters decls.parameters parameters).bind fun _ _ => checkStmts decls.body body
  refine (inFunction decl.name decl.returns inside).bind fun returned _ => ?_
  exact .ite (.pure ⟨rfl, trivial⟩) (fail _ decls.span.start)

theorem checkFields {list others : List Variable} (lists : List.Forall₂ (Variable.Mirrors pair.At pair.Ids) list others)
    (written : pair.Written (list.map .declare)) :
    Twin pair (fun _ => True) (checkFields list) (checkFields others) := by
  induction lists with
  | nil => exact pure trivial
  | @cons first _ _ _ firsts _ ih =>
    obtain ⟨here, later⟩ := written.cons
    refine (checkVariable firsts here).bind fun _ known => ?_
    rw [← firsts.name, ← firsts.type]
    exact (bindMember firsts.span.start first.name known).bind fun _ _ => ih later

theorem checkMembers {type : Ty} (known : pair.Known type) {list others : List Member}
    (lists : List.Forall₂ (Member.Mirrors pair.At) list others) :
    Twin pair (fun _ => True) (checkMembers type list) (checkMembers type others) := by
  induction lists with
  | nil => exact pure trivial
  | @cons first _ _ _ firsts _ ih =>
    unfold Typing.checkMembers
    rw [← firsts.name]
    exact (bindMember firsts.span.start first.name known).bind fun _ _ => ih

theorem requireAllKnown (places : pair.At place other) (types : List Ty) (written : pair.Written (types.map .mention)) :
    Twin pair (fun _ => True) (requireAllKnown place types) (requireAllKnown other types) := by
  induction types with
  | nil => exact pure trivial
  | cons first others ih =>
    obtain ⟨here, later⟩ := written.cons
    exact (requireKnown places (here.item.1 first List.mem_cons_self)).bind fun _ _ => ih later

theorem checkDeclaration {decl copy : Declaration} (mirrors : decl.Mirrors pair.At pair.Ids copy)
    (written : pair.Written decl.items) (named : ∀ found, decl = .enumeration found → pair.Known (.named found.name)) :
    Twin pair (fun _ => True) (checkDeclaration decl) (checkDeclaration copy) := by
  cases mirrors with
  | global decls => exact (checkVariable decls written).forget
  | function decls => exact checkFunction decls written
  | struct decls => exact (checkFields decls.fields written).inScope
  | enumeration decls =>
    simp only [Typing.checkDeclaration, ← decls.name]
    exact (checkMembers (named _ rfl) decls.members).inScope
  | delegate decls =>
    simp only [Typing.checkDeclaration, ← decls.signature]
    exact requireAllKnown decls.span.start _ written

theorem checkDeclarations {list others : List Declaration}
    (lists : List.Forall₂ (Declaration.Mirrors pair.At pair.Ids) list others)
    (written : pair.Written (list.flatMap Declaration.items))
    (named : ∀ found, .enumeration found ∈ list → pair.Known (.named found.name)) :
    Twin pair (fun _ => True) (checkDeclarations list) (checkDeclarations others) := by
  induction lists with
  | nil => exact pure trivial
  | @cons first _ _ _ firsts _ ih =>
    obtain ⟨here, later⟩ := written.append
    have own : ∀ found, first = .enumeration found → pair.Known (.named found.name) := by
      rintro found rfl
      exact named found List.mem_cons_self
    exact (checkDeclaration firsts here own).bind fun _ _ =>
      ih later fun found member => named found (List.mem_cons_of_mem _ member)

theorem checkFiles {list others : List File} (lists : List.Forall₂ (File.Mirrors pair.At pair.Ids) list others)
    (written : pair.Written ((list.flatMap File.declarations).flatMap Declaration.items))
    (named : ∀ found, .enumeration found ∈ list.flatMap File.declarations → pair.Known (.named found.name)) :
    Twin pair (fun _ => True) (checkFiles list) (checkFiles others) := by
  induction lists with
  | nil => exact pure trivial
  | cons firsts _ ih =>
    rw [List.flatMap_cons, List.flatMap_append] at written
    obtain ⟨here, later⟩ := written.append
    exact (checkDeclarations firsts.declarations here
        fun found member => named found (List.mem_append_left _ member)).bind fun _ _ =>
      ih later fun found member => named found (List.mem_append_right _ member)

end Twin

-- Trees of one text that is laid out in two ways are checked through the same states, and no type is asked after.
def Pairing.laid (At : Position → Position → Prop) (env : Vectors) : Pairing where
  left := env
  right := env
  At := At
  Ids := Eq
  states := Eq
  Known := fun _ => True
  vectors := rfl
  catalogs := by
    rintro s _ rfl
    exact .refl s.catalog
  covers := fun _ => .all _
  scopes := fun same => congrArg (fun s : State => s.scopes.get?) same
  inner := fun same => congrArg (fun s : State => s.scopes.inner.contains) same
  known := fun _ _ _ _ => trivial
  function := congrArg State.function
  pushed := congrArg State.pushed
  popped := congrArg State.popped
  framed := by
    rintro s _ rfl function
    rfl
  bound := by
    rintro s _ rfl name type _ _
    rfl
  recorded := by
    rintro s _ rfl node copy type same _
    unfold State.recorded
    rw [same]

structure Scope.Matches (known : Ty → Prop) (left right : Scope) : Prop where
  get? : left.get? = right.get?
  known : ∀ {name type}, left.get? name = some type → known type

theorem Scope.Matches.bound {known : Ty → Prop} {left right : Scope} (matching : left.Matches known right)
    (name : String) {type : Ty} (holds : known type) :
    Scope.Matches known (left.insertNew name type) (right.insertNew name type) := by
  constructor
  · funext other
    rw [Table.get?_insertNew, Table.get?_insertNew, matching.get?]
  · intro other found entry
    rw [Table.get?_insertNew] at entry
    rcases Option.or_eq_some_iff.mp entry with old | ⟨-, fresh⟩
    · exact matching.known old
    · split at fresh
      · cases fresh
        exact holds
      · cases fresh

theorem Scope.Matches.findSome? {known : Ty → Prop} {left right : List Scope}
    (scopes : List.Forall₂ (Scope.Matches known) left right) (name : String) :
    left.findSome? (·.get? name) = right.findSome? (·.get? name) ∧
      ∀ type, left.findSome? (·.get? name) = some type → known type := by
  induction scopes with
  | nil => exact ⟨rfl, nofun⟩
  | cons firsts _ ih =>
    rw [List.findSome?_cons, List.findSome?_cons, ← firsts.get?]
    split
    · rename_i type found
      refine ⟨rfl, ?_⟩
      intro other same
      cases same
      exact firsts.known found
    · exact ih

theorem Scopes.get?_matches {known : Ty → Prop} {left right : Scopes}
    (all : List.Forall₂ (Scope.Matches known) (left.inner :: left.outer) (right.inner :: right.outer)) :
    left.get? = right.get? ∧ ∀ {name type}, left.get? name = some type → known type := by
  constructor
  · funext name
    exact (Scope.Matches.findSome? all name).1
  · intro name type found
    exact (Scope.Matches.findSome? all name).2 type found

theorem Scopes.pop_matches {known : Ty → Prop} {left right : Scopes}
    (all : List.Forall₂ (Scope.Matches known) (left.inner :: left.outer) (right.inner :: right.outer)) :
    List.Forall₂ (Scope.Matches known) (left.pop.inner :: left.pop.outer) (right.pop.inner :: right.pop.outer) := by
  obtain ⟨first, firsts⟩ := left
  obtain ⟨second, seconds⟩ := right
  cases all with
  | cons inner outer =>
    cases outer with
    | nil => exact .cons inner .nil
    | cons next others => exact .cons next others

-- Two catalogs that are equal as maps and complete, for two checks of one text. The second check has identities
-- that are so many later. Neither catalog changes, since every type that is recorded is in it.
structure Pairing.Beside (one two : Catalog) (shift : Nat) (s t : State) : Prop where
  left : s.catalog = one
  right : t.catalog = two
  scopes : List.Forall₂ (Scope.Matches one.Knows) (s.scopes.inner :: s.scopes.outer)
    (t.scopes.inner :: t.scopes.outer)
  function : s.function = t.function
  types : ∀ id, s.types.get? id = t.types.get? (id + shift)

def Pairing.complete {one two : Catalog} (agrees : one.Agrees two) (complete : Complete one) (shift : Nat)
    (env : Vectors) : Pairing where
  left := env
  right := env
  At := Eq
  Ids := LaterBy shift
  states := Beside one two shift
  Known := one.Knows
  vectors := rfl
  catalogs := by
    rintro s t ⟨rfl, rfl, -, -, -⟩
    exact agrees
  covers := by
    rintro s t ⟨rfl, -, -, -, -⟩
    exact complete.covers
  scopes := fun beside => (Scopes.get?_matches beside.scopes).1
  inner := by
    intro s t beside
    cases beside.scopes with
    | cons inner _ =>
      funext name
      unfold Table.contains
      rw [inner.get?]
  known := fun beside => (Scopes.get?_matches beside.scopes).2
  function := Beside.function
  pushed := fun beside => ⟨beside.left, beside.right, .cons ⟨rfl, nofun⟩ beside.scopes, beside.function, beside.types⟩
  popped := by
    rintro s t ⟨left, right, scopes, function, types⟩
    refine ⟨left, right, ?_, function, types⟩
    exact Scopes.pop_matches scopes
  framed := fun beside _ => ⟨beside.left, beside.right, beside.scopes, rfl, beside.types⟩
  bound := by
    rintro s t ⟨left, right, scopes, function, types⟩ name type _ known
    cases scopes with
    | cons inner outer => exact ⟨left, right, .cons (inner.bound name known) outer, function, types⟩
  recorded := by
    intro s t beside node copy type later known
    have other : two.Knows type := by
      intro part inside
      rw [← agrees.knows]
      exact known part inside
    have kept : s.catalog.addType type = s.catalog := Catalog.addType_of_knows (beside.left ▸ known)
    have also : t.catalog.addType type = t.catalog := Catalog.addType_of_knows (beside.right ▸ other)
    refine ⟨kept.trans beside.left, also.trans beside.right, beside.scopes, beside.function, ?_⟩
    intro id
    show (s.types.insertNew node.id type).get? id = (t.types.insertNew copy.id type).get? (id + shift)
    rw [Table.get?_insertNew, Table.get?_insertNew, beside.types id, later]
    simp only [Nat.add_right_cancel_iff]

end TypedScript.Typing
