import TypedScript.Proofs.Grammar.Twins

namespace TypedScript.Grammar

-- Rules for expressions give identities, and rules for statements ask which names are types.
structure TreePairing extends Pairing where
  names : ∀ {s t}, states s t → s.catalog.namesType = t.catalog.namesType
  ids : ∀ {s t}, states s t → Ids s.nextId t.nextId
  numbered : ∀ {s t}, states s t → states s.numbered t.numbered

abbrev TreePairing.exprs (pair : TreePairing) : Expr → Expr → Prop := Expr.Mirrors pair.At pair.Ids

abbrev TreePairing.stmts (pair : TreePairing) : Stmt → Stmt → Prop := Stmt.Mirrors pair.At pair.Ids

abbrev TreePairing.decls (pair : TreePairing) : Declaration → Declaration → Prop := Declaration.Mirrors pair.At pair.Ids

structure Block.Mirrors (At : Position → Position → Prop) (Ids : Nat → Nat → Prop) (left right : List Stmt × Span) :
    Prop where
  body : List.Forall₂ (Stmt.Mirrors At Ids) left.1 right.1
  span : left.2.Mirrors At right.2

namespace Twin

variable {pair : TreePairing}

theorem namesType (name : String) : Twin pair.toPairing Eq (namesType name) (namesType name) :=
  fun _ _ states => .ok (congrFun (pair.names states) name) states

theorem freshId : Twin pair.toPairing pair.Ids freshId freshId :=
  fun _ _ states => .ok (pair.ids states) (pair.numbered states)

section
variable {span other : Span} (spans : span.Mirrors pair.At other)
include spans

theorem node : Twin pair.toPairing (Node.Mirrors pair.At pair.Ids) (node span) (node other) :=
  freshId.bind fun _ _ ids => .pure ⟨ids, spans⟩

theorem literal (value : Literal) : Twin pair.toPairing pair.exprs (literal value span) (literal value other) :=
  (node spans).bind fun _ _ nodes => .pure (.literal nodes)

end

theorem nodeFrom {start other : Position} (starts : pair.At start other) :
    Twin pair.toPairing (Node.Mirrors pair.At pair.Ids) (nodeFrom start) (nodeFrom other) :=
  (spanSince starts).bind fun _ _ spans => node spans

theorem primary : Twin pair.toPairing pair.exprs primary primary := by
  apply bindToken advance
  intro kind value span other spans
  cases kind with
  | number =>
    simp only
    cases Number.Binary64.ofText? value with
    | some number => exact literal spans _
    | none => exact raise _ spans.start
  | text => exact literal spans _
  | character =>
    simp only
    cases value.toList with
    | nil => exact raise _ spans.start
    | cons first others => exact literal spans _
  | trueWord => exact literal spans _
  | falseWord => exact literal spans _
  | nullWord => exact literal spans _
  | identifier => exact (node spans).bind fun _ _ nodes => .pure (.name nodes)
  | _ => exact raise _ spans.start

section
variable {inner : Inner} (within : ∀ level, Twin pair.toPairing pair.exprs (inner level) (inner level))
include within

theorem leading : Twin pair.toPairing pair.exprs (leading inner) (leading inner) := by
  apply bindToken advance
  intro kind value span other spans
  simp only
  cases UnaryOp.ofKind? kind with
  | none => exact unexpected _
  | some operator =>
    apply (within .unary).bind
    intro operand base operands
    exact (node (spans.join operands.span)).bind fun _ _ nodes => .pure (.unary nodes operands)

theorem group : Twin pair.toPairing pair.exprs (group inner) (group inner) := by
  apply advance.bind
  intro opener other openers
  apply (within .lowest).bind
  intro body inside bodies
  exact (expect _).bind fun _ _ _ => (nodeFrom openers.span.start).bind fun _ _ nodes => .pure (.group nodes bodies)

theorem arguments (closer : Kind) :
    Twin pair.toPairing (List.Forall₂ pair.exprs) (arguments inner closer) (arguments inner closer) :=
  listed (within .lowest)

theorem construct : Twin pair.toPairing pair.exprs (construct inner) (construct inner) := by
  apply advance.bind
  intro opener other openers
  refine (typeName _).bindEq fun target => (expect _).bind fun _ _ _ => ?_
  apply (arguments within _).bind
  intro list given lists
  exact (nodeFrom openers.span.start).bind fun _ _ nodes => .pure (.construct nodes lists)

theorem head : Twin pair.toPairing pair.exprs (head inner) (head inner) := by
  apply kind.bindEq
  intro next
  cases next with
  | number | text | character | trueWord | falseWord | nullWord | identifier => exact primary
  | not | dash | plusPlus | minusMinus => exact leading within
  | openParen => exact group within
  | newWord => exact construct within
  | _ => exact unexpected _

end

section
variable {left first : Expr} (lefts : left.Mirrors pair.At pair.Ids first)
include lefts

theorem trailing : Twin pair.toPairing pair.exprs (trailing left) (trailing first) := by
  apply bindToken advance
  intro kind value span other spans
  exact (node (lefts.span.join spans)).bind fun _ _ nodes => .pure (.unary nodes lefts)

theorem member : Twin pair.toPairing pair.exprs (member left) (member first) :=
  skip.bindEq fun _ => bindToken (expect _) fun _ _ _ _ _ => (nodeFrom lefts.start).bind fun _ _ nodes =>
    .pure (.member nodes lefts)

theorem cast : Twin pair.toPairing pair.exprs (cast left) (cast first) :=
  skip.bindEq fun _ => (typeName _).bindEq fun _ => (nodeFrom lefts.start).bind fun _ _ nodes =>
    .pure (.cast nodes lefts)

theorem assignTo (operator : AssignOp) {value given : Expr} (values : value.Mirrors pair.At pair.Ids given) :
    Twin pair.toPairing pair.exprs (assignTo operator left value) (assignTo operator first given) := by
  have spans := lefts.span.join values.span
  have starts := lefts.start
  cases lefts with
  | name _ => exact (node spans).bind fun _ _ nodes => .pure (.setName nodes values)
  | member _ objects => exact (node spans).bind fun _ _ nodes => .pure (.setMember nodes objects values)
  | index _ objects lists =>
    cases lists with
    | nil => exact raise _ starts
    | cons keys others =>
      cases others with
      | nil => exact (node spans).bind fun _ _ nodes => .pure (.setIndex nodes objects keys values)
      | cons _ _ => exact raise _ starts
  | _ => exact raise _ starts

variable {inner : Inner} (within : ∀ level, Twin pair.toPairing pair.exprs (inner level) (inner level))
include within

theorem binary (level : Level) :
    Twin pair.toPairing pair.exprs (binary inner level left) (binary inner level first) := by
  apply bindToken advance
  intro kind value span other spans
  simp only
  cases BinaryOp.ofKind? kind with
  | none => exact raise _ spans.start
  | some operator =>
    apply (within level).bind
    intro right second rights
    exact (node (lefts.span.join rights.span)).bind fun _ _ nodes => .pure (.binary nodes lefts rights)

theorem assignment : Twin pair.toPairing pair.exprs (assignment inner left) (assignment inner first) := by
  apply bindToken advance
  intro kind value span other spans
  simp only
  cases AssignOp.ofKind? kind with
  | none => exact unexpected _
  | some operator => exact (within .lowest).bind fun _ _ values => assignTo lefts operator values

theorem call : Twin pair.toPairing pair.exprs (call inner left) (call inner first) :=
  skip.bindEq fun _ => (arguments within _).bind fun _ _ lists => (nodeFrom lefts.start).bind fun _ _ nodes =>
    .pure (.call nodes lefts lists)

theorem element : Twin pair.toPairing pair.exprs (element inner left) (element inner first) :=
  skip.bindEq fun _ => (arguments within _).bind fun _ _ lists => (nodeFrom lefts.start).bind fun _ _ nodes =>
    .pure (.index nodes lefts lists)

theorem extend (next : Kind) : Twin pair.toPairing pair.exprs (extend inner next left) (extend inner next first) := by
  unfold Grammar.extend
  split
  · exact assignment lefts within
  · exact binary lefts within _
  · exact trailing lefts
  · exact cast lefts
  · split
    · exact call lefts within
    · exact element lefts within
    · exact member lefts
  · exact binary lefts within _

omit lefts in
theorem extensions (level : Level) (bound : Nat) (lefts : left.Mirrors pair.At pair.Ids first) :
    Twin pair.toPairing pair.exprs (extensions inner level bound left) (extensions inner level bound first) := by
  induction bound generalizing left first with
  | zero => exact giveUp
  | succ bound ih =>
    exact kind.bindEq fun next => .ite (.pure lefts) ((extend lefts within next).bind fun _ _ widers => ih widers)

end

theorem expressionWithin (bound : Nat) (level : Level) :
    Twin pair.toPairing pair.exprs (expressionWithin bound level) (expressionWithin bound level) := by
  induction bound generalizing level with
  | zero => exact giveUp
  | succ bound ih =>
    exact (head ih).bind fun _ _ lefts => bounded fun steps => extensions ih level steps lefts

theorem expression (level : Level) : Twin pair.toPairing pair.exprs (expression level) (expression level) :=
  bounded fun bound => expressionWithin bound level

theorem initializer : Twin pair.toPairing (Option.Rel pair.exprs) initializer initializer :=
  kind.bindEq fun _ => .ite (skip.bindEq fun _ => (expression _).bind fun _ _ values => .pure (.some values))
    (.pure .none)

theorem boundName : Twin pair.toPairing (Token.Mirrors pair.At) boundName boundName :=
  kind.bindEq fun _ => .ite advance (unexpectedNear _)

theorem binding : Twin pair.toPairing (Variable.Mirrors pair.At pair.Ids) binding binding := by
  apply place.bind
  intro start other starts
  apply (typeName _).bindEq
  intro type
  exact bindToken boundName fun _ _ _ _ _ => initializer.bind fun _ _ values => (spanSince starts).bind fun _ _ spans =>
    .pure ⟨rfl, rfl, values, spans⟩

theorem bindingLine : Twin pair.toPairing (Variable.Mirrors pair.At pair.Ids) bindingLine bindingLine := by
  apply binding.bind
  intro bare other decls
  exact (expect _).bind fun _ _ _ => (spanSince decls.span.start).bind fun _ _ spans =>
    .pure ⟨decls.type, decls.name, decls.initializer, spans⟩

theorem condition : Twin pair.toPairing pair.exprs condition condition :=
  (expect _).bind fun _ _ _ => (expression _).bind fun _ _ values => (expect _).bind fun _ _ _ => .pure values

theorem startsVariable : Twin pair.toPairing Eq startsVariable startsVariable :=
  bindToken token fun _ _ _ _ _ => (namesType _).bindEq fun _ => (peek _).bindEq fun _ => .pure rfl

theorem opening : Twin pair.toPairing (Opening.Mirrors pair.At pair.Ids) opening opening :=
  startsVariable.bindEq fun _ => .ite (binding.bind fun _ _ decls => .pure (.declare decls))
    ((expression _).bind fun _ _ exprs => .pure (.evaluate exprs))

theorem optionalExpression : Twin pair.toPairing (Option.Rel pair.exprs) optionalExpression optionalExpression :=
  kind.bindEq fun _ => .ite (.pure .none) ((expression _).bind fun _ _ values => .pure (.some values))

theorem returning : Twin pair.toPairing pair.stmts returning returning := by
  apply advance.bind
  intro opener other openers
  exact optionalExpression.bind fun _ _ values => (expect _).bind fun _ _ _ =>
    (spanSince openers.span.start).bind fun _ _ spans => .pure (.jump spans values)

theorem jump (kind : Jump) : Twin pair.toPairing pair.stmts (jump kind) (jump kind) := by
  apply advance.bind
  intro opener other openers
  exact (expect _).bind fun _ _ _ => (spanSince openers.span.start).bind fun _ _ spans => .pure (.jump spans .none)

theorem simple : Twin pair.toPairing pair.stmts simple simple := by
  refine startsVariable.bindEq fun _ => .ite (bindingLine.bind fun _ _ decls => .pure (.declare decls)) ?_
  apply (expression _).bind
  intro expr other exprs
  exact (expect _).bind fun _ _ _ => (spanSince exprs.start).bind fun _ _ spans => .pure (.evaluate spans exprs)

section
variable {inner : Rule Stmt} (within : Twin pair.toPairing pair.stmts inner inner)
include within

theorem blockBody : Twin pair.toPairing (List.Forall₂ pair.stmts) (blockBody inner) (blockBody inner) :=
  items fun _ _ _ => more.bindEq fun _ => .ite within (unexpected _)

theorem blockOf : Twin pair.toPairing (Block.Mirrors pair.At pair.Ids) (blockOf inner) (blockOf inner) := by
  apply (expect _).bind
  intro opener other openers
  exact (blockBody within).bind fun _ _ bodies => (spanSince openers.span.start).bind fun _ _ spans =>
    .pure ⟨bodies, spans⟩

theorem ifElse : Twin pair.toPairing pair.stmts (ifElse inner) (ifElse inner) := by
  apply advance.bind
  intro opener other openers
  refine condition.bind fun _ _ conditions => within.bind fun _ _ bodies => kind.bindEq fun _ => .ite ?_ ?_
  · exact skip.bindEq fun _ => within.bind fun _ _ others => (spanSince openers.span.start).bind fun _ _ spans =>
      .pure (.ifElse spans conditions bodies others)
  · exact (spanSince openers.span.start).bind fun _ _ spans => .pure (.ifThen spans conditions bodies)

theorem whileLoop : Twin pair.toPairing pair.stmts (whileLoop inner) (whileLoop inner) := by
  apply advance.bind
  intro opener other openers
  exact condition.bind fun _ _ conditions => within.bind fun _ _ bodies =>
    (spanSince openers.span.start).bind fun _ _ spans => .pure (.whileLoop spans conditions bodies)

theorem forLoop : Twin pair.toPairing pair.stmts (forLoop inner) (forLoop inner) := by
  apply advance.bind
  intro opener other openers
  exact (expect _).bind fun _ _ _ => (listed opening).bind fun _ _ firsts =>
    optionalExpression.bind fun _ _ conditions => (expect _).bind fun _ _ _ =>
      (listed (expression _)).bind fun _ _ lasts => within.bind fun _ _ bodies =>
        (spanSince openers.span.start).bind fun _ _ spans => .pure (.forLoop spans firsts conditions lasts bodies)

end

theorem statementWithin (bound : Nat) :
    Twin pair.toPairing pair.stmts (statementWithin bound) (statementWithin bound) := by
  induction bound with
  | zero => exact giveUp
  | succ bound ih =>
    apply kind.bindEq
    intro next
    cases next with
    | openCurly => exact (blockOf ih).bind fun _ _ blocks => .pure (.block blocks.span blocks.body)
    | ifWord => exact ifElse ih
    | whileWord => exact whileLoop ih
    | forWord => exact forLoop ih
    | returnWord => exact returning
    | breakWord => exact jump _
    | continueWord => exact jump _
    | _ => exact simple

theorem statement : Twin pair.toPairing pair.stmts statement statement := bounded statementWithin

theorem block : Twin pair.toPairing (Block.Mirrors pair.At pair.Ids) block block := blockOf statement

theorem struct : Twin pair.toPairing pair.decls struct struct := by
  apply place.bind
  intro start other starts
  apply bindToken (keywordName _)
  intro _ name _ _ _
  refine (expect _).bind fun _ _ _ => ?_
  apply (items fun _ _ _ => bindingLine).bind
  intro fields given lists
  have shapes : (fields.map fun field => (field.name, field.type)) = given.map fun field => (field.name, field.type) :=
    map_eq_of_forall₂ lists fun _ _ decls => by rw [decls.name, decls.type]
  rw [shapes]
  exact (enter fun catalog => catalog.addStruct_names _ _).bindEq fun _ => (spanSince starts).bind fun _ _ spans =>
    .pure (.struct ⟨rfl, lists, spans⟩)

theorem integer : Twin pair.toPairing Eq integer integer := by
  apply bindToken (expect _)
  intro kind value span other spans
  simp only
  cases Number.Signed64.ofText? value with
  | some number => exact .pure rfl
  | none => exact raise _ spans.start

theorem signedInteger : Twin pair.toPairing Eq signedInteger signedInteger :=
  kind.bindEq fun _ => .ite (skip.bindEq fun _ => integer.bindEq fun _ => .pure rfl) integer

section
variable {member token : Token} (tokens : member.Mirrors pair.At token) (previous : Option Int)
include tokens

theorem statedValue : Twin pair.toPairing Eq (statedValue member previous) (statedValue token previous) := by
  apply place.bind
  intro start other starts
  apply signedInteger.bindEq
  intro value
  rw [tokens.value]
  cases previous with
  | none => exact .pure rfl
  | some minimum => exact .ite (raise _ starts) (.pure rfl)

theorem impliedValue : Twin pair.toPairing Eq (impliedValue member previous) (impliedValue token previous) := by
  cases previous with
  | none => exact .pure rfl
  | some value =>
    simp only [Grammar.impliedValue, tokens.value]
    cases Number.Signed64.next? value with
    | some next => exact .pure rfl
    | none => exact raise _ tokens.span.start

theorem memberValue : Twin pair.toPairing Eq (memberValue member previous) (memberValue token previous) :=
  kind.bindEq fun _ => .ite (skip.bindEq fun _ => statedValue tokens previous) (impliedValue tokens previous)

end

theorem enumMember {previous before : Option Member} (befores : Option.Rel (Member.Mirrors pair.At) previous before) :
    Twin pair.toPairing (Member.Mirrors pair.At) (enumMember previous) (enumMember before) := by
  have values : previous.map Member.value = before.map Member.value := by
    cases befores with
    | none => rfl
    | some members => exact congrArg some members.value
  apply (expect _).bind
  intro name other names
  rw [values]
  exact (memberValue names _).bindEq fun _ => (spanSince names.span.start).bind fun _ _ spans =>
    (separator _ _).bindEq fun _ => .pure ⟨names.value, rfl, spans⟩

theorem enumeration : Twin pair.toPairing pair.decls enumeration enumeration := by
  apply place.bind
  intro start other starts
  apply bindToken (keywordName _)
  intro _ name _ _ _
  refine (expect _).bind fun _ _ _ => ?_
  apply (items fun _ _ befores => enumMember befores).bind
  intro members given lists
  have shapes : (members.map fun member => (member.name, member.value)) =
      given.map fun member => (member.name, member.value) :=
    map_eq_of_forall₂ lists fun _ _ pairs => by rw [pairs.name, pairs.value]
  rw [shapes]
  exact (enter fun catalog => catalog.addEnum_names _ _).bindEq fun _ => (spanSince starts).bind fun _ _ spans =>
    .pure (.enumeration ⟨rfl, lists, spans⟩)

theorem delegate : Twin pair.toPairing pair.decls delegate delegate := by
  apply delegateHead.bind
  intro header other headers
  rw [headers.name, headers.signature]
  exact (enter fun catalog => catalog.addDelegate_names _ _).bindEq fun _ => .pure (.delegate headers)

theorem function : Twin pair.toPairing pair.decls function function := by
  apply place.bind
  intro start other starts
  apply functionHead.bind
  intro header given headers
  apply block.bind
  intro found inside blocks
  rw [headers.name.value, headers.signature, headers.returns]
  exact (enter fun catalog => catalog.addFunction_names _ _).bindEq fun _ => (spanSince starts).bind fun _ _ spans =>
    .pure (.function ⟨rfl, rfl, headers.parameters, blocks.body, blocks.span, rfl, spans⟩)

theorem global : Twin pair.toPairing pair.decls global global := by
  apply bindingLine.bind
  intro decl other decls
  rw [decls.name, decls.type]
  exact (enter fun catalog => catalog.addGlobal_names _ _).bindEq fun _ => .pure (.global decls)

theorem typedDeclaration : Twin pair.toPairing pair.decls typedDeclaration typedDeclaration :=
  index.bindEq fun start => typedName.bind fun _ _ _ => kind.bindEq fun _ => (seek start).bindEq fun _ =>
    .ite function global

theorem declaration : Twin pair.toPairing pair.decls declaration declaration := by
  apply kind.bindEq
  intro next
  cases next with
  | structWord => exact struct
  | enumWord => exact enumeration
  | delegateWord => exact delegate
  | _ => exact typedDeclaration

theorem declarations (entries : List Entry) :
    Twin pair.toPairing (List.Forall₂ pair.decls) (declarations entries) (declarations entries) := by
  induction entries with
  | nil => exact .pure .nil
  | cons entry entries ih =>
    exact (seek _).bindEq fun _ => declaration.bind fun _ _ firsts => index.bindEq fun _ =>
      .ite (ih.bind fun _ _ others => .pure (.cons firsts others)) (unexpectedNear _)

theorem wholeFile (entries : List Entry) :
    Twin pair.toPairing (File.Mirrors pair.At pair.Ids) (wholeFile entries) (wholeFile entries) :=
  (declarations entries).bind fun _ _ lists => file.bindEq fun _ => .pure ⟨rfl, lists⟩

end Twin

namespace TreePairing

def laid {At : Position → Position → Prop} {left right : Stream} (mirrors : left.Mirrors At right) : TreePairing where
  toPairing := .laid mirrors
  names := fun same => congrArg (fun s => s.catalog.namesType) same
  ids := congrArg State.nextId
  numbered := congrArg State.numbered

-- One text that is read with identities so many later, and with a catalog that agrees on which names are types.
structure Beside (shift : Nat) (s t : State) : Prop where
  pos : s.pos = t.pos
  nextId : t.nextId = s.nextId + shift
  names : s.catalog.namesType = t.catalog.namesType

def shifted (tokens : Stream) (shift : Nat) : TreePairing where
  left := tokens
  right := tokens
  At := Eq
  Ids := LaterBy shift
  states := Beside shift
  reads := .refl tokens
  pos := Beside.pos
  moved := fun beside _ => ⟨rfl, beside.nextId, beside.names⟩
  entered := by
    intro s t beside change kept
    refine ⟨beside.pos, beside.nextId, ?_⟩
    have names := beside.names
    unfold Catalog.namesType Catalog.owner? at names ⊢
    simpa only [State.entered_catalog, kept] using names
  names := Beside.names
  ids := Beside.nextId
  numbered := by
    intro s t beside
    refine ⟨beside.pos, ?_, beside.names⟩
    simp only [State.numbered_nextId, beside.nextId]
    omega

end TreePairing

end TypedScript.Grammar
