import Mathlib.Data.List.Forall2
import TypedScript.Proofs.Tree.Nodes

namespace TypedScript

-- Trees that differ in places and identities alone.
variable (At : Position → Position → Prop) (Ids : Nat → Nat → Prop)

structure Span.Mirrors (left right : Span) : Prop where
  start : At left.start right.start
  stop : At left.stop right.stop

structure Node.Mirrors (left right : Node) : Prop where
  id : Ids left.id right.id
  span : left.span.Mirrors At right.span

inductive Expr.Mirrors : Expr → Expr → Prop where
  | group {node other : Node} {inner body : Expr} (nodes : node.Mirrors At Ids other) (inside : Mirrors inner body) :
      Mirrors (.group node inner) (.group other body)
  | literal {node other : Node} {value : Literal} (nodes : node.Mirrors At Ids other) :
      Mirrors (.literal node value) (.literal other value)
  | name {node other : Node} {text : String} (nodes : node.Mirrors At Ids other) :
      Mirrors (.name node text) (.name other text)
  | member {node other : Node} {object base : Expr} {text : String} (nodes : node.Mirrors At Ids other)
      (objects : Mirrors object base) : Mirrors (.member node object text) (.member other base text)
  | setName {node other : Node} {text : String} {operator : AssignOp} {value given : Expr}
      (nodes : node.Mirrors At Ids other) (values : Mirrors value given) :
      Mirrors (.setName node text operator value) (.setName other text operator given)
  | setMember {node other : Node} {object base : Expr} {text : String} {operator : AssignOp} {value given : Expr}
      (nodes : node.Mirrors At Ids other) (objects : Mirrors object base) (values : Mirrors value given) :
      Mirrors (.setMember node object text operator value) (.setMember other base text operator given)
  | setIndex {node other : Node} {object base index key : Expr} {operator : AssignOp} {value given : Expr}
      (nodes : node.Mirrors At Ids other) (objects : Mirrors object base) (keys : Mirrors index key)
      (values : Mirrors value given) :
      Mirrors (.setIndex node object index operator value) (.setIndex other base key operator given)
  | unary {node other : Node} {operator : UnaryOp} {operand base : Expr} {after : Bool}
      (nodes : node.Mirrors At Ids other) (operands : Mirrors operand base) :
      Mirrors (.unary node operator operand after) (.unary other operator base after)
  | binary {node other : Node} {operator : BinaryOp} {left right first second : Expr}
      (nodes : node.Mirrors At Ids other) (lefts : Mirrors left first) (rights : Mirrors right second) :
      Mirrors (.binary node operator left right) (.binary other operator first second)
  | call {node other : Node} {callee base : Expr} {arguments given : List Expr} (nodes : node.Mirrors At Ids other)
      (callees : Mirrors callee base) (lists : List.Forall₂ Mirrors arguments given) :
      Mirrors (.call node callee arguments) (.call other base given)
  | index {node other : Node} {callee base : Expr} {arguments given : List Expr} (nodes : node.Mirrors At Ids other)
      (callees : Mirrors callee base) (lists : List.Forall₂ Mirrors arguments given) :
      Mirrors (.index node callee arguments) (.index other base given)
  | cast {node other : Node} {operand base : Expr} {target : Ty} (nodes : node.Mirrors At Ids other)
      (operands : Mirrors operand base) : Mirrors (.cast node operand target) (.cast other base target)
  | construct {node other : Node} {target : Ty} {arguments given : List Expr} (nodes : node.Mirrors At Ids other)
      (lists : List.Forall₂ Mirrors arguments given) :
      Mirrors (.construct node target arguments) (.construct other target given)

structure Variable.Mirrors (left right : Variable) : Prop where
  type : left.type = right.type
  name : left.name = right.name
  initializer : Option.Rel (Expr.Mirrors At Ids) left.initializer right.initializer
  span : left.span.Mirrors At right.span

inductive Opening.Mirrors : Opening → Opening → Prop where
  | declare {decl other : Variable} (decls : decl.Mirrors At Ids other) : Mirrors (.declare decl) (.declare other)
  | evaluate {expr other : Expr} (exprs : expr.Mirrors At Ids other) : Mirrors (.evaluate expr) (.evaluate other)

inductive Stmt.Mirrors : Stmt → Stmt → Prop where
  | block {span other : Span} {body given : List Stmt} (spans : span.Mirrors At other)
      (bodies : List.Forall₂ Mirrors body given) : Mirrors (.block span body) (.block other given)
  | declare {decl other : Variable} (decls : decl.Mirrors At Ids other) : Mirrors (.declare decl) (.declare other)
  | evaluate {span other : Span} {expr given : Expr} (spans : span.Mirrors At other)
      (exprs : expr.Mirrors At Ids given) : Mirrors (.evaluate span expr) (.evaluate other given)
  | jump {span other : Span} {kind : Jump} {value given : Option Expr} (spans : span.Mirrors At other)
      (values : Option.Rel (Expr.Mirrors At Ids) value given) : Mirrors (.jump span kind value) (.jump other kind given)
  | ifThen {span other : Span} {condition test : Expr} {body given : Stmt} (spans : span.Mirrors At other)
      (conditions : condition.Mirrors At Ids test) (bodies : Mirrors body given) :
      Mirrors (.ifThen span condition body) (.ifThen other test given)
  | ifElse {span other : Span} {condition test : Expr} {body given last rest : Stmt}
      (spans : span.Mirrors At other) (conditions : condition.Mirrors At Ids test) (bodies : Mirrors body given)
      (others : Mirrors last rest) : Mirrors (.ifElse span condition body last) (.ifElse other test given rest)
  | whileLoop {span other : Span} {condition test : Expr} {body given : Stmt} (spans : span.Mirrors At other)
      (conditions : condition.Mirrors At Ids test) (bodies : Mirrors body given) :
      Mirrors (.whileLoop span condition body) (.whileLoop other test given)
  | forLoop {span other : Span} {openings starts : List Opening} {condition test : Option Expr}
      {iterators steps : List Expr} {body given : Stmt} (spans : span.Mirrors At other)
      (firsts : List.Forall₂ (Opening.Mirrors At Ids) openings starts)
      (conditions : Option.Rel (Expr.Mirrors At Ids) condition test)
      (lasts : List.Forall₂ (Expr.Mirrors At Ids) iterators steps) (bodies : Mirrors body given) :
      Mirrors (.forLoop span openings condition iterators body) (.forLoop other starts test steps given)

structure Parameter.Mirrors (left right : Parameter) : Prop where
  type : left.type = right.type
  name : left.name = right.name
  span : left.span.Mirrors At right.span

structure Member.Mirrors (left right : Member) : Prop where
  name : left.name = right.name
  value : left.value = right.value
  span : left.span.Mirrors At right.span

structure Function.Mirrors (left right : Function) : Prop where
  returns : left.returns = right.returns
  name : left.name = right.name
  parameters : List.Forall₂ (Parameter.Mirrors At) left.parameters right.parameters
  body : List.Forall₂ (Stmt.Mirrors At Ids) left.body right.body
  bodySpan : left.bodySpan.Mirrors At right.bodySpan
  type : left.type = right.type
  span : left.span.Mirrors At right.span

structure Enumeration.Mirrors (left right : Enumeration) : Prop where
  name : left.name = right.name
  members : List.Forall₂ (Member.Mirrors At) left.members right.members
  span : left.span.Mirrors At right.span

structure Delegate.Mirrors (left right : Delegate) : Prop where
  name : left.name = right.name
  signature : left.signature = right.signature
  span : left.span.Mirrors At right.span

structure Struct.Mirrors (left right : Struct) : Prop where
  name : left.name = right.name
  fields : List.Forall₂ (Variable.Mirrors At Ids) left.fields right.fields
  span : left.span.Mirrors At right.span

inductive Declaration.Mirrors : Declaration → Declaration → Prop where
  | global {decl other : Variable} (decls : decl.Mirrors At Ids other) : Mirrors (.global decl) (.global other)
  | function {decl other : Function} (decls : decl.Mirrors At Ids other) : Mirrors (.function decl) (.function other)
  | enumeration {decl other : Enumeration} (decls : decl.Mirrors At other) :
      Mirrors (.enumeration decl) (.enumeration other)
  | delegate {decl other : Delegate} (decls : decl.Mirrors At other) : Mirrors (.delegate decl) (.delegate other)
  | struct {decl other : Struct} (decls : decl.Mirrors At Ids other) : Mirrors (.struct decl) (.struct other)

structure File.Mirrors (left right : File) : Prop where
  path : left.path = right.path
  declarations : List.Forall₂ (Declaration.Mirrors At Ids) left.declarations right.declarations

variable {At Ids}

theorem map_eq_of_forall₂ {α β γ : Type} {same : α → β → Prop} {left : List α} {right : List β} {read : α → γ}
    {other : β → γ} (mirrors : List.Forall₂ same left right)
    (each : ∀ first second, same first second → read first = other second) : left.map read = right.map other := by
  induction mirrors with
  | nil => rfl
  | cons firsts _ ih => rw [List.map_cons, List.map_cons, each _ _ firsts, ih]

theorem getElem?_of_forall₂ {α β : Type} {same : α → β → Prop} {left : List α} {right : List β}
    (mirrors : List.Forall₂ same left right) (index : Nat) : Option.Rel same left[index]? right[index]? := by
  induction mirrors generalizing index with
  | nil => exact .none
  | cons firsts _ ih =>
    cases index with
    | zero => exact .some firsts
    | succ before =>
      rw [List.getElem?_cons_succ, List.getElem?_cons_succ]
      exact ih before

theorem Span.Mirrors.join {left right first second : Span} (lefts : left.Mirrors At first)
    (rights : right.Mirrors At second) : (left.join right).Mirrors At (first.join second) :=
  ⟨lefts.start, rights.stop⟩

namespace Expr.Mirrors

variable {expr other : Expr}

theorem node (mirrors : expr.Mirrors At Ids other) : expr.node.Mirrors At Ids other.node := by
  cases mirrors <;> assumption

theorem span (mirrors : expr.Mirrors At Ids other) : expr.span.Mirrors At other.span := mirrors.node.span

theorem start (mirrors : expr.Mirrors At Ids other) : At expr.start other.start := mirrors.span.start

theorem bareName? (mirrors : expr.Mirrors At Ids other) : expr.bareName? = other.bareName? := by
  cases mirrors <;> rfl

end Expr.Mirrors

-- Trees at the same places in which every identity is so many later: there is one for each tree.
def LaterBy (count left right : Nat) : Prop := right = left + count

section
variable {count : Nat}

theorem Span.Mirrors.eq {left right : Span} (mirrors : left.Mirrors Eq right) : right = left := by
  obtain ⟨start, stop⟩ := left
  obtain ⟨_, _⟩ := right
  obtain ⟨rfl, rfl⟩ := mirrors
  rfl

theorem Node.Mirrors.eq_later {left right : Node} (mirrors : left.Mirrors Eq (LaterBy count) right) :
    right = left.later count := by
  obtain ⟨_, _⟩ := right
  obtain ⟨rfl, spans⟩ := mirrors
  cases spans.eq
  rfl

theorem Span.mirrors_self (span : Span) : span.Mirrors Eq span := ⟨rfl, rfl⟩

theorem Node.mirrors_later (node : Node) : node.Mirrors Eq (LaterBy count) (node.later count) :=
  ⟨rfl, node.span.mirrors_self⟩

namespace Expr

mutual

theorem mirrors_later (expr : Expr) : expr.Mirrors Eq (LaterBy count) (expr.later count) := by
  cases expr with
  | group node inner => exact .group node.mirrors_later (mirrors_later inner)
  | literal node _ => exact .literal node.mirrors_later
  | name node _ => exact .name node.mirrors_later
  | member node object _ => exact .member node.mirrors_later (mirrors_later object)
  | setName node _ _ value => exact .setName node.mirrors_later (mirrors_later value)
  | setMember node object _ _ value =>
    exact .setMember node.mirrors_later (mirrors_later object) (mirrors_later value)
  | setIndex node object key _ value =>
    exact .setIndex node.mirrors_later (mirrors_later object) (mirrors_later key) (mirrors_later value)
  | unary node _ operand _ => exact .unary node.mirrors_later (mirrors_later operand)
  | binary node _ left right => exact .binary node.mirrors_later (mirrors_later left) (mirrors_later right)
  | call node callee list => exact .call node.mirrors_later (mirrors_later callee) (relabelAll_mirrors list)
  | index node callee list => exact .index node.mirrors_later (mirrors_later callee) (relabelAll_mirrors list)
  | cast node operand _ => exact .cast node.mirrors_later (mirrors_later operand)
  | construct node _ list => exact .construct node.mirrors_later (relabelAll_mirrors list)

theorem relabelAll_mirrors (list : List Expr) :
    List.Forall₂ (Expr.Mirrors Eq (LaterBy count)) list (relabelAll (Node.later count) list) := by
  cases list with
  | nil => exact .nil
  | cons first others => exact .cons (mirrors_later first) (relabelAll_mirrors others)

end

mutual

theorem Mirrors.eq_later {expr other : Expr} (mirrors : expr.Mirrors Eq (LaterBy count) other) :
    other = expr.later count := by
  cases mirrors with
  | group nodes inside =>
    rw [nodes.eq_later, eq_later inside]
    rfl
  | literal nodes | name nodes =>
    rw [nodes.eq_later]
    rfl
  | member nodes objects =>
    rw [nodes.eq_later, eq_later objects]
    rfl
  | setName nodes values =>
    rw [nodes.eq_later, eq_later values]
    rfl
  | setMember nodes objects values =>
    rw [nodes.eq_later, eq_later objects, eq_later values]
    rfl
  | setIndex nodes objects keys values =>
    rw [nodes.eq_later, eq_later objects, eq_later keys, eq_later values]
    rfl
  | unary nodes operands =>
    rw [nodes.eq_later, eq_later operands]
    rfl
  | binary nodes lefts rights =>
    rw [nodes.eq_later, eq_later lefts, eq_later rights]
    rfl
  | call nodes callees lists =>
    rw [nodes.eq_later, eq_later callees, eq_relabelAll lists]
    rfl
  | index nodes callees lists =>
    rw [nodes.eq_later, eq_later callees, eq_relabelAll lists]
    rfl
  | cast nodes operands =>
    rw [nodes.eq_later, eq_later operands]
    rfl
  | construct nodes lists =>
    rw [nodes.eq_later, eq_relabelAll lists]
    rfl

theorem Mirrors.eq_relabelAll {list others : List Expr}
    (lists : List.Forall₂ (Expr.Mirrors Eq (LaterBy count)) list others) :
    others = relabelAll (Node.later count) list := by
  cases lists with
  | nil => rfl
  | cons firsts rest => rw [eq_later firsts, eq_relabelAll rest, relabelAll]

end

end Expr

theorem forall₂_map_self {α : Type} {same : α → α → Prop} {move : α → α} (each : ∀ value, same value (move value))
    (list : List α) : List.Forall₂ same list (list.map move) := by
  rw [List.forall₂_map_right_iff]
  exact List.forall₂_same.mpr fun value _ => each value

theorem eq_map_of_forall₂ {α : Type} {same : α → α → Prop} {move : α → α} {list others : List α}
    (lists : List.Forall₂ same list others) (each : ∀ value other, same value other → other = move value) :
    others = list.map move := by
  have same := map_eq_of_forall₂ lists fun value other mirrors => (each value other mirrors).symm
  rw [same, List.map_id']

theorem rel_map_later (value : Option Expr) :
    Option.Rel (Expr.Mirrors Eq (LaterBy count)) value (value.map (Expr.later count)) := by
  cases value with
  | none => exact .none
  | some expr => exact .some expr.mirrors_later

theorem eq_map_of_rel {value other : Option Expr}
    (values : Option.Rel (Expr.Mirrors Eq (LaterBy count)) value other) : other = value.map (Expr.later count) := by
  cases values with
  | none => rfl
  | some exprs => exact congrArg some exprs.eq_later

theorem Variable.mirrors_later (decl : Variable) : decl.Mirrors Eq (LaterBy count) (decl.later count) :=
  ⟨rfl, rfl, rel_map_later decl.initializer, decl.span.mirrors_self⟩

theorem Variable.Mirrors.eq_later {decl other : Variable} (mirrors : decl.Mirrors Eq (LaterBy count) other) :
    other = decl.later count := by
  obtain ⟨_, _, _, _⟩ := other
  obtain ⟨rfl, rfl, values, spans⟩ := mirrors
  cases eq_map_of_rel values
  cases spans.eq
  rfl

theorem Opening.mirrors_later (opening : Opening) : opening.Mirrors Eq (LaterBy count) (opening.later count) := by
  cases opening with
  | declare decl => exact .declare decl.mirrors_later
  | evaluate expr => exact .evaluate expr.mirrors_later

theorem Opening.Mirrors.eq_later {opening other : Opening} (mirrors : opening.Mirrors Eq (LaterBy count) other) :
    other = opening.later count := by
  cases mirrors with
  | declare decls => exact congrArg Opening.declare decls.eq_later
  | evaluate exprs => exact congrArg Opening.evaluate exprs.eq_later

namespace Stmt

mutual

theorem mirrors_later (stmt : Stmt) : stmt.Mirrors Eq (LaterBy count) (stmt.later count) := by
  cases stmt with
  | block span body => exact .block span.mirrors_self (relabelAll_mirrors body)
  | declare decl => exact .declare decl.mirrors_later
  | evaluate span expr => exact .evaluate span.mirrors_self expr.mirrors_later
  | jump span _ value => exact .jump span.mirrors_self (rel_map_later value)
  | ifThen span condition body => exact .ifThen span.mirrors_self condition.mirrors_later (mirrors_later body)
  | ifElse span condition body other =>
    exact .ifElse span.mirrors_self condition.mirrors_later (mirrors_later body) (mirrors_later other)
  | whileLoop span condition body => exact .whileLoop span.mirrors_self condition.mirrors_later (mirrors_later body)
  | forLoop span openings condition iterators body =>
    exact .forLoop span.mirrors_self (forall₂_map_self Opening.mirrors_later openings) (rel_map_later condition)
      (forall₂_map_self Expr.mirrors_later iterators) (mirrors_later body)

theorem relabelAll_mirrors (list : List Stmt) :
    List.Forall₂ (Stmt.Mirrors Eq (LaterBy count)) list (relabelAll (Node.later count) list) := by
  cases list with
  | nil => exact .nil
  | cons first others => exact .cons (mirrors_later first) (relabelAll_mirrors others)

end

mutual

theorem Mirrors.eq_later {stmt other : Stmt} (mirrors : stmt.Mirrors Eq (LaterBy count) other) :
    other = stmt.later count := by
  cases mirrors with
  | block spans bodies =>
    rw [spans.eq, eq_relabelAll bodies]
    rfl
  | declare decls =>
    rw [decls.eq_later]
    rfl
  | evaluate spans exprs =>
    rw [spans.eq, exprs.eq_later]
    rfl
  | jump spans values =>
    rw [spans.eq, eq_map_of_rel values]
    rfl
  | ifThen spans conditions bodies =>
    rw [spans.eq, conditions.eq_later, eq_later bodies]
    rfl
  | ifElse spans conditions bodies others =>
    rw [spans.eq, conditions.eq_later, eq_later bodies, eq_later others]
    rfl
  | whileLoop spans conditions bodies =>
    rw [spans.eq, conditions.eq_later, eq_later bodies]
    rfl
  | forLoop spans firsts conditions lasts bodies =>
    rw [spans.eq, eq_map_of_forall₂ firsts fun _ _ => Opening.Mirrors.eq_later, eq_map_of_rel conditions,
      eq_map_of_forall₂ lasts fun _ _ => Expr.Mirrors.eq_later, eq_later bodies]
    rfl

theorem Mirrors.eq_relabelAll {list others : List Stmt}
    (lists : List.Forall₂ (Stmt.Mirrors Eq (LaterBy count)) list others) :
    others = relabelAll (Node.later count) list := by
  cases lists with
  | nil => rfl
  | cons firsts rest => rw [eq_later firsts, eq_relabelAll rest, relabelAll]

end

end Stmt

theorem Parameter.Mirrors.eq {left right : Parameter} (mirrors : left.Mirrors Eq right) : right = left := by
  obtain ⟨_, _, _⟩ := right
  obtain ⟨rfl, rfl, spans⟩ := mirrors
  cases spans.eq
  rfl

theorem Member.Mirrors.eq {left right : Member} (mirrors : left.Mirrors Eq right) : right = left := by
  obtain ⟨_, _, _⟩ := right
  obtain ⟨rfl, rfl, spans⟩ := mirrors
  cases spans.eq
  rfl

theorem Delegate.Mirrors.eq {left right : Delegate} (mirrors : left.Mirrors Eq right) : right = left := by
  obtain ⟨_, _, _⟩ := right
  obtain ⟨rfl, rfl, spans⟩ := mirrors
  cases spans.eq
  rfl

namespace Declaration

theorem mirrors_later (decl : Declaration) : decl.Mirrors Eq (LaterBy count) (decl.later count) := by
  cases decl with
  | global decl => exact .global decl.mirrors_later
  | function decl =>
    exact .function ⟨rfl, rfl, List.forall₂_same.mpr fun parameter _ => ⟨rfl, rfl, parameter.span.mirrors_self⟩,
      Stmt.relabelAll_mirrors decl.body, decl.bodySpan.mirrors_self, rfl, decl.span.mirrors_self⟩
  | enumeration decl =>
    exact .enumeration ⟨rfl, List.forall₂_same.mpr fun member _ => ⟨rfl, rfl, member.span.mirrors_self⟩,
      decl.span.mirrors_self⟩
  | delegate decl => exact .delegate ⟨rfl, rfl, decl.span.mirrors_self⟩
  | struct decl => exact .struct ⟨rfl, forall₂_map_self Variable.mirrors_later decl.fields, decl.span.mirrors_self⟩

theorem Mirrors.eq_later {decl other : Declaration} (mirrors : decl.Mirrors Eq (LaterBy count) other) :
    other = decl.later count := by
  cases mirrors with
  | global decls => exact congrArg Declaration.global decls.eq_later
  | @function _ other decls =>
    obtain ⟨_, _, _, _, _, _, _⟩ := other
    obtain ⟨rfl, rfl, parameters, body, bodySpan, rfl, spans⟩ := decls
    cases eq_map_of_forall₂ parameters fun _ _ => Parameter.Mirrors.eq
    cases Stmt.Mirrors.eq_relabelAll body
    cases bodySpan.eq
    cases spans.eq
    simp [relabel]
  | @enumeration _ other decls =>
    obtain ⟨_, _, _⟩ := other
    obtain ⟨rfl, members, spans⟩ := decls
    cases eq_map_of_forall₂ members fun _ _ => Member.Mirrors.eq
    cases spans.eq
    simp [relabel]
  | delegate decls => exact congrArg Declaration.delegate decls.eq
  | @struct _ other decls =>
    obtain ⟨_, _, _⟩ := other
    obtain ⟨rfl, fields, spans⟩ := decls
    cases eq_map_of_forall₂ fields fun _ _ => Variable.Mirrors.eq_later
    cases spans.eq
    rfl

end Declaration

theorem File.mirrors_later (file : File) : file.Mirrors Eq (LaterBy count) (file.later count) :=
  ⟨rfl, forall₂_map_self Declaration.mirrors_later file.declarations⟩

theorem File.Mirrors.eq_later {file other : File} (mirrors : file.Mirrors Eq (LaterBy count) other) :
    other = file.later count := by
  obtain ⟨_, _⟩ := other
  obtain ⟨rfl, lists⟩ := mirrors
  cases eq_map_of_forall₂ lists fun _ _ => Declaration.Mirrors.eq_later
  rfl

end

end TypedScript
