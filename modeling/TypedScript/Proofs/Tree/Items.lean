import TypedScript.Program.Compile

namespace TypedScript

namespace Expr

mutual

def inside : Expr → List Expr
  | .literal _ _ | .name _ _ => []
  | .group _ inner => inner :: inside inner
  | .member _ object _ => object :: inside object
  | .setName _ _ _ value => value :: inside value
  | .setMember _ object _ _ value => (object :: inside object) ++ (value :: inside value)
  | .setIndex _ object key _ value =>
    (object :: inside object) ++ (key :: inside key) ++ (value :: inside value)
  | .unary _ _ operand _ => operand :: inside operand
  | .binary _ _ left right => (left :: inside left) ++ (right :: inside right)
  | .call _ callee arguments | .index _ callee arguments => (callee :: inside callee) ++ allOf arguments
  | .cast _ operand _ => operand :: inside operand
  | .construct _ _ arguments => allOf arguments

def allOf : List Expr → List Expr
  | [] => []
  | first :: others => (first :: inside first) ++ allOf others

end

theorem allOf_append (left right : List Expr) : allOf (left ++ right) = allOf left ++ allOf right := by
  induction left with
  | nil => rfl
  | cons first others ih => simp [allOf, ih]

def parts : Expr → List Expr
  | .literal _ _ | .name _ _ => []
  | .group _ inner => [inner]
  | .member _ object _ => [object]
  | .setName _ _ _ value => [value]
  | .setMember _ object _ _ value => [object, value]
  | .setIndex _ object key _ value => [object, key, value]
  | .unary _ _ operand _ => [operand]
  | .binary _ _ left right => [left, right]
  | .call _ callee arguments | .index _ callee arguments => callee :: arguments
  | .cast _ operand _ => [operand]
  | .construct _ _ arguments => arguments

theorem inside_eq (expr : Expr) : expr.inside = allOf expr.parts := by
  cases expr <;> simp [inside, allOf, parts]

theorem allOf_single (expr : Expr) : allOf [expr] = expr :: allOf expr.parts := by
  simp [allOf, inside_eq]

def targets : Expr → List Ty
  | .cast _ _ target | .construct _ target _ => [target]
  | _ => []

def targetsIn (exprs : List Expr) : List Ty := (allOf exprs).flatMap targets

theorem targetsIn_append (left right : List Expr) :
    targetsIn (left ++ right) = targetsIn left ++ targetsIn right := by
  unfold targetsIn
  rw [allOf_append, List.flatMap_append]

theorem targetsIn_single (expr : Expr) : targetsIn [expr] = expr.targets ++ targetsIn expr.parts := by
  unfold targetsIn
  rw [allOf_single, List.flatMap_cons]

def States (holds : Ty → Prop) (exprs : List Expr) : Prop := ∀ type ∈ targetsIn exprs, holds type

theorem states_append {holds : Ty → Prop} {left right : List Expr} :
    States holds (left ++ right) ↔ States holds left ∧ States holds right := by
  unfold States
  rw [targetsIn_append]
  exact List.forall_mem_append

theorem states_single {holds : Ty → Prop} {expr : Expr} :
    States holds [expr] ↔ (∀ type ∈ expr.targets, holds type) ∧ States holds expr.parts := by
  unfold States
  rw [targetsIn_single]
  exact List.forall_mem_append

end Expr

-- What a program is made of, in the order of its text. All that parsing and checking do to statements and
-- declarations they do item by item.
inductive Item where
  | declare (decl : Variable)
  | parameter (decl : Parameter)
  -- A type that a function or a delegate is declared with.
  | mention (type : Ty)
  | condition (expr : Expr)
  | value (expr : Expr)

namespace Item

def roots : Item → List Expr
  | declare decl => decl.initializer.toList
  | condition expr | value expr => [expr]
  | parameter _ | mention _ => []

def types : Item → List Ty
  | declare decl => [decl.type]
  | parameter decl => [decl.type]
  | mention type => [type]
  | condition _ | value _ => []

def declared : Item → List String
  | declare decl => [decl.name]
  | parameter decl => [decl.name]
  | mention _ | condition _ | value _ => []

def exprs (item : Item) : List Expr := Expr.allOf item.roots

theorem allOf_roots (items : List Item) : Expr.allOf (items.flatMap roots) = items.flatMap exprs := by
  induction items with
  | nil => rfl
  | cons first others ih => rw [List.flatMap_cons, Expr.allOf_append, ih, List.flatMap_cons, exprs]

def written (item : Item) : List Ty := item.types ++ Expr.targetsIn item.roots

theorem mem_written {items : List Item} {type : Ty} :
    type ∈ items.flatMap written ↔
      type ∈ items.flatMap types ∨ type ∈ Expr.targetsIn (items.flatMap roots) := by
  induction items with
  | nil => simp [Expr.targetsIn, Expr.allOf]
  | cons first others ih =>
    simp only [List.flatMap_cons, Expr.targetsIn_append, List.mem_append, ih, written]
    constructor
    · rintro ((here | inner) | (there | deeper))
      · exact .inl (.inl here)
      · exact .inr (.inl inner)
      · exact .inl (.inr there)
      · exact .inr (.inr deeper)
    · rintro ((here | there) | (inner | deeper))
      · exact .inl (.inl here)
      · exact .inr (.inl there)
      · exact .inl (.inr inner)
      · exact .inr (.inr deeper)

end Item

def Opening.item : Opening → Item
  | .declare decl => .declare decl
  | .evaluate expr => .value expr

namespace Stmt

mutual

def items : Stmt → List Item
  | .block _ body => itemsOf body
  | .declare decl => [.declare decl]
  | .evaluate _ expr => [.value expr]
  | .jump _ _ value => value.toList.map .value
  | .ifThen _ condition body | .whileLoop _ condition body => .condition condition :: items body
  | .ifElse _ condition body other => .condition condition :: (items body ++ items other)
  | .forLoop _ openings condition iterators body =>
    openings.map Opening.item ++ condition.toList.map .condition ++ iterators.map .value ++ items body

def itemsOf : List Stmt → List Item
  | [] => []
  | first :: others => items first ++ itemsOf others

end

mutual

def Bare : Stmt → Prop
  | .block _ body => BareAll body
  | .declare _ | .evaluate _ _ => True
  | .jump _ kind value => kind = .returning ∨ value = none
  | .ifThen _ _ body | .whileLoop _ _ body | .forLoop _ _ _ _ body => Bare body
  | .ifElse _ _ body other => Bare body ∧ Bare other

def BareAll : List Stmt → Prop
  | [] => True
  | first :: others => Bare first ∧ BareAll others

end

end Stmt

namespace Declaration

def items : Declaration → List Item
  | .global decl => [.declare decl]
  | .function decl => .mention decl.returns :: (decl.parameters.map .parameter ++ Stmt.itemsOf decl.body)
  | .enumeration _ => []
  | .delegate decl => (decl.signature.returns :: decl.signature.parameters).map .mention
  | .struct decl => decl.fields.map .declare

def Bare : Declaration → Prop
  | .function decl => Stmt.BareAll decl.body
  | _ => True

end Declaration

namespace File

def items (file : File) : List Item := file.declarations.flatMap Declaration.items

def Bare (file : File) : Prop := ∀ decl ∈ file.declarations, decl.Bare

end File

namespace Program

def all (program : Program) : List File := program.prelude.toList ++ program.files

def items (program : Program) : List Item := program.all.flatMap File.items

def exprs (program : Program) : List Expr := program.items.flatMap Item.exprs

theorem all_ofFiles (options : Options) (files : List File) (types : Typing.TypeMap) (catalog : Catalog) :
    (ofFiles options files types catalog).all = files := by
  unfold ofFiles
  split <;> rfl

end Program

end TypedScript
