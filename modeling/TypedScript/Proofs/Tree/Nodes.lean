import TypedScript.Proofs.Tree.Items

namespace TypedScript

namespace Expr

mutual

def relabel (label : Node → Node) : Expr → Expr
  | .group node inner => .group (label node) (relabel label inner)
  | .literal node value => .literal (label node) value
  | .name node text => .name (label node) text
  | .member node object field => .member (label node) (relabel label object) field
  | .setName node text operator value => .setName (label node) text operator (relabel label value)
  | .setMember node object field operator value =>
    .setMember (label node) (relabel label object) field operator (relabel label value)
  | .setIndex node object key operator value =>
    .setIndex (label node) (relabel label object) (relabel label key) operator (relabel label value)
  | .unary node operator operand after => .unary (label node) operator (relabel label operand) after
  | .binary node operator left right =>
    .binary (label node) operator (relabel label left) (relabel label right)
  | .call node callee arguments => .call (label node) (relabel label callee) (relabelAll label arguments)
  | .index node callee arguments => .index (label node) (relabel label callee) (relabelAll label arguments)
  | .cast node operand target => .cast (label node) (relabel label operand) target
  | .construct node target arguments => .construct (label node) target (relabelAll label arguments)

def relabelAll (label : Node → Node) : List Expr → List Expr
  | [] => []
  | first :: others => relabel label first :: relabelAll label others

end

theorem relabelAll_eq (label : Node → Node) (exprs : List Expr) :
    relabelAll label exprs = exprs.map (relabel label) := by
  induction exprs with
  | nil => rfl
  | cons first others ih => rw [relabelAll, ih, List.map_cons]

def bare : Expr → Expr := relabel fun _ => ⟨0, .point (.first "")⟩

variable (label other : Node → Node)

@[simp] theorem node_relabel (expr : Expr) : (expr.relabel label).node = label expr.node := by
  cases expr <;> rfl

mutual

theorem relabel_relabel (expr : Expr) : (expr.relabel label).relabel other = expr.relabel (other ∘ label) := by
  cases expr with
  | literal _ _ | name _ _ => rfl
  | group _ inner => simp only [relabel, relabel_relabel inner, Function.comp]
  | member _ object _ => simp only [relabel, relabel_relabel object, Function.comp]
  | setName _ _ _ value => simp only [relabel, relabel_relabel value, Function.comp]
  | setMember _ object _ _ value =>
    simp only [relabel, relabel_relabel object, relabel_relabel value, Function.comp]
  | setIndex _ object key _ value =>
    simp only [relabel, relabel_relabel object, relabel_relabel key, relabel_relabel value, Function.comp]
  | unary _ _ operand _ => simp only [relabel, relabel_relabel operand, Function.comp]
  | binary _ _ left right => simp only [relabel, relabel_relabel left, relabel_relabel right, Function.comp]
  | call _ callee arguments =>
    simp only [relabel, relabel_relabel callee, relabelAll_relabelAll arguments, Function.comp]
  | index _ callee arguments =>
    simp only [relabel, relabel_relabel callee, relabelAll_relabelAll arguments, Function.comp]
  | cast _ operand _ => simp only [relabel, relabel_relabel operand, Function.comp]
  | construct _ _ arguments => simp only [relabel, relabelAll_relabelAll arguments, Function.comp]

theorem relabelAll_relabelAll (exprs : List Expr) :
    relabelAll other (relabelAll label exprs) = relabelAll (other ∘ label) exprs := by
  cases exprs with
  | nil => rfl
  | cons first others => simp only [relabelAll, relabel_relabel first, relabelAll_relabelAll others]

end

mutual

theorem inside_relabel (expr : Expr) : (expr.relabel label).inside = expr.inside.map (relabel label) := by
  cases expr with
  | literal _ _ | name _ _ => rfl
  | group _ inner => simp [relabel, inside, inside_relabel inner]
  | member _ object _ => simp [relabel, inside, inside_relabel object]
  | setName _ _ _ value => simp [relabel, inside, inside_relabel value]
  | setMember _ object _ _ value => simp [relabel, inside, inside_relabel object, inside_relabel value]
  | setIndex _ object key _ value =>
    simp [relabel, inside, inside_relabel object, inside_relabel key, inside_relabel value]
  | unary _ _ operand _ => simp [relabel, inside, inside_relabel operand]
  | binary _ _ left right => simp [relabel, inside, inside_relabel left, inside_relabel right]
  | call _ callee arguments => simp [relabel, inside, inside_relabel callee, allOf_relabelAll arguments]
  | index _ callee arguments => simp [relabel, inside, inside_relabel callee, allOf_relabelAll arguments]
  | cast _ operand _ => simp [relabel, inside, inside_relabel operand]
  | construct _ _ arguments => simp [relabel, inside, allOf_relabelAll arguments]

theorem allOf_relabelAll (exprs : List Expr) : allOf (relabelAll label exprs) = (allOf exprs).map (relabel label) := by
  cases exprs with
  | nil => rfl
  | cons first others => simp [relabelAll, allOf, inside_relabel first, allOf_relabelAll others]

end

theorem targetsIn_relabel (exprs : List Expr) : targetsIn (exprs.map (relabel label)) = targetsIn exprs := by
  unfold targetsIn
  rw [← relabelAll_eq, allOf_relabelAll, List.flatMap_map]
  congr 1
  funext expr
  cases expr <;> rfl

end Expr

def Variable.relabel (label : Node → Node) (decl : Variable) : Variable :=
  { decl with initializer := decl.initializer.map (Expr.relabel label) }

def Opening.relabel (label : Node → Node) : Opening → Opening
  | .declare decl => .declare (decl.relabel label)
  | .evaluate expr => .evaluate (expr.relabel label)

namespace Stmt

mutual

def relabel (label : Node → Node) : Stmt → Stmt
  | .block span body => .block span (relabelAll label body)
  | .declare decl => .declare (decl.relabel label)
  | .evaluate span expr => .evaluate span (expr.relabel label)
  | .jump span kind value => .jump span kind (value.map (Expr.relabel label))
  | .ifThen span condition body => .ifThen span (condition.relabel label) (relabel label body)
  | .ifElse span condition body other =>
    .ifElse span (condition.relabel label) (relabel label body) (relabel label other)
  | .whileLoop span condition body => .whileLoop span (condition.relabel label) (relabel label body)
  | .forLoop span openings condition iterators body =>
    .forLoop span (openings.map (Opening.relabel label)) (condition.map (Expr.relabel label))
      (iterators.map (Expr.relabel label)) (relabel label body)

def relabelAll (label : Node → Node) : List Stmt → List Stmt
  | [] => []
  | first :: others => relabel label first :: relabelAll label others

end

end Stmt

namespace Declaration

def relabel (label : Node → Node) : Declaration → Declaration
  | .global decl => .global (decl.relabel label)
  | .function decl => .function { decl with body := Stmt.relabelAll label decl.body }
  | .enumeration decl => .enumeration decl
  | .delegate decl => .delegate decl
  | .struct decl => .struct { decl with fields := decl.fields.map (Variable.relabel label) }

end Declaration

def File.relabel (label : Node → Node) (file : File) : File :=
  { file with declarations := file.declarations.map (Declaration.relabel label) }

def Item.relabel (label : Node → Node) : Item → Item
  | .declare decl => .declare (decl.relabel label)
  | .parameter decl => .parameter decl
  | .mention type => .mention type
  | .condition expr => .condition (expr.relabel label)
  | .value expr => .value (expr.relabel label)

section
variable (label other : Node → Node)

theorem Item.roots_relabel (item : Item) : (item.relabel label).roots = item.roots.map (Expr.relabel label) := by
  cases item with
  | declare decl => cases found : decl.initializer <;> simp [relabel, roots, Variable.relabel, found]
  | parameter _ | mention _ | condition _ | value _ => rfl

theorem Item.exprs_relabel (item : Item) : (item.relabel label).exprs = item.exprs.map (Expr.relabel label) := by
  unfold exprs
  rw [roots_relabel, ← Expr.relabelAll_eq, Expr.allOf_relabelAll]

theorem Item.written_relabel (item : Item) : (item.relabel label).written = item.written := by
  unfold written
  rw [roots_relabel, Expr.targetsIn_relabel]
  cases item <;> rfl

theorem Opening.item_relabel (opening : Opening) : (opening.relabel label).item = opening.item.relabel label := by
  cases opening <;> rfl

namespace Stmt

mutual

theorem items_relabel (stmt : Stmt) : (stmt.relabel label).items = stmt.items.map (Item.relabel label) := by
  cases stmt with
  | block _ body => simpa [relabel, items] using itemsOf_relabelAll body
  | declare _ | evaluate _ _ => rfl
  | jump _ _ value => cases value <;> rfl
  | ifThen _ _ body => simp [relabel, items, items_relabel body, Item.relabel]
  | ifElse _ _ body other => simp [relabel, items, items_relabel body, items_relabel other, Item.relabel]
  | whileLoop _ _ body => simp [relabel, items, items_relabel body, Item.relabel]
  | forLoop _ openings condition iterators body =>
    have first : openings.map (fun opening => (opening.relabel label).item) =
        openings.map fun opening => opening.item.relabel label :=
      List.map_congr_left fun opening _ => opening.item_relabel label
    cases condition <;> simp [relabel, items, items_relabel body, Item.relabel, first, Function.comp_def]

theorem itemsOf_relabelAll (body : List Stmt) :
    itemsOf (relabelAll label body) = (itemsOf body).map (Item.relabel label) := by
  cases body with
  | nil => rfl
  | cons first others => simp [relabelAll, itemsOf, items_relabel first, itemsOf_relabelAll others]

end

end Stmt

theorem Declaration.items_relabel (decl : Declaration) :
    (decl.relabel label).items = decl.items.map (Item.relabel label) := by
  cases decl with
  | global _ | enumeration _ => rfl
  | function decl =>
    simp [relabel, items, Stmt.itemsOf_relabelAll, Item.relabel, Function.comp_def]
  | delegate decl => simp [relabel, items, Item.relabel, Function.comp_def]
  | struct decl => simp [relabel, items, Item.relabel, Function.comp_def]

theorem File.items_relabel (file : File) : (file.relabel label).items = file.items.map (Item.relabel label) := by
  simp [relabel, items, List.flatMap_map, List.map_flatMap, Declaration.items_relabel]

theorem Variable.relabel_relabel (decl : Variable) :
    (decl.relabel label).relabel other = decl.relabel (other ∘ label) := by
  cases found : decl.initializer <;> simp [relabel, found, Expr.relabel_relabel]

theorem Opening.relabel_relabel (opening : Opening) :
    (opening.relabel label).relabel other = opening.relabel (other ∘ label) := by
  cases opening <;> simp [relabel, Variable.relabel_relabel, Expr.relabel_relabel]

namespace Stmt

mutual

theorem relabel_relabel (stmt : Stmt) : (stmt.relabel label).relabel other = stmt.relabel (other ∘ label) := by
  cases stmt with
  | block _ body => simpa [relabel] using relabelAll_relabelAll body
  | declare decl => simp [relabel, Variable.relabel_relabel]
  | evaluate _ _ => simp [relabel, Expr.relabel_relabel]
  | jump _ _ value => cases value <;> simp [relabel, Expr.relabel_relabel]
  | ifThen _ _ body => simp [relabel, Expr.relabel_relabel, relabel_relabel body]
  | ifElse _ _ body last => simp [relabel, Expr.relabel_relabel, relabel_relabel body, relabel_relabel last]
  | whileLoop _ _ body => simp [relabel, Expr.relabel_relabel, relabel_relabel body]
  | forLoop _ _ condition _ body =>
    cases condition <;>
      simp [relabel, Expr.relabel_relabel, Opening.relabel_relabel, relabel_relabel body, Function.comp_def]

theorem relabelAll_relabelAll (body : List Stmt) :
    relabelAll other (relabelAll label body) = relabelAll (other ∘ label) body := by
  cases body with
  | nil => rfl
  | cons first others => simp only [relabelAll, relabel_relabel first, relabelAll_relabelAll others]

end

end Stmt

theorem Declaration.relabel_relabel (decl : Declaration) :
    (decl.relabel label).relabel other = decl.relabel (other ∘ label) := by
  cases decl with
  | global decl => simp [relabel, Variable.relabel_relabel]
  | function decl => simp [relabel, Stmt.relabelAll_relabelAll]
  | enumeration _ | delegate _ => rfl
  | struct decl => simp [relabel, Variable.relabel_relabel, Function.comp_def]

theorem File.relabel_relabel (file : File) : (file.relabel label).relabel other = file.relabel (other ∘ label) := by
  simp [relabel, Declaration.relabel_relabel, Function.comp_def]

end

def Node.later (count : Nat) (node : Node) : Node := { node with id := node.id + count }

abbrev Expr.later (count : Nat) : Expr → Expr := Expr.relabel (Node.later count)
abbrev Variable.later (count : Nat) : Variable → Variable := Variable.relabel (Node.later count)
abbrev Opening.later (count : Nat) : Opening → Opening := Opening.relabel (Node.later count)
abbrev Stmt.later (count : Nat) : Stmt → Stmt := Stmt.relabel (Node.later count)
abbrev Declaration.later (count : Nat) : Declaration → Declaration := Declaration.relabel (Node.later count)
abbrev File.later (count : Nat) : File → File := File.relabel (Node.later count)

def Node.unnumbered (node : Node) : Node := { node with id := 0 }

-- Files that differ in the identities of their expressions alone.
def File.SameText (left right : File) : Prop := left.relabel Node.unnumbered = right.relabel Node.unnumbered

theorem File.sameText_later (file : File) (first second : Nat) :
    (file.later first).SameText (file.later second) := by
  unfold SameText
  rw [relabel_relabel, relabel_relabel]
  rfl

end TypedScript
