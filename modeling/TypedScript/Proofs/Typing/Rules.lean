import Mathlib.Data.List.Forall2
import TypedScript.Proofs.Typing.Growth

namespace TypedScript.Typing

def Typed (types : TypeMap) (expr : Expr) (type : Ty) : Prop := types.get? expr.id = some type

inductive LiteralTyped : Literal → Ty → Prop where
  | bool (value : Bool) : LiteralTyped (.bool value) .bool
  | char (value : Char) : LiteralTyped (.char value) .char
  | number (value : Number.Binary64) : LiteralTyped (.number value) .num
  | string (value : String) : LiteralTyped (.string value) .string
  | null : LiteralTyped .null .null

def MemberTyped (catalog : Catalog) (object : Ty) (name : String) (type : Ty) : Prop :=
  (∃ members, catalog.enum? object = some members ∧ (∃ value, (name, value) ∈ members) ∧ type = object) ∨
    ∃ fields, catalog.struct? object = some fields ∧ fields.lookup name = some type

inductive ElementTyped (catalog : Catalog) : Ty → Ty → Ty → Prop where
  | array {element given : Ty} (takes : catalog.accepts .num given = true) :
      ElementTyped catalog (.array element) given element
  | map {key value given : Ty} (takes : catalog.accepts key given = true) :
      ElementTyped catalog (.map key value) given value
  | string {given : Ty} (takes : catalog.accepts .num given = true) : ElementTyped catalog .string given .char

def AssignTyped (catalog : Catalog) (operator : AssignOp) (target value : Ty) : Prop :=
  (operator = .set → catalog.accepts target value = true) ∧
    (operator ≠ .set → target = .num ∧ value = .num ∨ operator = .add ∧ target = .string)

def Joins (catalog : Catalog) (type : Ty) : Prop :=
  type ∈ [.bool, .num, .char, .string] ∨ ∃ members, catalog.enum? type = some members

inductive OperatorTyped (catalog : Catalog) (vectors : Vectors) : BinaryOp → Ty → Ty → Ty → Prop where
  | numbers {operator : BinaryOp} (listed : operator ∈ [.add, .subtract, .multiply]) :
      OperatorTyped catalog vectors operator .num .num .num
  | appended {right : Ty} (joins : Joins catalog right) : OperatorTyped catalog vectors .add .string right .string
  | prepended {left : Ty} (joins : Joins catalog left) : OperatorTyped catalog vectors .add left .string .string
  | vectors {operator : BinaryOp} {name : String} (listed : operator ∈ [.add, .subtract]) (vector : name ∈ vectors) :
      OperatorTyped catalog vectors operator (.named name) (.named name) (.named name)
  | scaled {name : String} (vector : name ∈ vectors) :
      OperatorTyped catalog vectors .multiply (.named name) .num (.named name)
  | scales {name : String} (vector : name ∈ vectors) :
      OperatorTyped catalog vectors .multiply .num (.named name) (.named name)
  | equality {operator : BinaryOp} {left right : Ty} (listed : operator ∈ [.equals, .notEquals, .approxEquals])
      (comparable : catalog.accepts left right = true ∨ catalog.accepts right left = true) :
      OperatorTyped catalog vectors operator left right .bool
  | comparison {operator : BinaryOp} {type : Ty} (listed : operator ∈ [.less, .lessEquals, .greater, .greaterEquals]) :
      OperatorTyped catalog vectors operator type type .bool
  | alike {operator : BinaryOp} {type : Ty} (listed : operator ∈ [.and, .or, .divide, .remainder, .power]) :
      OperatorTyped catalog vectors operator type type type

def ContainerOp.written (op : ContainerOp) (node object : Node) : Expr :=
  .member node (.name object op.container.name) op.method

-- A callee that means an operation. Any global of the name of a container will do, whatever its type is.
structure Means (catalog : Catalog) (callee : Expr) (op : ContainerOp) : Prop where
  listed : op ∈ ContainerOp.all
  owned : catalog.owner? op.container.name = some .global
  written : ∃ node object, callee = op.written node object

inductive Container.Holds : Container → Ty → Prop where
  | array (element : Ty) : Holds .array (.array element)
  | map (key value : Ty) : Holds .map (.map key value)

inductive Gives : Ty → ResultRole → Ty → Prop where
  | void (whole : Ty) : Gives whole .void .void
  | num (whole : Ty) : Gives whole .num .num
  | bool (whole : Ty) : Gives whole .bool .bool
  | element (element : Ty) : Gives (.array element) .element element
  | value (key value : Ty) : Gives (.map key value) .value value
  | container (whole : Ty) : Gives whole .container whole
  | keys (key value : Ty) : Gives (.map key value) .keys (.array key)
  | values (key value : Ty) : Gives (.map key value) .values (.array value)

-- What may be given to an operation on a container in a role. A function that orders elements fits the parameter that
-- the callee declares, once that takes two elements; where none is declared, any function will do.
inductive Serves (catalog : Catalog) (declared : Option Ty) : Ty → ArgumentRole → Ty → Prop where
  | container (whole : Ty) : Serves catalog declared whole .container whole
  | num {whole given : Ty} (takes : catalog.accepts .num given = true) : Serves catalog declared whole .num given
  | element {element given : Ty} (takes : catalog.accepts element given = true) :
      Serves catalog declared (.array element) .element given
  | key {key value given : Ty} (takes : catalog.accepts key given = true) :
      Serves catalog declared (.map key value) .key given
  | value {key value given : Ty} (takes : catalog.accepts value given = true) :
      Serves catalog declared (.map key value) .value given
  | unordered (element : Ty) : Serves catalog declared (.array element) .comparator .null
  | ordered {element given : Ty} {signature : Signature} (called : catalog.delegate? given = some signature)
      (fits : ∀ parameter ∈ declared, catalog.acceptsWith (some [element, element]) parameter given = true) :
      Serves catalog declared (.array element) .comparator given

inductive ServeAll (catalog : Catalog) (parameters : List Ty) (whole : Ty) : Nat → List ArgumentRole → List Ty → Prop where
  | nil {index : Nat} : ServeAll catalog parameters whole index [] []
  | cons {index : Nat} {role : ArgumentRole} {roles : List ArgumentRole} {given : Ty} {others : List Ty}
      (first : Serves catalog parameters[index]? whole role given)
      (rest : ServeAll catalog parameters whole (index + 1) roles others) :
      ServeAll catalog parameters whole index (role :: roles) (given :: others)

-- The rule of an operation: the first argument is a container of its kind, and that tells what the others may be and
-- what is given back.
inductive ContainerOp.Follows (catalog : Catalog) (callee : Ty) (op : ContainerOp) : List Ty → Ty → Prop where
  | mk {whole type : Ty} {others : List Ty} (holds : op.container.Holds whole)
      (serve : ServeAll catalog ((catalog.delegate? callee).elim [] Signature.parameters) whole 0 op.arguments
        (whole :: others)) (gives : Gives whole op.result type) : Follows catalog callee op (whole :: others) type

-- What a value is made of: the elements of an array, the keys and values of a map in turn, or the first fields of a
-- struct.
inductive Builds (catalog : Catalog) : Ty → List Ty → Prop where
  | array {element : Ty} {given : List Ty} (each : ∀ type ∈ given, catalog.accepts element type = true) :
      Builds catalog (.array element) given
  | noEntry (key value : Ty) : Builds catalog (.map key value) []
  | entry {key value first second : Ty} {given : List Ty} (takesKey : catalog.accepts key first = true)
      (takesValue : catalog.accepts value second = true) (rest : Builds catalog (.map key value) given) :
      Builds catalog (.map key value) (first :: second :: given)
  | struct {name : String} {fields : List (String × Ty)} {given : List Ty}
      (found : catalog.struct? (.named name) = some fields)
      (each : List.Forall₂ (fun field type => catalog.accepts field.2 type = true) (fields.take given.length) given) :
      Builds catalog (.named name) given

inductive Fit (catalog : Catalog) (types : TypeMap) : List Ty → List Expr → Prop where
  | nil : Fit catalog types [] []
  | cons {parameter type : Ty} {parameters : List Ty} {argument : Expr} {arguments : List Expr}
      (given : Typed types argument type) (fits : catalog.accepts parameter type = true)
      (rest : Fit catalog types parameters arguments) :
      Fit catalog types (parameter :: parameters) (argument :: arguments)

inductive TypedAll (types : TypeMap) : List Expr → List Ty → Prop where
  | nil : TypedAll types [] []
  | cons {expr : Expr} {exprs : List Expr} {type : Ty} {given : List Ty} (first : Typed types expr type)
      (rest : TypedAll types exprs given) : TypedAll types (expr :: exprs) (type :: given)

-- The rules that the recorded types keep, one for each form of expression.
inductive Valid (catalog : Catalog) (env : Vectors) (types : TypeMap) : Expr → Prop where
  | group {node : Node} {inner : Expr} {type : Ty} (body : Typed types inner type)
      (whole : Typed types (.group node inner) type) : Valid catalog env types (.group node inner)
  | literal {node : Node} {value : Literal} {type : Ty} (whole : Typed types (.literal node value) type)
      (rule : LiteralTyped value type) : Valid catalog env types (.literal node value)
  | name {node : Node} {name : String} {type : Ty} (whole : Typed types (.name node name) type) :
      Valid catalog env types (.name node name)
  | member {node : Node} {object : Expr} {name : String} {objectType type : Ty}
      (before : Typed types object objectType) (whole : Typed types (.member node object name) type)
      (rule : MemberTyped catalog objectType name type) : Valid catalog env types (.member node object name)
  | setName {node : Node} {name : String} {operator : AssignOp} {value : Expr} {target given : Ty}
      (last : Typed types value given) (whole : Typed types (.setName node name operator value) target)
      (rule : AssignTyped catalog operator target given) :
      Valid catalog env types (.setName node name operator value)
  | setMember {node : Node} {object : Expr} {name : String} {operator : AssignOp} {value : Expr}
      {objectType target given : Ty} (before : Typed types object objectType) (last : Typed types value given)
      (whole : Typed types (.setMember node object name operator value) target)
      (left : MemberTyped catalog objectType name target) (rule : AssignTyped catalog operator target given) :
      Valid catalog env types (.setMember node object name operator value)
  | setIndex {node : Node} {object index : Expr} {operator : AssignOp} {value : Expr}
      {container key target given : Ty} (before : Typed types object container)
      (between : Typed types index key) (last : Typed types value given)
      (whole : Typed types (.setIndex node object index operator value) target)
      (left : ElementTyped catalog container key target) (rule : AssignTyped catalog operator target given) :
      Valid catalog env types (.setIndex node object index operator value)
  | not {node : Node} {operand : Expr} {after : Bool} (body : Typed types operand .bool)
      (whole : Typed types (.unary node .not operand after) .bool) :
      Valid catalog env types (.unary node .not operand after)
  | numeric {node : Node} {operator : UnaryOp} {operand : Expr} {after : Bool} (other : operator ≠ .not)
      (body : Typed types operand .num) (whole : Typed types (.unary node operator operand after) .num) :
      Valid catalog env types (.unary node operator operand after)
  | binary {node : Node} {operator : BinaryOp} {left right : Expr} {leftType rightType type : Ty}
      (before : Typed types left leftType) (last : Typed types right rightType)
      (whole : Typed types (.binary node operator left right) type)
      (rule : OperatorTyped catalog env operator leftType rightType type) :
      Valid catalog env types (.binary node operator left right)
  | operation {node : Node} {callee : Expr} {arguments : List Expr} {calleeType type : Ty} {given : List Ty}
      {op : ContainerOp} (meant : Means catalog callee op) (before : Typed types callee calleeType)
      (last : TypedAll types arguments given) (whole : Typed types (.call node callee arguments) type)
      (rule : op.Follows catalog calleeType given type) : Valid catalog env types (.call node callee arguments)
  | call {node : Node} {callee : Expr} {arguments : List Expr} {calleeType : Ty} {signature : Signature}
      (plain : ∀ op, ¬ Means catalog callee op) (before : Typed types callee calleeType)
      (rule : catalog.delegate? calleeType = some signature)
      (arity : arguments.length = signature.parameters.length)
      (last : Fit catalog types signature.parameters arguments)
      (whole : Typed types (.call node callee arguments) signature.returns) :
      Valid catalog env types (.call node callee arguments)
  | index {node : Node} {callee argument : Expr} {container key type : Ty}
      (before : Typed types callee container) (last : Typed types argument key)
      (whole : Typed types (.index node callee [argument]) type) (rule : ElementTyped catalog container key type) :
      Valid catalog env types (.index node callee [argument])
  | cast {node : Node} {operand : Expr} {given target : Ty} (body : Typed types operand given)
      (whole : Typed types (.cast node operand target) target) :
      Valid catalog env types (.cast node operand target)
  | construct {node : Node} {target : Ty} {arguments : List Expr} {given : List Ty}
      (last : TypedAll types arguments given) (whole : Typed types (.construct node target arguments) target)
      (rule : Builds catalog target given) :
      Valid catalog env types (.construct node target arguments)

def ItemValid (catalog : Catalog) (types : TypeMap) : Item → Prop
  | .condition expr => Typed types expr .bool
  | .declare decl => ∀ value ∈ decl.initializer, ∃ given, Typed types value given ∧
      catalog.accepts decl.type given = true
  | .parameter _ | .mention _ | .value _ => True

-- Catalogs that agree on all but their known types. No rule of typing tells them apart.
structure SameShape (left right : Catalog) : Prop where
  names : left.names.get? = right.names.get?
  structs : left.structs.get? = right.structs.get?
  enums : left.enums.get? = right.enums.get?
  delegates : left.delegates.get? = right.delegates.get?

namespace SameShape

variable {left right : Catalog}

theorem of_types {types : Table String Ty} (same : right = { left with types }) : SameShape left right := by
  subst same
  exact ⟨rfl, rfl, rfl, rfl⟩

theorem owner? (shape : SameShape left right) : left.owner? = right.owner? := shape.names

theorem struct? (shape : SameShape left right) : left.struct? = right.struct? := by
  funext type
  unfold Catalog.struct?
  rw [shape.structs]

theorem enum? (shape : SameShape left right) : left.enum? = right.enum? := by
  funext type
  unfold Catalog.enum?
  rw [shape.enums]

theorem delegate? (shape : SameShape left right) : left.delegate? = right.delegate? := by
  funext type
  unfold Catalog.delegate?
  rw [shape.delegates]

theorem acceptsWith (shape : SameShape left right) : left.acceptsWith = right.acceptsWith := by
  funext overrides target value
  unfold Catalog.acceptsWith
  rw [shape.delegate?]

theorem accepts (shape : SameShape left right) : left.accepts = right.accepts := by
  funext target value
  unfold Catalog.accepts
  rw [shape.acceptsWith]

theorem namesEnum (shape : SameShape left right) : namesEnum left = namesEnum right := by
  funext expr
  unfold Typing.namesEnum
  rw [shape.owner?]

theorem memberType (shape : SameShape left right) : memberType left = memberType right := by
  funext object type name
  unfold Typing.memberType enumMemberType fieldType
  rw [shape.namesEnum, shape.enum?, shape.struct?]

theorem elementType (shape : SameShape left right) : elementType left = elementType right := by
  funext container index
  unfold Typing.elementType
  rw [shape.accepts]

theorem binaryType? (shape : SameShape left right) : binaryType? left = binaryType? right := by
  funext vectors operator first second
  unfold Typing.binaryType? sumType? equalityType? joinsText Catalog.isEnum
  rw [shape.accepts, shape.enum?]

theorem containerOp? (shape : SameShape left right) : containerOp? left = containerOp? right := by
  funext expr
  unfold Typing.containerOp?
  rw [shape.owner?]

theorem signatureOf (shape : SameShape left right) : signatureOf left = signatureOf right := by
  funext type
  unfold Typing.signatureOf
  rw [shape.delegate?]

theorem requireRoles (shape : SameShape left right) (types : ContainerTypes) (declared : List Ty) (index : Nat)
    (roles : List ArgumentRole) (arguments : List Argument) :
    requireRoles left types declared index roles arguments =
      requireRoles right types declared index roles arguments := by
  induction roles generalizing index arguments with
  | nil => rfl
  | cons role roles ih =>
    cases arguments with
    | nil => rfl
    | cons argument others =>
      have one : requireRole left types declared[index]? index role argument =
          requireRole right types declared[index]? index role argument := by
        unfold requireRole acceptsComparator Catalog.isDelegate
        rw [shape.accepts, shape.acceptsWith, shape.delegate?]
      simp only [Typing.requireRoles, one, ih]

theorem containerOpType (shape : SameShape left right) : containerOpType left = containerOpType right := by
  funext op callee place arguments
  cases arguments with
  | nil => rfl
  | cons container others => simp only [Typing.containerOpType, shape.requireRoles, shape.delegate?]

theorem requireArguments (shape : SameShape left right) (wanted : Nat → Ty) (index : Nat)
    (arguments : List Argument) :
    requireArguments left wanted index arguments = requireArguments right wanted index arguments := by
  induction arguments generalizing index with
  | nil => rfl
  | cons argument others ih => simp only [Typing.requireArguments, shape.accepts, ih]

theorem requireFields (shape : SameShape left right) (fields : List (String × Ty)) (arguments : List Argument) :
    requireFields left fields arguments = requireFields right fields arguments := by
  induction fields generalizing arguments with
  | nil => rfl
  | cons field fields ih =>
    cases arguments with
    | nil => rfl
    | cons argument others => simp only [Typing.requireFields, shape.accepts, ih]

theorem requireConstruction (shape : SameShape left right) :
    requireConstruction left = requireConstruction right := by
  funext target place arguments
  cases target with
  | array element => exact shape.requireArguments _ 0 arguments
  | map key value => simp only [Typing.requireConstruction, shape.requireArguments]
  | named name => simp only [Typing.requireConstruction, requireStruct, shape.struct?, shape.requireFields]

end SameShape

theorem SameShape.assigns {left right : Catalog} (shape : SameShape left right) {operator : AssignOp}
    {target value : Ty} (assigns : AssignTyped left operator target value) :
    AssignTyped right operator target value := by
  unfold AssignTyped at assigns ⊢
  rwa [← shape.accepts]

theorem literal_typed (value : Literal) : LiteralTyped value value.type := by cases value <;> constructor

theorem Container.ofName?_eq_some {text : String} {container : Container} :
    ofName? text = some container ↔ text = container.name := by
  constructor
  · intro found
    unfold ofName? at found
    split at found <;> cases found <;> rfl
  · rintro rfl
    cases container <;> rfl

theorem ContainerOp.find?_self : ∀ op ∈ all, find? op.container op.method = some op := by decide

theorem ContainerOp.find?_eq_some {container : Container} {method : String} {op : ContainerOp} :
    find? container method = some op ↔ op ∈ all ∧ op.container = container ∧ op.method = method := by
  constructor
  · intro found
    have same := List.find?_some found
    simp only [Bool.and_eq_true, decide_eq_true_eq] at same
    exact ⟨List.mem_of_find?_eq_some found, same⟩
  · rintro ⟨listed, rfl, rfl⟩
    exact find?_self op listed

theorem containerOp?_eq_some {catalog : Catalog} {callee : Expr} {op : ContainerOp} :
    containerOp? catalog callee = some op ↔ Means catalog callee op := by
  constructor
  · intro meant
    unfold containerOp? at meant
    split at meant
    · rename_i node object text method
      split at meant
      · rename_i owned
        obtain ⟨container, named, found⟩ := Option.bind_eq_some_iff.mp meant
        obtain ⟨listed, rfl, rfl⟩ := ContainerOp.find?_eq_some.mp found
        cases Container.ofName?_eq_some.mp named
        exact ⟨listed, owned, node, object, rfl⟩
      · cases meant
    · cases meant
  · rintro ⟨listed, owned, node, object, rfl⟩
    simp only [ContainerOp.written, containerOp?, if_pos owned, Container.ofName?_eq_some.mpr rfl, Option.bind_some]
    exact ContainerOp.find?_self op listed

theorem memberType_typed {catalog : Catalog} {object : Expr} {objectType type : Ty} {name : String}
    (found : memberType catalog object objectType name = .ok type) :
    MemberTyped catalog objectType name type := by
  unfold memberType at found
  split at found
  · unfold enumMemberType at found
    cases entry : catalog.enum? objectType with
    | none =>
      simp only [entry] at found
      cases found
    | some members =>
      simp only [entry] at found
      split at found
      · rename_i present
        cases found
        obtain ⟨⟨key, value⟩, member, same⟩ := List.any_eq_true.mp present
        cases eq_of_beq same
        exact .inl ⟨members, entry, ⟨value, member⟩, rfl⟩
      · cases found
  · unfold fieldType at found
    cases entry : catalog.struct? objectType with
    | none =>
      simp only [entry] at found
      cases found
    | some fields =>
      simp only [entry] at found
      cases field : fields.lookup name with
      | none =>
        simp only [field] at found
        cases found
      | some type =>
        simp only [field] at found
        cases found
        exact .inr ⟨fields, entry, field⟩

theorem elementType_typed {catalog : Catalog} {container key type : Ty}
    (found : elementType catalog container key = .ok type) : ElementTyped catalog container key type := by
  unfold elementType indexedType at found
  cases container with
  | array element =>
    simp only [Ty.keyType?, Ty.elementType?] at found
    split at found
    · cases found
      exact .array ‹_›
    · cases found
  | map index element =>
    simp only [Ty.keyType?, Ty.elementType?] at found
    split at found
    · cases found
      exact .map ‹_›
    · cases found
  | named name =>
    simp only [Ty.keyType?, Ty.elementType?] at found
    by_cases text : name = "string"
    · simp only [text, if_true] at found
      split at found
      · cases found
        rw [text]
        exact .string ‹_›
      · cases found
    · simp only [text, if_false] at found
      cases found

theorem ElementTyped.elementType? {catalog : Catalog} {container key type : Ty}
    (typed : ElementTyped catalog container key type) : container.elementType? = some type := by
  cases typed <;> rfl

theorem isVector_iff {vectors : Vectors} {type : Ty} :
    isVector vectors type = true ↔ ∃ name, type = .named name ∧ name ∈ vectors := by
  cases type with
  | named name => simp [isVector]
  | array | map => simp [isVector]

theorem joinsText_iff {catalog : Catalog} {type : Ty} : joinsText catalog type = true ↔ Joins catalog type := by
  simp [joinsText, Joins, Catalog.isEnum, Option.isSome_iff_exists, or_assoc]

theorem sumType?_typed {catalog : Catalog} {vectors : Vectors} {left right type : Ty}
    (found : sumType? catalog vectors left right = some type) : OperatorTyped catalog vectors .add left right type := by
  unfold sumType? at found
  split at found
  · rename_i numbers
    obtain ⟨rfl, rfl⟩ := numbers
    cases found
    exact .numbers (by decide)
  split at found
  · rename_i texts
    cases found
    rcases texts with ⟨rfl, joins⟩ | ⟨rfl, joins⟩
    · exact .appended (joinsText_iff.mp joins)
    · exact .prepended (joinsText_iff.mp joins)
  split at found
  · rename_i alike
    cases found
    obtain ⟨rfl, vector⟩ := alike
    obtain ⟨name, rfl, member⟩ := isVector_iff.mp vector
    exact .vectors (by decide) member
  · cases found

theorem differenceType?_typed {catalog : Catalog} {vectors : Vectors} {left right type : Ty}
    (found : differenceType? vectors left right = some type) :
    OperatorTyped catalog vectors .subtract left right type := by
  unfold differenceType? at found
  split at found
  · rename_i alike
    cases found
    obtain ⟨rfl, rfl | vector⟩ := alike
    · exact .numbers (by decide)
    · obtain ⟨name, rfl, member⟩ := isVector_iff.mp vector
      exact .vectors (by decide) member
  · cases found

theorem productType?_typed {catalog : Catalog} {vectors : Vectors} {left right type : Ty}
    (found : productType? vectors left right = some type) :
    OperatorTyped catalog vectors .multiply left right type := by
  unfold productType? at found
  split at found
  · rename_i numbers
    obtain ⟨rfl, rfl⟩ := numbers
    cases found
    exact .numbers (by decide)
  split at found
  · rename_i scaled
    obtain ⟨vector, rfl⟩ := scaled
    obtain ⟨name, rfl, member⟩ := isVector_iff.mp vector
    cases found
    exact .scaled member
  split at found
  · rename_i scaled
    obtain ⟨rfl, vector⟩ := scaled
    obtain ⟨name, rfl, member⟩ := isVector_iff.mp vector
    cases found
    exact .scales member
  · cases found

theorem binaryType?_typed {catalog : Catalog} {vectors : Vectors} {operator : BinaryOp} {left right type : Ty}
    (found : binaryType? catalog vectors operator left right = some type) :
    OperatorTyped catalog vectors operator left right type := by
  have equality (listed : operator ∈ [.equals, .notEquals, .approxEquals])
      (equal : equalityType? catalog left right = some type) : OperatorTyped catalog vectors operator left right type := by
    unfold equalityType? at equal
    split at equal
    · cases equal
      exact .equality listed (Bool.or_eq_true_iff.mp ‹_›)
    · cases equal
  have alike {result : Ty} (same : (if left = right then some result else none) = some type)
      (rule : left = right → OperatorTyped catalog vectors operator left right result) :
      OperatorTyped catalog vectors operator left right type := by
    split at same
    · cases same
      exact rule ‹_›
    · cases same
  cases operator with
  | add => exact sumType?_typed found
  | subtract => exact differenceType?_typed found
  | multiply => exact productType?_typed found
  | equals | notEquals | approxEquals => exact equality (by decide) found
  | less | lessEquals | greater | greaterEquals =>
    refine alike found ?_
    rintro rfl
    exact .comparison (by decide)
  | and | or | divide | remainder | power =>
    refine alike found ?_
    rintro rfl
    exact .alike (by decide)

theorem assigns_typed {catalog : Catalog} {operator : AssignOp} {target value : Ty}
    (assigns : Assigns catalog operator target value) : AssignTyped catalog operator target value := by
  unfold Assigns updates at assigns
  constructor
  · intro same
    rwa [if_pos same] at assigns
  · intro other
    rw [if_neg other] at assigns
    simp only [Bool.or_eq_true, Bool.and_eq_true, decide_eq_true_eq] at assigns
    exact assigns.symm

section Construction

variable {catalog : Catalog} {arguments : List Argument} {index : Nat}

theorem requireArguments_cons {wanted : Nat → Ty} {argument : Argument} :
    requireArguments catalog wanted index (argument :: arguments) = .ok () ↔
      catalog.accepts (wanted index) argument.type = true ∧
        requireArguments catalog wanted (index + 1) arguments = .ok () := by
  rw [requireArguments]
  cases catalog.accepts (wanted index) argument.type <;> simp

theorem requireArguments_elements {element : Ty} (ran : requireArguments catalog (fun _ => element) index arguments = .ok ()) :
    ∀ type ∈ arguments.map Argument.type, catalog.accepts element type = true := by
  induction arguments generalizing index with
  | nil => exact List.forall_mem_nil _
  | cons argument others ih =>
    obtain ⟨takes, rest⟩ := requireArguments_cons.mp ran
    exact List.forall_mem_cons.mpr ⟨takes, ih rest⟩

-- Keys stand at even places and values at odd ones, so that two arguments are taken at a time.
theorem requireArguments_entries {key value : Ty} {entries : Nat} (even : index % 2 = 0)
    (length : arguments.length = 2 * entries)
    (ran : requireArguments catalog (fun index => if index % 2 = 0 then key else value) index arguments = .ok ()) :
    Builds catalog (.map key value) (arguments.map Argument.type) := by
  induction entries generalizing index arguments with
  | zero =>
    cases List.length_eq_zero_iff.mp length
    exact .noEntry key value
  | succ entries ih =>
    obtain ⟨first, others, rfl⟩ := List.exists_cons_of_length_eq_add_one (n := 2 * entries + 1) length
    obtain ⟨second, rest, rfl⟩ := List.exists_cons_of_length_eq_add_one (n := 2 * entries) (Nat.succ.inj length)
    obtain ⟨here, ran⟩ := requireArguments_cons.mp ran
    obtain ⟨next, ran⟩ := requireArguments_cons.mp ran
    rw [if_pos even] at here
    rw [if_neg (by omega)] at next
    exact .entry here next (ih (by omega) (Nat.succ.inj (Nat.succ.inj length)) ran)

theorem requireFields_each {fields : List (String × Ty)} (length : arguments.length ≤ fields.length)
    (ran : requireFields catalog fields arguments = .ok ()) :
    List.Forall₂ (fun field type => catalog.accepts field.2 type = true)
      (fields.take (arguments.map Argument.type).length) (arguments.map Argument.type) := by
  induction arguments generalizing fields with
  | nil => exact .nil
  | cons argument others ih =>
    obtain ⟨field, later, rfl⟩ := List.exists_cons_of_ne_nil (List.ne_nil_of_length_pos (Nat.zero_lt_of_lt length))
    simp only [requireFields] at ran
    split at ran
    · exact .cons ‹_› (ih (Nat.le_of_succ_le_succ length) ran)
    · cases ran

theorem requireConstruction_builds {target : Ty} {place : Position}
    (ran : requireConstruction catalog target place arguments = .ok ()) :
    Builds catalog target (arguments.map Argument.type) := by
  unfold requireConstruction requireStruct at ran
  cases target with
  | array element => exact .array (requireArguments_elements ran)
  | map key value =>
    simp only at ran
    split at ran
    · exact requireArguments_entries rfl (Nat.eq_mul_of_div_eq_right (Nat.dvd_of_mod_eq_zero ‹_›) rfl) ran
    · cases ran
  | named name =>
    simp only at ran
    cases found : catalog.struct? (.named name) with
    | none =>
      simp only [found] at ran
      cases ran
    | some fields =>
      simp only [found] at ran
      cases extra : arguments[fields.length]? with
      | some argument =>
        simp only [extra] at ran
        cases ran
      | none =>
        simp only [extra] at ran
        exact .struct found (requireFields_each (List.getElem?_eq_none_iff.mp extra) ran)

end Construction

end TypedScript.Typing
