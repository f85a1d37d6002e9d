import TypedScript.Proofs.Tandem
import TypedScript.Proofs.Tree.Mirrors
import TypedScript.Proofs.Typing.Knowing

namespace TypedScript

namespace Catalog.Agrees

variable {left right : Catalog}

theorem shape (agrees : left.Agrees right) : Typing.SameShape left right :=
  ⟨agrees.names, agrees.structs, agrees.enums, agrees.delegates⟩

theorem knows (agrees : left.Agrees right) : left.knows = right.knows := by
  funext path
  unfold Catalog.knows Table.contains
  rw [agrees.types]

end Catalog.Agrees

namespace Typing

-- Types that a check can come by: what it finds in a catalog by way of some of them is one of them too.
structure Covers (known : Ty → Prop) (catalog : Catalog) : Prop where
  literal : ∀ value : Literal, known value.type
  member : ∀ {object type name}, known object → MemberTyped catalog object name type → known type
  element : ∀ {container type : Ty}, known container → container.elementType? = some type → known type
  binary : ∀ {env operator left right type}, known left → known right →
    binaryType? catalog env operator left right = some type → known type
  operation : ∀ {op : ContainerOp} {container types}, known container →
    ContainerTypes.of? op.container container = some types → known (types.result op.result)
  returns : ∀ {callee signature}, catalog.delegate? callee = some signature → known signature.returns
  required : ∀ {place type}, (type.isBracketed = true → known type) → catalog.requireKnown place type = .ok () →
    known type

theorem Complete.covers {catalog : Catalog} (complete : Complete catalog) : Covers catalog.Knows catalog :=
  ⟨complete.literal, complete.member, complete.element, complete.binary, complete.operation, complete.returns,
    complete.required⟩

theorem Covers.all (catalog : Catalog) : Covers (fun _ => True) catalog := by
  constructor <;> intros <;> trivial

-- Two checks in states that no check can tell apart, with types that both can come by.
structure Pairing extends Tandem Vectors State where
  Known : Ty → Prop
  vectors : left = right
  catalogs : ∀ {s t}, states s t → s.catalog.Agrees t.catalog
  covers : ∀ {s t}, states s t → Covers Known s.catalog
  scopes : ∀ {s t}, states s t → s.scopes.get? = t.scopes.get?
  inner : ∀ {s t}, states s t → s.scopes.inner.contains = t.scopes.inner.contains
  known : ∀ {s t}, states s t → ∀ {name type}, s.scopes.get? name = some type → Known type
  function : ∀ {s t}, states s t → s.function = t.function
  pushed : ∀ {s t}, states s t → states s.pushed t.pushed
  popped : ∀ {s t}, states s t → states s.popped t.popped
  framed : ∀ {s t}, states s t → ∀ function, states (s.framed function) (t.framed function)
  bound : ∀ {s t}, states s t → ∀ {name type}, s.scopes.inner.contains name = false → Known type →
    states (s.rescoped (s.scopes.bound name type)) (t.rescoped (t.scopes.bound name type))
  recorded : ∀ {s t}, states s t → ∀ {node copy type}, Ids node.id copy.id → Known type →
    states (s.recorded node type) (t.recorded copy type)

variable {α β : Type} {pair : Pairing} {place other : Position}

abbrev Twin (pair : Pairing) (good : α → Prop) (first second : Check α) : Prop :=
  Mirror pair.toTandem (fun value found => value = found ∧ good value) first second

structure Argument.Mirrors (At : Position → Position → Prop) (left right : Argument) : Prop where
  place : At left.place right.place
  type : left.type = right.type

namespace Twin

variable {good : α → Prop} {also : β → Prop} {first second : Check α}

theorem bind {next last : α → Check β} (start : Twin pair good first second)
    (rest : ∀ value, good value → Twin pair also (next value) (last value)) :
    Twin pair also (first >>= next) (second >>= last) := by
  apply Mirror.bind start
  rintro value _ ⟨rfl, holds⟩
  exact rest value holds

theorem pure {value : α} (holds : good value) : Twin pair good (pure value) (pure value) := Mirror.pure ⟨rfl, holds⟩

theorem imp {less : α → Prop} (start : Twin pair good first second) (implies : ∀ value, good value → less value) :
    Twin pair less first second :=
  Mirror.imp start fun value _ found => ⟨found.1, implies value found.2⟩

theorem forget (start : Twin pair good first second) : Twin pair (fun _ => True) first second :=
  start.imp fun _ _ => trivial

theorem catalog_bind {next last : Catalog → Check β}
    (rest : ∀ one two, one.Agrees two → Covers pair.Known one → Twin pair also (next one) (last two)) :
    Twin pair also (catalog >>= next) (catalog >>= last) :=
  fun s t states => rest s.catalog t.catalog (pair.catalogs states) (pair.covers states) s t states

theorem vectors_bind {next last : Vectors → Check β} (rest : ∀ env, Twin pair also (next env) (last env)) :
    Twin pair also (vectors >>= next) (vectors >>= last) := by
  intro s t states
  have same : last pair.right = last pair.left := by rw [pair.vectors]
  rw [Typing.vectors_bind, Typing.vectors_bind, same]
  exact rest pair.left s t states

theorem fail (cause : Cause) (places : pair.At place other) :
    Twin pair good (fail cause place) (fail cause other) := fun _ _ states => .error ⟨rfl, places⟩ states

theorem require {answer result : Except Error α} (answers : Answer.Mirrors pair.At Eq answer result)
    (holds : ∀ value, answer = .ok value → good value) : Twin pair good (require answer) (require result) := by
  cases answers with
  | ok values => exact fun _ _ states => .ok ⟨values, holds _ rfl⟩ states
  | error errors => exact fun _ _ states => .error errors states

theorem requireAt (places : pair.At place other) {answer result : Except Cause α} (same : answer = result)
    (holds : ∀ value, answer = .ok value → good value) :
    Twin pair good (requireAt place answer) (requireAt other result) := by
  subst same
  cases answer with
  | ok value => exact fun _ _ states => .ok ⟨rfl, holds value rfl⟩ states
  | error cause => exact fail cause places

theorem record {node copy : Node} (nodes : node.Mirrors pair.At pair.Ids copy) {type : Ty} (known : pair.Known type) :
    Twin pair pair.Known (record node type) (record copy type) :=
  fun _ _ states => .ok ⟨rfl, known⟩ (pair.recorded states nodes.id known)

section
variable (places : pair.At place other)
include places

theorem variableType (name : String) :
    Twin pair pair.Known (variableType name place) (variableType name other) := by
  intro s t states
  have run (env : Vectors) (s : State) (rest : Option Ty → Check Ty) :
      (bound? name >>= rest) env s = rest (s.scopes.get? name) env s := rfl
  unfold Typing.variableType
  rw [run, run, ← pair.scopes states]
  cases found : s.scopes.get? name with
  | some type => exact .ok ⟨rfl, pair.known states found⟩ states
  | none => exact .error ⟨rfl, places⟩ states

theorem requireKnown {type : Ty} (written : type.isBracketed = true → pair.Known type) :
    Twin pair (fun _ => pair.Known type) (requireKnown type place) (requireKnown type other) :=
  catalog_bind fun _ _ agrees covers => require (Catalog.requireKnown_mirrors agrees.knows places type)
    fun _ known => covers.required written known

theorem requireAssignable (target value : Ty) :
    Twin pair (fun _ => True) (requireAssignable target value place) (requireAssignable target value other) := by
  refine catalog_bind fun _ _ agrees _ => requireAt places ?_ fun _ _ => trivial
  unfold requireAccepts
  rw [agrees.shape.accepts]

theorem bindMember (name : String) {type : Ty} (known : pair.Known type) :
    Twin pair (fun _ => True) (bindMember name type place) (bindMember name type other) := by
  intro s t states
  unfold Typing.bindMember
  rw [Scopes.declare_eq, Scopes.declare_eq, ← pair.inner states]
  cases fresh : s.scopes.inner.contains name with
  | true => exact .error ⟨rfl, places⟩ states
  | false => exact .ok ⟨rfl, trivial⟩ (pair.bound states fresh known)

theorem bindLocal (name : String) {type : Ty} (known : pair.Known type) :
    Twin pair (fun _ => True) (bindLocal name type place) (bindLocal name type other) :=
  catalog_bind fun _ _ agrees _ =>
    bind (require (Catalog.requireFree_mirrors agrees.shape.owner? name places) fun _ _ => trivial) fun _ (_ : True) =>
      bindMember places name known

theorem requireVariable (name : String) :
    Twin pair (fun _ => True) (requireVariable name place) (requireVariable name other) := by
  refine catalog_bind fun one two agrees _ => ?_
  rw [agrees.shape.owner?]
  exact .ite (fail _ places) (.pure ⟨rfl, trivial⟩)

theorem currentFunction : Twin pair (fun _ => True) (currentFunction place) (currentFunction other) := by
  intro s t states
  unfold Typing.currentFunction
  rw [← pair.function states]
  cases s.function with
  | none => exact .error ⟨rfl, places⟩ states
  | some frame => exact .ok ⟨rfl, trivial⟩ states

end

theorem markReturned : Twin pair (fun _ => True) markReturned markReturned := by
  intro s t states
  have framed := pair.framed states (s.function.map ({ · with returned := true }))
  refine .ok ⟨rfl, trivial⟩ ?_
  show pair.states s.marked t.marked
  unfold State.marked
  rwa [← pair.function states]

theorem inScope (body : Twin pair good first second) : Twin pair good (inScope first) (inScope second) := by
  intro s t states
  have outcomes := body s.pushed t.pushed (pair.pushed states)
  unfold Typing.inScope
  unfold State.pushed at outcomes
  generalize first pair.left { s with scopes := s.scopes.push } = outcome at outcomes ⊢
  generalize second pair.right { t with scopes := t.scopes.push } = result at outcomes ⊢
  cases outcomes with
  | ok values after => exact .ok values (pair.popped after)
  | error errors after => exact .error errors (pair.popped after)

theorem inFunction {body inner : Check Unit} (name : String) (returns : Ty)
    (bodies : Twin pair (fun _ => True) body inner) :
    Twin pair (fun _ => True) (inFunction name returns body) (inFunction name returns inner) := by
  intro s t states
  have outcomes := bodies.inScope _ _ (pair.framed states (some ⟨name, returns, false⟩))
  unfold Typing.inFunction
  unfold State.framed at outcomes
  generalize Typing.inScope body pair.left { s with function := some ⟨name, returns, false⟩ } = outcome at outcomes ⊢
  generalize Typing.inScope inner pair.right { t with function := some ⟨name, returns, false⟩ } = result at outcomes ⊢
  cases outcomes with
  | ok _ after =>
    simp only [pair.function after]
    exact .ok ⟨rfl, trivial⟩ (pair.framed after none)
  | error errors after => exact .error errors (pair.framed after none)

end Twin

section Arguments
variable {At : Position → Position → Prop} {Ids : Nat → Nat → Prop}

section
variable (catalog : Catalog) {arguments given : List Argument}
  (lists : List.Forall₂ (Argument.Mirrors At) arguments given)
include lists

theorem requireArguments_mirrors (wanted : Nat → Ty) (index : Nat) :
    Answer.Mirrors At Eq (requireArguments catalog wanted index arguments)
      (requireArguments catalog wanted index given) := by
  induction lists generalizing index with
  | nil => exact .ok rfl
  | cons firsts _ ih =>
    unfold requireArguments argumentError
    rw [firsts.type]
    exact .ite (ih _) (.error ⟨rfl, firsts.place⟩)

theorem requireFields_mirrors (fields : List (String × Ty)) :
    Answer.Mirrors At Eq (requireFields catalog fields arguments) (requireFields catalog fields given) := by
  induction lists generalizing fields with
  | nil => cases fields <;> exact .ok rfl
  | cons firsts _ ih =>
    cases fields with
    | nil => exact .ok rfl
    | cons field fields =>
      unfold requireFields
      rw [firsts.type]
      exact .ite (ih _) (.error ⟨rfl, firsts.place⟩)

theorem requireRoles_mirrors (types : ContainerTypes) (declared : List Ty) (index : Nat) (roles : List ArgumentRole) :
    Answer.Mirrors At Eq (requireRoles catalog types declared index roles arguments)
      (requireRoles catalog types declared index roles given) := by
  induction lists generalizing index roles with
  | nil => cases roles <;> exact .ok rfl
  | @cons first second others rest firsts _ ih =>
    cases roles with
    | nil => exact .ok rfl
    | cons role roles =>
      have fits : Answer.Mirrors At Eq (requireRole catalog types declared[index]? index role first)
          (requireRole catalog types declared[index]? index role second) := by
        unfold requireRole argumentError
        rw [firsts.type]
        cases types.wanted? role with
        | some wanted => exact .ite (.ok rfl) (.error ⟨rfl, firsts.place⟩)
        | none => exact .ite (.ok rfl) (.error ⟨rfl, firsts.place⟩)
      exact fits.bind fun _ _ _ => ih _ _

variable (places : At place other)
include places

theorem requireStruct_mirrors (target : Ty) :
    Answer.Mirrors At Eq (requireStruct catalog target place arguments)
      (requireStruct catalog target other given) := by
  unfold requireStruct
  cases catalog.struct? target with
  | none => exact .error ⟨rfl, places⟩
  | some fields =>
    have extras := getElem?_of_forall₂ lists fields.length
    simp only [lists.length_eq]
    generalize arguments[fields.length]? = extra at extras
    generalize given[fields.length]? = surplus at extras
    cases extras with
    | some extras => exact .error ⟨rfl, extras.place⟩
    | none => exact requireFields_mirrors catalog lists fields

theorem requireConstruction_mirrors (target : Ty) :
    Answer.Mirrors At Eq (requireConstruction catalog target place arguments)
      (requireConstruction catalog target other given) := by
  cases target with
  | named name => exact requireStruct_mirrors catalog lists places _
  | array element => exact requireArguments_mirrors catalog lists _ _
  | map key value =>
    unfold requireConstruction
    simp only [lists.length_eq]
    exact .ite (requireArguments_mirrors catalog lists _ _) (.error ⟨rfl, places⟩)

theorem containerOpType_mirrors (op : ContainerOp) (callee : Ty) :
    Answer.Mirrors At Eq (containerOpType catalog op callee place arguments)
      (containerOpType catalog op callee other given) := by
  cases lists with
  | nil => exact .error ⟨rfl, places⟩
  | cons firsts others =>
    unfold containerOpType argumentError
    simp only [firsts.type]
    cases ContainerTypes.of? op.container _ with
    | none => exact .error ⟨rfl, firsts.place⟩
    | some types => exact (requireRoles_mirrors catalog others types _ _ _).bind fun _ _ _ => .ok rfl

theorem indexType_mirrors (container : Ty) :
    Answer.Mirrors At Eq (indexType catalog container place arguments) (indexType catalog container other given) := by
  cases lists with
  | nil => exact .error ⟨rfl, places⟩
  | cons firsts others =>
    cases others with
    | nil =>
      simp only [indexType, firsts.type]
      cases elementType catalog container _ with
      | ok type => exact .ok rfl
      | error cause => exact .error ⟨rfl, firsts.place⟩
    | cons _ rest =>
      unfold indexType
      simp only [List.length_cons, rest.length_eq]
      exact .error ⟨rfl, places⟩

end

section
variable {arguments given : List Expr} (lists : List.Forall₂ (Expr.Mirrors At Ids) arguments given)
include lists

theorem requireArity_mirrors (expected : Nat) (places : At place other) :
    Answer.Mirrors At Eq (requireArity expected arguments place) (requireArity expected given other) := by
  have extras := getElem?_of_forall₂ lists expected
  unfold requireArity
  rw [lists.length_eq]
  generalize arguments[expected]? = extra at extras
  generalize given[expected]? = surplus at extras
  cases extras with
  | some exprs => exact .error ⟨rfl, exprs.start⟩
  | none => exact .ite (.error ⟨rfl, places⟩) (.ok rfl)

theorem checked_mirrors (types : List Ty) :
    List.Forall₂ (Argument.Mirrors At) (checked arguments types) (checked given types) := by
  induction lists generalizing types with
  | nil => exact .nil
  | cons firsts _ ih =>
    cases types with
    | nil => exact .nil
    | cons type types => exact .cons ⟨firsts.start, rfl⟩ (ih types)

end

section
variable {expr object : Expr} (mirrors : expr.Mirrors At Ids object) (catalog : Catalog)
include mirrors

theorem namesEnum_mirrors : namesEnum catalog expr = namesEnum catalog object := by
  unfold namesEnum
  rw [mirrors.bareName?]

theorem memberType_mirrors (type : Ty) (name : String) :
    memberType catalog expr type name = memberType catalog object type name := by
  unfold memberType
  rw [namesEnum_mirrors mirrors]

theorem containerOp?_mirrors : containerOp? catalog expr = containerOp? catalog object := by
  cases mirrors with
  | member _ objects => cases objects <;> rfl
  | _ => rfl

end

end Arguments

def Pairing.Stated (pair : Pairing) (exprs : List Expr) : Prop :=
  Expr.States (fun type => type.isBracketed = true → pair.Known type) exprs

theorem Pairing.Stated.append {left right : List Expr} (stated : pair.Stated (left ++ right)) :
    pair.Stated left ∧ pair.Stated right := Expr.states_append.mp stated

namespace Twin

theorem requireObject {object base : Expr} (objects : object.Mirrors pair.At pair.Ids base) (name : String)
    (places : pair.At place other) :
    Twin pair (fun _ => True) (requireObject object name place) (requireObject base name other) := by
  refine catalog_bind fun one two agrees _ => ?_
  rw [agrees.shape.namesEnum, namesEnum_mirrors objects, objects.bareName?]
  exact .ite (fail _ places) (.pure ⟨rfl, trivial⟩)

theorem requireAssignment (operator : AssignOp) (target value : Ty) (places : pair.At place other)
    {start first : Position} (starts : pair.At start first) :
    Twin pair (fun _ => True) (requireAssignment operator target value place start)
      (requireAssignment operator target value other first) :=
  .ite (requireAssignable starts target value) (.ite (.pure ⟨rfl, trivial⟩) (fail _ places))

theorem requireParameter (index : Nat) (parameter : Ty) {argument given : Argument}
    (arguments : argument.Mirrors pair.At given) :
    Twin pair (fun _ => True) (requireParameter index parameter argument) (requireParameter index parameter given) := by
  refine catalog_bind fun one two agrees _ => ?_
  unfold argumentError
  rw [agrees.shape.accepts, arguments.type]
  exact .ite (.pure ⟨rfl, trivial⟩) (require (.error ⟨rfl, arguments.place⟩) fun _ _ => trivial)

section Found
variable {one two : Catalog} (agrees : one.Agrees two) (covers : Covers pair.Known one) (places : pair.At place other)
include agrees covers places

theorem memberType {object base : Expr} (objects : object.Mirrors pair.At pair.Ids base) {given : Ty}
    (known : pair.Known given) (name : String) :
    Twin pair pair.Known (Typing.requireAt place (memberType one object given name))
      (Typing.requireAt other (memberType two base given name)) := by
  refine requireAt places ?_ fun type found => covers.member known (memberType_typed found)
  rw [agrees.shape.memberType, memberType_mirrors objects]

theorem elementType {container : Ty} (known : pair.Known container) (key : Ty) :
    Twin pair pair.Known (Typing.requireAt place (elementType one container key))
      (Typing.requireAt other (elementType two container key)) := by
  refine requireAt places ?_ fun type found => covers.element known (elementType_typed found).elementType?
  rw [agrees.shape.elementType]

theorem binaryType (env : Vectors) (operator : BinaryOp) {left right : Ty} (first : pair.Known left)
    (second : pair.Known right) :
    Twin pair pair.Known (Typing.requireAt place (binaryType one env operator left right))
      (Typing.requireAt other (binaryType two env operator left right)) := by
  refine requireAt places ?_ fun type found => covers.binary first second (binaryType_ok.mp found)
  unfold Typing.binaryType
  rw [agrees.shape.binaryType?]

theorem signatureOf (callee : Ty) :
    Twin pair (fun signature => pair.Known signature.returns) (Typing.requireAt place (signatureOf one callee))
      (Typing.requireAt other (signatureOf two callee)) := by
  refine requireAt places ?_ fun signature found => covers.returns (signatureOf_ok.mp found)
  rw [agrees.shape.signatureOf]

variable {arguments given : List Argument} (lists : List.Forall₂ (Argument.Mirrors pair.At) arguments given)
include lists

theorem containerOpType (op : ContainerOp) (callee : Ty) (known : ∀ argument ∈ arguments, pair.Known argument.type) :
    Twin pair pair.Known (Typing.require (containerOpType one op callee place arguments))
      (Typing.require (containerOpType two op callee other given)) := by
  rw [← agrees.shape.containerOpType]
  refine require (containerOpType_mirrors one lists places op callee) fun type found => ?_
  obtain ⟨container, member, types, meant, rfl⟩ := containerOpType_ok found
  exact covers.operation (known container member) meant

theorem indexType {container : Ty} (known : pair.Known container) :
    Twin pair pair.Known (Typing.require (indexType one container place arguments))
      (Typing.require (indexType two container other given)) := by
  have same : Typing.indexType two = Typing.indexType one := by
    unfold Typing.indexType
    rw [agrees.shape.elementType]
  rw [same]
  refine require (indexType_mirrors one lists places container) fun type found => ?_
  rcases arguments with _ | ⟨key, _ | ⟨second, rest⟩⟩
  · cases found
  · change (Typing.elementType one container key.type).mapError _ = .ok type at found
    cases element : Typing.elementType one container key.type with
    | error cause =>
      rw [element] at found
      cases found
    | ok inner =>
      rw [element] at found
      cases found
      exact covers.element known (elementType_typed element).elementType?
  · cases found

end Found

theorem requireArity {arguments given : List Expr}
    (lists : List.Forall₂ (Expr.Mirrors pair.At pair.Ids) arguments given) (expected : Nat)
    (places : pair.At place other) :
    Twin pair (fun _ => True) (Typing.require (requireArity expected arguments place))
      (Typing.require (requireArity expected given other)) :=
  require (requireArity_mirrors lists expected places) fun _ _ => trivial

mutual

theorem checkExpr {expr copy : Expr} (mirrors : expr.Mirrors pair.At pair.Ids copy) (stated : pair.Stated [expr]) :
    Twin pair pair.Known (checkExpr expr) (checkExpr copy) := by
  obtain ⟨own, parts⟩ := Expr.states_single.mp stated
  cases mirrors with
  | group nodes inside => exact (checkExpr inside parts).bind fun _ known => record nodes known
  -- The type of a literal is asked of no catalog. That it is covered is said by the states.
  | literal nodes =>
    intro s t states
    exact record nodes ((pair.covers states).literal _) s t states
  | name nodes => exact (variableType nodes.span.start _).bind fun _ known => record nodes known
  | member nodes objects =>
    exact (checkExpr objects parts).bind fun _ known => catalog_bind fun _ _ agrees covers =>
      (memberType agrees covers nodes.span.start objects known _).bind fun _ found => record nodes found
  | setName nodes values =>
    refine (requireVariable nodes.span.start _).bind fun _ _ => ?_
    refine (variableType nodes.span.start _).bind fun target known => ?_
    exact (checkExpr values parts).bind fun given _ =>
      (requireAssignment _ target given nodes.span.start values.start).bind fun _ _ => record nodes known
  | @setMember _ _ object _ _ _ value _ nodes objects values =>
    obtain ⟨first, last⟩ : pair.Stated [object] ∧ pair.Stated [value] := Pairing.Stated.append parts
    refine (requireObject objects _ nodes.span.start).bind fun _ _ => ?_
    refine (checkExpr objects first).bind fun _ known => catalog_bind fun _ _ agrees covers => ?_
    refine (memberType agrees covers nodes.span.start objects known _).bind fun target found => ?_
    exact (checkExpr values last).bind fun given _ =>
      (requireAssignment _ target given nodes.span.start values.start).bind fun _ _ => record nodes found
  | @setIndex _ _ object _ key _ _ value _ nodes objects keys values =>
    obtain ⟨first, rest⟩ : pair.Stated [object] ∧ pair.Stated [key, value] := Pairing.Stated.append parts
    obtain ⟨second, last⟩ : pair.Stated [key] ∧ pair.Stated [value] := Pairing.Stated.append rest
    refine (checkExpr objects first).bind fun _ known => (checkExpr keys second).bind fun index _ => ?_
    refine catalog_bind fun _ _ agrees covers =>
      (elementType agrees covers keys.start known index).bind fun target found => ?_
    exact (checkExpr values last).bind fun given _ =>
      (requireAssignment _ target given nodes.span.start values.start).bind fun _ _ => record nodes found
  | unary nodes operands =>
    refine (checkExpr operands parts).bind fun given known => ?_
    refine bind (requireAt nodes.span.start rfl fun type found => ?_) fun _ found => record nodes found
    obtain ⟨same, rfl⟩ := unaryType_ok.mp found
    exact same ▸ known
  | @binary _ _ _ left right _ _ nodes lefts rights =>
    obtain ⟨first, last⟩ : pair.Stated [left] ∧ pair.Stated [right] := Pairing.Stated.append parts
    refine (checkExpr lefts first).bind fun _ before => (checkExpr rights last).bind fun _ behind => ?_
    exact catalog_bind fun _ _ agrees covers => vectors_bind fun env =>
      (binaryType agrees covers nodes.span.start env _ before behind).bind fun _ found => record nodes found
  -- Whether a callee is an operation is told by its names, which both copies have.
  | @call _ _ callee base arguments given nodes callees lists =>
    obtain ⟨first, last⟩ : pair.Stated [callee] ∧ pair.Stated arguments := Pairing.Stated.append parts
    refine (checkExpr callees first).bind fun calleeType _ => catalog_bind fun one two agrees covers => ?_
    rw [agrees.shape.containerOp?, containerOp?_mirrors callees]
    cases Typing.containerOp? two base with
    | some op =>
      refine (requireArity lists _ nodes.span.start).bind fun _ _ => (checkAll lists last).bind fun types each => ?_
      exact catalog_bind fun _ _ agrees covers =>
        (containerOpType agrees covers nodes.span.start (checked_mirrors lists types) op calleeType
          fun argument member => each _ (checked_type member)).bind fun _ found => record nodes found
    | none =>
      refine catalog_bind fun _ _ agrees covers =>
        (signatureOf agrees covers nodes.span.start calleeType).bind fun signature found => ?_
      exact (requireArity lists _ nodes.span.start).bind fun _ _ =>
        (checkArguments 0 signature.parameters lists last).bind fun _ _ => record nodes found
  | @index _ _ callee _ arguments _ nodes callees lists =>
    obtain ⟨first, last⟩ : pair.Stated [callee] ∧ pair.Stated arguments := Pairing.Stated.append parts
    refine (checkExpr callees first).bind fun _ known => (requireArity lists _ nodes.span.start).bind fun _ _ => ?_
    exact (checkAll lists last).bind fun types _ => catalog_bind fun _ _ agrees covers =>
      (indexType agrees covers nodes.span.start (checked_mirrors lists types) known).bind fun _ found =>
        record nodes found
  | @cast _ _ _ _ target nodes operands =>
    exact (checkExpr operands parts).bind fun _ _ =>
      (requireKnown nodes.span.start (own target List.mem_cons_self)).bind fun _ known => record nodes known
  | @construct _ _ target _ _ nodes lists =>
    refine (requireKnown nodes.span.start (own target List.mem_cons_self)).bind fun _ known => ?_
    refine (checkAll lists parts).bind fun types _ => catalog_bind fun one two agrees _ => ?_
    rw [← agrees.shape.requireConstruction]
    refine bind (require (requireConstruction_mirrors one (checked_mirrors lists types) nodes.span.start _)
      fun _ _ => trivial) fun _ (_ : True) => record nodes known

theorem checkAll {list others : List Expr} (lists : List.Forall₂ (Expr.Mirrors pair.At pair.Ids) list others)
    (stated : pair.Stated list) :
    Twin pair (fun types => ∀ type ∈ types, pair.Known type) (checkAll list) (checkAll others) := by
  cases lists with
  | nil => exact pure (List.forall_mem_nil _)
  | @cons first _ rest _ firsts lasts =>
    obtain ⟨here, later⟩ : pair.Stated [first] ∧ pair.Stated rest := Pairing.Stated.append stated
    exact (checkExpr firsts here).bind fun _ known => (checkAll lasts later).bind fun _ each =>
      pure (List.forall_mem_cons.mpr ⟨known, each⟩)

theorem checkArguments (index : Nat) (parameters : List Ty) {list others : List Expr}
    (lists : List.Forall₂ (Expr.Mirrors pair.At pair.Ids) list others) (stated : pair.Stated list) :
    Twin pair (fun _ => True) (checkArguments index parameters list) (checkArguments index parameters others) := by
  cases lists with
  | nil => cases parameters <;> exact pure trivial
  | @cons first second rest _ firsts lasts =>
    cases parameters with
    | nil => exact pure trivial
    | cons parameter parameters =>
      obtain ⟨here, later⟩ : pair.Stated [first] ∧ pair.Stated rest := Pairing.Stated.append stated
      refine (checkExpr firsts here).bind fun type _ => ?_
      have given : Argument.Mirrors pair.At ⟨first.start, type⟩ ⟨second.start, type⟩ := ⟨firsts.start, rfl⟩
      exact (requireParameter index parameter given).bind fun _ _ => checkArguments (index + 1) parameters lasts later

end

end Twin

end Typing

end TypedScript
