import TypedScript.Proofs.Outcome
import TypedScript.Typing.Program

namespace TypedScript.Typing

namespace State

def recorded (s : State) (node : Node) (type : Ty) : State :=
  { s with catalog := s.catalog.addType type, types := s.types.insertNew node.id type }

def pushed (s : State) : State := { s with scopes := s.scopes.push }

def popped (s : State) : State := { s with scopes := s.scopes.pop }

def framed (s : State) (function : Option Frame) : State := { s with function }

def rescoped (s : State) (scopes : Scopes) : State := { s with scopes }

def marked (s : State) : State := s.framed (s.function.map ({ · with returned := true }))

end State

theorem Scope.get?_root (catalog : Catalog) (name : String) :
    (root catalog).get? name = (((catalog.enums.get? name).map fun _ => Ty.named name).or
      (catalog.functions.get? name)).or (catalog.globals.get? name) := by
  have named : ∀ entries : List (String × List (String × Int)),
      (entries.map fun entry => (entry.1, Ty.named entry.1)).lookup name =
        (entries.lookup name).map fun _ => Ty.named name := by
    intro entries
    induction entries with
    | nil => rfl
    | cons first others ih =>
      obtain ⟨key, members⟩ := first
      by_cases same : name = key
      · simp [same]
      · have differs : (name == key) = false := beq_eq_false_iff_ne.mpr same
        simp [List.lookup_cons, differs, ih]
  unfold root Table.get? Table.names
  rw [List.map_map, List.lookup_append, List.lookup_append]
  exact congrArg (fun found => Option.or (Option.or found _) _) (named _)

namespace Scopes

variable {scopes : Scopes} {name : String} {type : Ty}

def bound (scopes : Scopes) (name : String) (type : Ty) : Scopes :=
  { scopes with inner := scopes.inner.insertNew name type }

theorem declare_eq (scopes : Scopes) (name : String) (type : Ty) (place : Position) :
    scopes.declare name type place =
      if scopes.inner.contains name then .error ⟨.alreadyDeclared name, place⟩ else .ok (scopes.bound name type) := by
  unfold declare Scope.declare
  split <;> rfl

theorem declare_ok {place : Position} {next : Scopes} :
    scopes.declare name type place = .ok next ↔
      scopes.inner.contains name = false ∧ next = scopes.bound name type := by
  rw [declare_eq]
  cases scopes.inner.contains name with
  | true => simp
  | false => simp [eq_comm]

theorem get?_bound (fresh : scopes.inner.contains name = false) (other : String) :
    (scopes.bound name type).get? other = if other = name then some type else scopes.get? other := by
  unfold get? bound
  rw [List.findSome?_cons, List.findSome?_cons, Table.get?_insertNew]
  by_cases same : other = name
  · have absent : scopes.inner.get? name = none := by simpa [Table.contains] using fresh
    simp [same, absent]
  · simp [same]

theorem contains_bound (other : String) :
    (scopes.bound name type).inner.contains other = (scopes.inner.contains other || decide (other = name)) := by
  unfold bound Table.contains
  rw [Table.get?_insertNew]
  by_cases same : other = name <;> simp [same]

end Scopes

variable {α β : Type} {env : Vectors} {s t : State}

-- Checks that never fail are run on the spot. What can fail is left to `bind_ok`.
theorem catalog_bind (rest : Catalog → Check β) : (catalog >>= rest) env s = rest s.catalog env s := rfl
theorem vectors_bind (rest : Vectors → Check β) : (vectors >>= rest) env s = rest env env s := rfl

theorem record_ok {node : Node} {type found : Ty} :
    record node type env s = .ok found t ↔ type = found ∧ s.recorded node type = t := by
  show EStateM.Result.ok type (s.recorded node type) = _ ↔ _
  simp

theorem fail_ok {cause : Cause} {place : Position} {value : α} :
    (fail cause place : Check α) env s = .ok value t ↔ False := by
  simp [fail]

theorem require_ok {outcome : Except Error α} {value : α} :
    require outcome env s = .ok value t ↔ outcome = .ok value ∧ s = t := by
  cases outcome with
  | ok found => simp [require]
  | error error => simp [require]

theorem requireAt_ok {place : Position} {outcome : Except Cause α} {value : α} :
    requireAt place outcome env s = .ok value t ↔ outcome = .ok value ∧ s = t := by
  cases outcome with
  | ok found => simp [requireAt]
  | error cause => simp [requireAt, fail_ok]

theorem variableType_ok {name : String} {place : Position} {type : Ty} :
    variableType name place env s = .ok type t ↔ s.scopes.get? name = some type ∧ s = t := by
  have run : ∀ rest : Option Ty → Check Ty, (bound? name >>= rest) env s = rest (s.scopes.get? name) env s :=
    fun _ => rfl
  unfold variableType
  rw [run]
  cases s.scopes.get? name with
  | some found => simp [pure_ok]
  | none => simp [fail_ok]

theorem requireKnown_ok {type : Ty} {place : Position} {value : Unit} :
    requireKnown type place env s = .ok value t ↔ s.catalog.requireKnown place type = .ok () ∧ s = t := by
  unfold requireKnown
  rw [catalog_bind, require_ok]

theorem requireAssignable_ok {target given : Ty} {place : Position} {value : Unit} :
    requireAssignable target given place env s = .ok value t ↔
      s.catalog.accepts target given = true ∧ s = t := by
  unfold requireAssignable requireAccepts
  rw [catalog_bind, requireAt_ok]
  split <;> simp_all

def Assigns (catalog : Catalog) (operator : AssignOp) (target value : Ty) : Prop :=
  if operator = .set then catalog.accepts target value = true else updates operator target value = true

theorem requireAssignment_ok {operator : AssignOp} {target given : Ty} {place valuePlace : Position}
    {value : Unit} :
    requireAssignment operator target given place valuePlace env s = .ok value t ↔
      Assigns s.catalog operator target given ∧ s = t := by
  unfold requireAssignment Assigns
  split
  · exact requireAssignable_ok
  · split
    · simp_all [pure_ok]
    · simp_all [fail_ok]

theorem requireVariable_ok {name : String} {place : Position} {value : Unit}
    (ran : requireVariable name place env s = .ok value t) : s = t := by
  simp only [requireVariable, catalog_bind] at ran
  split at ran
  · exact (fail_ok.mp ran).elim
  · exact (pure_ok.mp ran).2

theorem requireObject_ok {object : Expr} {name : String} {place : Position} {value : Unit} :
    requireObject object name place env s = .ok value t ↔ namesEnum s.catalog object = false ∧ s = t := by
  simp only [requireObject, catalog_bind]
  split
  · simp_all [fail_ok]
  · simp_all [pure_ok]

theorem requireParameter_ok {index : Nat} {parameter : Ty} {argument : Argument} {value : Unit} :
    requireParameter index parameter argument env s = .ok value t ↔
      s.catalog.accepts parameter argument.type = true ∧ s = t := by
  simp only [requireParameter, catalog_bind]
  split
  · simp_all [pure_ok]
  · simp_all [require_ok]

theorem requireArity_ok {expected : Nat} {arguments : List Expr} {place : Position} {value : Unit} :
    requireArity expected arguments place = .ok value ↔ arguments.length = expected := by
  unfold requireArity
  cases extra : arguments[expected]? with
  | some found =>
    obtain ⟨inside, -⟩ := List.getElem?_eq_some_iff.mp extra
    simp only [reduceCtorEq, false_iff]
    omega
  | none =>
    have short := List.getElem?_eq_none_iff.mp extra
    simp only
    split
    · simp only [reduceCtorEq, false_iff]
      omega
    · simp only [true_iff]
      omega

theorem inScope_ok {body : Check α} {value : α} :
    inScope body env s = .ok value t ↔ ∃ m, body env s.pushed = .ok value m ∧ t = m.popped := by
  unfold inScope State.pushed
  generalize body env { s with scopes := s.scopes.push } = outcome
  cases outcome with
  | ok found m =>
    constructor
    · intro ran
      cases ran
      exact ⟨m, rfl, rfl⟩
    · rintro ⟨_, same, rfl⟩
      cases same
      rfl
  | error error m => simp

theorem inScope_error {body : Check α} {error : Error} :
    inScope body env s = .error error t ↔ ∃ m, body env s.pushed = .error error m ∧ t = m.popped := by
  unfold inScope State.pushed
  generalize body env { s with scopes := s.scopes.push } = outcome
  cases outcome with
  | ok found m => simp
  | error fault m =>
    constructor
    · intro ran
      cases ran
      exact ⟨m, rfl, rfl⟩
    · rintro ⟨_, same, rfl⟩
      cases same
      rfl

theorem inFunction_ok {name : String} {returns : Ty} {body : Check Unit} {returned : Bool} :
    inFunction name returns body env s = .ok returned t → ∃ m,
      body env (s.framed (some ⟨name, returns, false⟩)).pushed = .ok () m ∧
      returned = m.function.elim false Frame.returned ∧ t = m.popped.framed none := by
  intro ran
  unfold inFunction at ran
  generalize inner : inScope body env { s with function := some ⟨name, returns, false⟩ } = outcome at ran
  cases outcome with
  | ok found m =>
    cases ran
    obtain ⟨n, inside, rfl⟩ := inScope_ok.mp inner
    exact ⟨n, inside, rfl, rfl⟩
  | error error m => cases ran

theorem inFunction_error {name : String} {returns : Ty} {body : Check Unit} {error : Error} :
    inFunction name returns body env s = .error error t → ∃ m,
      body env (s.framed (some ⟨name, returns, false⟩)).pushed = .error error m ∧ t = m.popped.framed none := by
  intro ran
  unfold inFunction at ran
  generalize inner : inScope body env { s with function := some ⟨name, returns, false⟩ } = outcome at ran
  cases outcome with
  | ok found m => cases ran
  | error fault m =>
    cases ran
    obtain ⟨n, inside, rfl⟩ := inScope_error.mp inner
    exact ⟨n, inside, rfl⟩

theorem currentFunction_ok {place : Position} {frame : Frame} :
    currentFunction place env s = .ok frame t ↔ s.function = some frame ∧ s = t := by
  unfold currentFunction
  cases s.function with
  | none => simp
  | some found => simp

theorem checkReturn_bare {place : Position} {value : Unit} (ran : checkReturn place none env s = .ok value t) :
    ∃ frame, s.function = some frame ∧ frame.returns = .void ∧ t = s := by
  simp only [checkReturn, bind_ok] at ran
  obtain ⟨frame, _, current, ran⟩ := ran
  obtain ⟨entered, rfl⟩ := currentFunction_ok.mp current
  by_cases void : frame.returns = .void
  · rw [if_pos void, pure_ok] at ran
    exact ⟨frame, entered, void, ran.2.symm⟩
  · rw [if_neg void, fail_ok] at ran
    exact ran.elim

theorem checkReturn_value {place : Position} {expr : Expr} {value : Unit}
    (ran : checkReturn place (some expr) env s = .ok value t) :
    ∃ frame type m, s.function = some frame ∧ frame.returns ≠ .void ∧ checkExpr expr env s = .ok type m ∧
      m.catalog.accepts frame.returns type = true ∧ t = m.marked := by
  simp only [checkReturn, bind_ok] at ran
  obtain ⟨frame, _, current, ran⟩ := ran
  obtain ⟨entered, rfl⟩ := currentFunction_ok.mp current
  by_cases void : frame.returns = .void
  · rw [if_pos void, fail_ok] at ran
    exact ran.elim
  · simp only [if_neg void, bind_ok, requireAssignable_ok] at ran
    obtain ⟨type, m, inner, _, _, ⟨fits, rfl⟩, marked⟩ := ran
    cases marked
    exact ⟨frame, type, m, entered, void, inner, fits, rfl⟩

theorem bindMember_ok {name : String} {type : Ty} {place : Position} {value : Unit} :
    bindMember name type place env s = .ok value t ↔
      ∃ scopes, s.scopes.declare name type place = .ok scopes ∧ t = s.rescoped scopes := by
  unfold bindMember
  cases s.scopes.declare name type place with
  | ok scopes =>
    show EStateM.Result.ok () (s.rescoped scopes) = _ ↔ _
    simp [eq_comm]
  | error error => simp

theorem bindMember_bound {name : String} {type : Ty} {place : Position} {value : Unit}
    (ran : bindMember name type place env s = .ok value t) :
    s.scopes.inner.contains name = false ∧ t = s.rescoped (s.scopes.bound name type) := by
  obtain ⟨scopes, declared, rfl⟩ := bindMember_ok.mp ran
  obtain ⟨fresh, rfl⟩ := Scopes.declare_ok.mp declared
  exact ⟨fresh, rfl⟩

theorem bindLocal_bound {name : String} {type : Ty} {place : Position} {value : Unit}
    (ran : bindLocal name type place env s = .ok value t) :
    s.catalog.owner? name = none ∧ s.scopes.inner.contains name = false ∧
      t = s.rescoped (s.scopes.bound name type) := by
  simp only [bindLocal, catalog_bind, bind_ok, require_ok] at ran
  obtain ⟨_, _, ⟨free, rfl⟩, ran⟩ := ran
  refine ⟨?_, bindMember_bound ran⟩
  obtain ⟨_, -, free⟩ := except_bind_ok.mp free
  cases owned : s.catalog.owner? name with
  | none => rfl
  | some owner =>
    rw [owned] at free
    cases free

theorem checkDeclarations_append (first second : List Declaration) :
    checkDeclarations (first ++ second) = checkDeclarations first >>= fun _ => checkDeclarations second := by
  induction first with
  | nil => rfl
  | cons head rest ih =>
    simp only [List.cons_append, checkDeclarations, ih, bind_assoc]

theorem checkFiles_eq (files : List File) : checkFiles files = checkDeclarations (files.flatMap File.declarations) := by
  induction files with
  | nil => rfl
  | cons first others ih =>
    rw [List.flatMap_cons, checkDeclarations_append, ← ih]
    rfl

end TypedScript.Typing
