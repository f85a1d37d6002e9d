import TypedScript.Proofs.Typing.Discipline
import TypedScript.Proofs.Typing.Rules

namespace TypedScript.Typing

variable {env : Vectors} {entered : Catalog} {s t : State}

-- The states in which the body of a function is checked. A function is entered when the declarations before it have
-- passed. From there on its parameters are bound, statements and expressions are checked one after the other, and
-- scopes are opened inside its own. A scope that is left is left with the statement it belongs to.
inductive InBody (env : Vectors) (entered : Catalog) : State → Prop where
  | enter {s : State} {decls : List Declaration} (name : String) (returns : Ty)
      (before : checkDeclarations decls env (.start entered) = .ok () s) :
      InBody env entered (s.framed (some ⟨name, returns, false⟩)).pushed
  | parameter {s t : State} {name : String} {type : Ty} {place : Position} (inside : InBody env entered s)
      (bound : bindLocal name type place env s = .ok () t) : InBody env entered t
  | statement {s t : State} {stmt : Stmt} (inside : InBody env entered s)
      (passed : checkStmt stmt env s = .ok () t) : InBody env entered t
  | value {s t : State} {expr : Expr} {type : Ty} (inside : InBody env entered s)
      (passed : checkExpr expr env s = .ok type t) : InBody env entered t
  | scope {s : State} (inside : InBody env entered s) : InBody env entered s.pushed

theorem Moves.catalog {manner : Manner} (moves : Moves manner s t) : ∃ types, t.catalog = { s.catalog with types } := by
  induction moves with
  | refl => exact ⟨_, rfl⟩
  | rescope _ _ _ ih | reframe _ _ _ ih => exact ih
  | @record m node type _ ih =>
    obtain ⟨types, same⟩ := ih
    obtain ⟨later, grown⟩ := m.catalog.addType_types type
    refine ⟨later, ?_⟩
    show m.catalog.addType type = _
    rw [grown, same]

-- States in which the names of the top level mean what they mean there.
structure Rooted (entered : Catalog) (s : State) : Prop where
  catalog : ∃ types, s.catalog = { entered with types }
  owned : ∀ name owner, entered.owner? name = some owner → s.scopes.get? name = (Scope.root entered).get? name

namespace Rooted

theorem shape (rooted : Rooted entered s) : SameShape entered s.catalog := by
  obtain ⟨_, same⟩ := rooted.catalog
  exact .of_types same

theorem start (entered : Catalog) : Rooted entered (.start entered) := by
  refine ⟨⟨_, rfl⟩, fun name owner _ => ?_⟩
  show (Scopes.mk (Scope.root entered) []).get? name = _
  unfold Scopes.get?
  cases found : (Scope.root entered).get? name <;> simp [found]

theorem moved {manner : Manner} (rooted : Rooted entered s) (moves : Moves manner s t)
    (scopes : t.scopes = s.scopes) : Rooted entered t := by
  obtain ⟨⟨types, same⟩, owned⟩ := rooted
  obtain ⟨later, grown⟩ := moves.catalog
  refine ⟨⟨later, ?_⟩, ?_⟩
  · rw [grown, same]
  · rw [scopes]
    exact owned

theorem bound (rooted : Rooted entered s) {name : String} {type : Ty} {place : Position}
    (ran : bindLocal name type place env s = .ok () t) : Rooted entered t := by
  obtain ⟨free, fresh, rfl⟩ := bindLocal_bound ran
  refine ⟨rooted.catalog, fun other owner owned => ?_⟩
  show (s.scopes.bound name type).get? other = _
  rw [Scopes.get?_bound fresh, if_neg, rooted.owned other owner owned]
  rintro rfl
  rw [← rooted.shape.owner?, owned] at free
  cases free

theorem still {α : Type} {check : Check α} {value : α} (rooted : Rooted entered s) (runs : Runs Manner.still check)
    (ran : check env s = .ok value t) : Rooted entered t :=
  rooted.moved (runs.passes _ _ _ _ ran) (runs.leaves.passed ran).scopes

theorem evaluated (rooted : Rooted entered s) {expr : Expr} {type : Ty}
    (ran : checkExpr expr env s = .ok type t) : Rooted entered t :=
  rooted.still (checkExpr_runs Manner.still_admits expr) ran

theorem passed (rooted : Rooted entered s) {stmt : Stmt} (ran : checkStmt stmt env s = .ok () t) :
    Rooted entered t := by
  by_cases declares : ∃ decl, stmt = .declare decl
  · obtain ⟨decl, rfl⟩ := declares
    obtain ⟨_, m, checked, bound⟩ := bind_ok.mp ran
    exact (rooted.still (checkVariable_runs Manner.still_admits decl) checked).bound bound
  · have moves := (checkStmt_runs Manner.any_enters stmt (Manner.any_binds _)).passes _ _ _ _ ran
    exact rooted.moved moves (((checkStmt_leaves stmt).passed ran).scopes fun decl same => declares ⟨decl, same⟩)

end Rooted

theorem InBody.rooted (inside : InBody env entered s) : Rooted entered s := by
  induction inside with
  | @enter s decls name returns before =>
    have moves := (checkDeclarations_runs Manner.any_enters decls fun _ _ => Manner.any_binds _).passes _ _ _ _ before
    obtain ⟨catalog, owned⟩ :=
      (Rooted.start entered).moved moves ((checkDeclarations_leaves decls).passed before).scopes
    exact ⟨catalog, owned⟩
  | parameter _ bound ih => exact ih.bound bound
  | statement _ passed ih => exact ih.passed passed
  | value _ passed ih => exact ih.evaluated passed
  | scope _ ih => exact ⟨ih.catalog, ih.owned⟩

end TypedScript.Typing
