import TypedScript.Proofs.Typing.Passes
import TypedScript.Proofs.Typing.Sites

namespace TypedScript

-- Where a name is bound it is new in its scope, and in a function it is no name of the top level.
def Site.Fits (catalog : Catalog) (site : Site) : Prop :=
  ∀ name ∈ site.item.declared,
    match site.setting with
    | .top => True
    | .struct => site.scopes.inner.contains name = false
    | .function => site.scopes.inner.contains name = false ∧ catalog.owner? name = none

namespace Typing

variable {env : Vectors} {s t m : State} {value : Unit}

theorem Checks.scopes {query : Query} (checks : Checks env query s t) : t.scopes = s.scopes := by
  induction checks with
  | group _ ih | unary _ ih | cast _ _ ih | member _ _ ih | setName _ _ _ ih | construct _ _ _ ih => exact ih
  | literal | name _ | none | noArgument => rfl
  | setMember _ _ _ _ first last | binary _ _ _ first last | operation _ _ _ _ _ first last
  | call _ _ _ _ first last | index _ _ _ first last | cons _ _ first last | argument _ _ _ first last =>
    exact last.trans first
  | setIndex _ _ _ _ _ first second last => exact last.trans (second.trans first)

theorem Initializes.scopes {type : Ty} {given : Option Expr} (initializes : Initializes env type given s t) :
    t.scopes = s.scopes := by
  cases initializes with
  | none => rfl
  | some inner _ => exact inner.scopes

-- The checks of the items of a program one after the other, as in `Passes`, where the scopes around each item
-- are those of its site.
inductive Walks (env : Vectors) : List Site → State → State → Prop where
  | done {s : State} : Walks env [] s s
  | push {s t : State} {sites : List Site} (rest : Walks env sites s.pushed t) : Walks env sites s t
  | pop {s t : State} {sites : List Site} (rest : Walks env sites s.popped t) : Walks env sites s t
  | frame {s t : State} {sites : List Site} (function : Option Frame)
      (rest : Walks env sites (s.framed function) t) : Walks env sites s t
  | declare {s m n t : State} {sites : List Site} {setting : Setting} {decl : Variable} {place : Position}
      (known : s.catalog.requireKnown place decl.type = .ok ())
      (given : Initializes env decl.type decl.initializer s m)
      (fits : Site.Fits m.catalog ⟨setting, s.scopes, .declare decl⟩)
      (bound : n = m ∨ ∃ place scopes, m.scopes.declare decl.name decl.type place = .ok scopes ∧
        n = m.rescoped scopes)
      (rest : Walks env sites n t) : Walks env (⟨setting, s.scopes, .declare decl⟩ :: sites) s t
  | parameter {s t : State} {sites : List Site} {setting : Setting} {decl : Parameter} {place : Position}
      {scopes : Scopes} (known : s.catalog.requireKnown place decl.type = .ok ())
      (fits : Site.Fits s.catalog ⟨setting, s.scopes, .parameter decl⟩)
      (bound : s.scopes.declare decl.name decl.type place = .ok scopes)
      (rest : Walks env sites (s.rescoped scopes) t) : Walks env (⟨setting, s.scopes, .parameter decl⟩ :: sites) s t
  | mention {s t : State} {sites : List Site} {setting : Setting} {type : Ty} {place : Position}
      (known : s.catalog.requireKnown place type = .ok ()) (rest : Walks env sites s t) :
      Walks env (⟨setting, s.scopes, .mention type⟩ :: sites) s t
  | condition {s m t : State} {sites : List Site} {setting : Setting} {expr : Expr}
      (test : Checks env (.expr expr .bool) s m) (rest : Walks env sites m t) :
      Walks env (⟨setting, s.scopes, .condition expr⟩ :: sites) s t
  | value {s m t : State} {sites : List Site} {setting : Setting} {expr : Expr} {type : Ty}
      (inner : Checks env (.expr expr type) s m) (rest : Walks env sites m t) :
      Walks env (⟨setting, s.scopes, .value expr⟩ :: sites) s t

namespace Walks

theorem passes {sites : List Site} (walks : Walks env sites s t) : Passes env (sites.map Site.item) s t := by
  induction walks with
  | done => exact .done
  | push _ ih => exact .push ih
  | pop _ ih => exact .pop ih
  | frame function _ ih => exact .frame function ih
  | declare known given _ bound _ ih => exact .declare known given bound ih
  | parameter known _ bound _ ih => exact .parameter known bound ih
  | mention known _ ih => exact .mention known ih
  | condition test _ ih => exact .condition test ih
  | value inner _ ih => exact .value inner ih

theorem append {left right : List Site} (first : Walks env left s m) (second : Walks env right m t) :
    Walks env (left ++ right) s t := by
  induction first with
  | done => exact second
  | push _ ih => exact .push (ih second)
  | pop _ ih => exact .pop (ih second)
  | frame function _ ih => exact .frame function (ih second)
  | declare known given fits bound _ ih => exact .declare known given fits bound (ih second)
  | parameter known fits bound _ ih => exact .parameter known fits bound (ih second)
  | mention known _ ih => exact .mention known (ih second)
  | condition test _ ih => exact .condition test (ih second)
  | value inner _ ih => exact .value inner (ih second)

theorem inside {sites : List Site} (inner : Walks env sites s.pushed m)
    (kept : m.scopes.outer = s.pushed.scopes.outer) : Walks env sites s m.popped ∧ m.popped.scopes = s.scopes := by
  have closed : Walks env (sites ++ []) s m.popped := .push (inner.append (.pop .done))
  rw [List.append_nil] at closed
  exact ⟨closed, Scopes.pop_eq kept⟩

end Walks

structure Leads (env : Vectors) (setting : Setting) (items : List Item) (s t : State) : Prop where
  walks : Walks env (s.scopes.sites setting items) s t
  scopes : t.scopes = s.scopes.pastAll items

namespace Leads

variable {setting : Setting}

theorem nil : Leads env setting [] s s := ⟨.done, rfl⟩

theorem append {left right : List Item} (first : Leads env setting left s m) (second : Leads env setting right m t) :
    Leads env setting (left ++ right) s t := by
  obtain ⟨walks, scopes⟩ := second
  rw [first.scopes] at walks scopes
  refine ⟨?_, ?_⟩
  · rw [Scopes.sites_append]
    exact first.walks.append walks
  · rw [Scopes.pastAll_append]
    exact scopes

theorem expr {expr : Expr} {type : Ty} (inner : Checks env (.expr expr type) s t) :
    Leads env setting [.value expr] s t := ⟨.value inner .done, inner.scopes⟩

theorem declare {decl : Variable} {place : Position} (known : s.catalog.requireKnown place decl.type = .ok ())
    (given : Initializes env decl.type decl.initializer s m)
    (fits : Site.Fits m.catalog ⟨setting, s.scopes, .declare decl⟩)
    (fresh : m.scopes.inner.contains decl.name = false) :
    Leads env setting [.declare decl] s (m.rescoped (m.scopes.bound decl.name decl.type)) := by
  have bound : m.scopes.declare decl.name decl.type decl.span.start = .ok (m.scopes.bound decl.name decl.type) :=
    Scopes.declare_ok.mpr ⟨fresh, rfl⟩
  refine ⟨.declare known given fits (.inr ⟨_, _, bound, rfl⟩) .done, ?_⟩
  exact congrArg (Scopes.bound · decl.name decl.type) given.scopes

end Leads

theorem checkCondition_leads {condition : Expr} (ran : checkCondition condition env s = .ok value t) :
    Leads env .function [.condition condition] s t := by
  simp only [checkCondition, bind_ok] at ran
  obtain ⟨type, m, test, ran⟩ := ran
  split at ran
  · rename_i same
    subst same
    obtain ⟨-, rfl⟩ := pure_ok.mp ran
    have checks := checkExpr_checks condition test
    exact ⟨.condition checks .done, checks.scopes⟩
  · exact (fail_ok.mp ran).elim

theorem checkInitializer_initializes {type : Ty} {given : Option Expr}
    (ran : checkInitializer type given env s = .ok value t) : Initializes env type given s t := by
  cases given with
  | none =>
    obtain ⟨-, rfl⟩ := pure_ok.mp ran
    exact .none
  | some expr =>
    simp only [checkInitializer, bind_ok, requireAssignable_ok] at ran
    obtain ⟨type, m, inner, fits, rfl⟩ := ran
    exact .some (checkExpr_checks expr inner) fits

theorem checkVariable_ok {decl : Variable} (ran : checkVariable decl env s = .ok value t) :
    s.catalog.requireKnown decl.span.start decl.type = .ok () ∧
      Initializes env decl.type decl.initializer s t := by
  simp only [checkVariable, bind_ok, requireKnown_ok] at ran
  obtain ⟨_, _, ⟨known, rfl⟩, given⟩ := ran
  exact ⟨known, checkInitializer_initializes given⟩

theorem checkLocal_leads {decl : Variable} (ran : checkLocal decl env s = .ok value t) :
    Leads env .function [.declare decl] s t := by
  simp only [checkLocal, bind_ok] at ran
  obtain ⟨_, m, checked, bind⟩ := ran
  obtain ⟨known, given⟩ := checkVariable_ok checked
  obtain ⟨free, fresh, rfl⟩ := bindLocal_bound bind
  refine .declare known given ?_ fresh
  intro name member
  cases List.mem_singleton.mp member
  exact ⟨given.scopes ▸ fresh, free⟩

theorem checkOpenings_leads {openings : List Opening} (ran : checkOpenings openings env s = .ok value t) :
    Leads env .function (openings.map Opening.item) s t := by
  induction openings generalizing s with
  | nil =>
    obtain ⟨-, rfl⟩ := pure_ok.mp ran
    exact .nil
  | cons first others ih =>
    simp only [checkOpenings, bind_ok] at ran
    obtain ⟨_, m, head, rest⟩ := ran
    cases first with
    | declare decl => exact (checkLocal_leads head).append (ih rest)
    | evaluate expr =>
      simp only [checkOpening, bind_ok, pure_ok] at head
      obtain ⟨type, _, inner, -, rfl⟩ := head
      exact (Leads.expr (checkExpr_checks expr inner)).append (ih rest)

theorem checkOptionalCondition_leads {condition : Option Expr}
    (ran : checkOptionalCondition condition env s = .ok value t) :
    Leads env .function (condition.toList.map .condition) s t := by
  cases condition with
  | none =>
    obtain ⟨-, rfl⟩ := pure_ok.mp ran
    exact .nil
  | some expr => exact checkCondition_leads ran

theorem checkAll_leads {exprs : List Expr} {types : List Ty} (ran : checkAll exprs env s = .ok types t) :
    Leads env .function (exprs.map .value) s t := by
  induction exprs generalizing s types with
  | nil =>
    obtain ⟨-, rfl⟩ := pure_ok.mp ran
    exact .nil
  | cons first others ih =>
    simp only [checkAll, bind_ok, pure_ok] at ran
    obtain ⟨type, m, inner, _, n, rest, rfl, rfl⟩ := ran
    exact (Leads.expr (checkExpr_checks first inner)).append (ih rest)

theorem checkReturn_leads {place : Position} {given : Option Expr}
    (ran : checkReturn place given env s = .ok value t) : Leads env .function (given.toList.map .value) s t := by
  cases given with
  | none =>
    obtain ⟨_, -, -, rfl⟩ := checkReturn_bare ran
    exact .nil
  | some expr =>
    obtain ⟨_, type, m, -, -, inner, -, rfl⟩ := checkReturn_value ran
    have led : Leads env .function [.value expr] s m := .expr (checkExpr_checks expr inner)
    obtain ⟨walks, scopes⟩ := led
    refine ⟨?_, scopes⟩
    rw [← List.append_nil (Scopes.sites _ _ _)]
    exact walks.append (.frame _ .done)

def Follows (env : Vectors) (stmt : Stmt) (s t : State) : Prop :=
  Walks env (stmt.sites s.scopes) s t ∧ t.scopes = s.scopes.pastStmt stmt

theorem ownScope_follows {stmt : Stmt}
    (inner : ∀ s t value, checkStmt stmt env s = .ok value t → Follows env stmt s t)
    (ran : ownScope stmt (checkStmt stmt) env s = .ok value t) :
    Walks env (stmt.sites (s.scopes.own stmt)) s t ∧ t.scopes = s.scopes := by
  unfold ownScope at ran
  unfold Scopes.own
  split at ran
  · rename_i block
    rw [if_pos block]
    obtain ⟨walks, scopes⟩ := inner _ _ _ ran
    refine ⟨walks, scopes.trans ?_⟩
    cases stmt <;> first | rfl | cases block
  · rename_i other
    rw [if_neg other]
    obtain ⟨m, within, rfl⟩ := inScope_ok.mp ran
    obtain ⟨walks, scopes⟩ := inner _ _ _ within
    exact walks.inside (by rw [scopes, Scopes.pastStmt_outer])

mutual

theorem checkStmt_follows (stmt : Stmt) {s t : State} {value : Unit} (bare : stmt.Bare)
    (ran : checkStmt stmt env s = .ok value t) : Follows env stmt s t := by
  cases stmt with
  | block span body =>
    simp only [checkStmt, inScope_ok] at ran
    obtain ⟨m, inner, rfl⟩ := ran
    obtain ⟨walks, kept⟩ := checkStmts_walks body bare inner
    exact walks.inside kept
  | declare decl =>
    have led := checkLocal_leads ran
    exact ⟨led.walks, led.scopes⟩
  | evaluate span expr =>
    simp only [checkStmt, bind_ok, pure_ok] at ran
    obtain ⟨type, _, inner, -, rfl⟩ := ran
    have led : Leads env .function [.value expr] s _ := .expr (checkExpr_checks expr inner)
    exact ⟨led.walks, led.scopes⟩
  | jump span kind given =>
    cases kind with
    | returning =>
      obtain ⟨walks, scopes⟩ := checkReturn_leads ran
      exact ⟨walks, scopes.trans (s.scopes.pastAll_plain (by simp [Item.declared]))⟩
    | breaking | continuing =>
      have absent : given = none := bare.resolve_left nofun
      subst absent
      obtain ⟨-, rfl⟩ := pure_ok.mp ran
      exact ⟨.done, rfl⟩
  | ifThen span condition body | whileLoop span condition body =>
    simp only [checkStmt, bind_ok] at ran
    obtain ⟨_, m, test, ran⟩ := ran
    obtain ⟨first, same⟩ := checkCondition_leads test
    obtain ⟨inner, kept⟩ := ownScope_follows (fun _ _ _ ran => checkStmt_follows body bare ran) ran
    rw [same] at inner kept
    exact ⟨first.append inner, kept⟩
  | ifElse span condition body other =>
    simp only [checkStmt, bind_ok] at ran
    obtain ⟨_, m, test, _, n, second, third⟩ := ran
    obtain ⟨first, same⟩ := checkCondition_leads test
    obtain ⟨inner, kept⟩ := ownScope_follows (fun _ _ _ ran => checkStmt_follows body bare.1 ran) second
    obtain ⟨last, left⟩ := ownScope_follows (fun _ _ _ ran => checkStmt_follows other bare.2 ran) third
    rw [kept, same] at last left
    rw [same] at inner
    exact ⟨first.append (inner.append last), left⟩
  | forLoop span openings condition iterators body =>
    simp only [checkStmt, inScope_ok, bind_ok] at ran
    obtain ⟨_, ⟨_, m, first, _, n, second, _, l, third, ran⟩, rfl⟩ := ran
    -- The head of the loop binds in the scope of the loop; the body has one of its own inside it.
    obtain ⟨head, same⟩ :=
      ((checkOpenings_leads first).append (checkOptionalCondition_leads second)).append (checkAll_leads third)
    obtain ⟨inner, kept⟩ := ownScope_follows (fun _ _ _ ran => checkStmt_follows body bare ran) ran
    rw [same] at inner kept
    exact (head.append inner).inside (by rw [kept, Scopes.pastAll_outer])
termination_by structural stmt

theorem checkStmts_walks (stmts : List Stmt) {s t : State} {value : Unit} (bare : Stmt.BareAll stmts)
    (ran : checkStmts stmts env s = .ok value t) :
    Walks env (Stmt.sitesOf s.scopes stmts) s t ∧ t.scopes.outer = s.scopes.outer := by
  cases stmts with
  | nil =>
    obtain ⟨-, rfl⟩ := pure_ok.mp ran
    exact ⟨.done, rfl⟩
  | cons first others =>
    simp only [checkStmts, bind_ok] at ran
    obtain ⟨_, m, head, rest⟩ := ran
    obtain ⟨here, scopes⟩ := checkStmt_follows first bare.1 head
    obtain ⟨later, kept⟩ := checkStmts_walks others bare.2 rest
    rw [scopes] at later kept
    exact ⟨here.append later, kept.trans (s.scopes.pastStmt_outer first)⟩

end

theorem checkParameters_leads {parameters : List Parameter}
    (ran : checkParameters parameters env s = .ok value t) : Leads env .function (parameters.map .parameter) s t := by
  induction parameters generalizing s with
  | nil =>
    obtain ⟨-, rfl⟩ := pure_ok.mp ran
    exact .nil
  | cons first others ih =>
    simp only [checkParameters, bind_ok, requireKnown_ok] at ran
    obtain ⟨_, _, ⟨known, rfl⟩, _, m, bind, rest⟩ := ran
    obtain ⟨free, fresh, rfl⟩ := bindLocal_bound bind
    have here : Leads env .function [.parameter first] s (s.rescoped (s.scopes.bound first.name first.type)) := by
      refine ⟨.parameter known ?_ (Scopes.declare_ok.mpr ⟨fresh, rfl⟩) .done, rfl⟩
      intro name member
      cases List.mem_singleton.mp member
      exact ⟨fresh, free⟩
    exact here.append (ih rest)

theorem checkFields_leads {fields : List Variable} (ran : checkFields fields env s = .ok value t) :
    Leads env .struct (fields.map .declare) s t := by
  induction fields generalizing s with
  | nil =>
    obtain ⟨-, rfl⟩ := pure_ok.mp ran
    exact .nil
  | cons first others ih =>
    simp only [checkFields, bind_ok] at ran
    obtain ⟨_, m, checked, _, n, bind, rest⟩ := ran
    obtain ⟨known, given⟩ := checkVariable_ok checked
    obtain ⟨fresh, rfl⟩ := bindMember_bound bind
    have here : Leads env .struct [.declare first] s (m.rescoped (m.scopes.bound first.name first.type)) := by
      refine .declare known given ?_ fresh
      intro name member
      cases List.mem_singleton.mp member
      exact given.scopes ▸ fresh
    exact here.append (ih rest)

theorem checkMembers_ok {type : Ty} {members : List Member}
    (ran : checkMembers type members env s = .ok value t) : ∃ inner, t = s.rescoped ⟨inner, s.scopes.outer⟩ := by
  induction members generalizing s with
  | nil =>
    obtain ⟨-, rfl⟩ := pure_ok.mp ran
    exact ⟨s.scopes.inner, rfl⟩
  | cons first others ih =>
    simp only [checkMembers, bind_ok] at ran
    obtain ⟨_, m, bind, rest⟩ := ran
    obtain ⟨scopes, bound, rfl⟩ := bindMember_ok.mp bind
    obtain ⟨inner, rfl⟩ := ih rest
    have outer : scopes.outer = s.scopes.outer := by
      unfold Scopes.declare at bound
      cases declared : s.scopes.inner.declare first.name type first.span.start with
      | ok next =>
        rw [declared] at bound
        cases bound
        rfl
      | error error =>
        rw [declared] at bound
        cases bound
    exact ⟨inner, by rw [← outer]; rfl⟩

theorem requireAllKnown_leads {place : Position} {types : List Ty}
    (ran : requireAllKnown place types env s = .ok value t) : Leads env .top (types.map .mention) s t := by
  induction types generalizing s with
  | nil =>
    obtain ⟨-, rfl⟩ := pure_ok.mp ran
    exact .nil
  | cons first others ih =>
    simp only [requireAllKnown, bind_ok, requireKnown_ok] at ran
    obtain ⟨_, _, ⟨known, rfl⟩, rest⟩ := ran
    have here : Leads env .top [.mention first] s s := ⟨.mention known .done, rfl⟩
    exact here.append (ih rest)

def Settles (env : Vectors) (sites : Scopes → List Site) (s t : State) : Prop :=
  Walks env (sites s.scopes) s t ∧ t.scopes = s.scopes

theorem Settles.append {left right : Scopes → List Site} (first : Settles env left s m)
    (second : Settles env right m t) : Settles env (fun scopes => left scopes ++ right scopes) s t := by
  obtain ⟨walks, scopes⟩ := second
  rw [first.2] at walks scopes
  exact ⟨first.1.append walks, scopes⟩

theorem checkFunction_settles {decl : Function} (bare : Stmt.BareAll decl.body)
    (ran : checkFunction decl env s = .ok value t) : Settles env (Declaration.function decl).sites s t := by
  simp only [checkFunction, bind_ok, requireKnown_ok] at ran
  obtain ⟨_, _, ⟨known, rfl⟩, returned, m, called, ran⟩ := ran
  obtain ⟨n, inner, -, rfl⟩ := inFunction_ok called
  have same : n.popped.framed none = t := by
    split at ran
    · exact (pure_ok.mp ran).2
    · exact (fail_ok.mp ran).elim
  subst same
  obtain ⟨_, l, parameters, body⟩ := bind_ok.mp inner
  obtain ⟨first, scopes⟩ := checkParameters_leads parameters
  obtain ⟨second, kept⟩ := checkStmts_walks decl.body bare body
  rw [scopes] at second kept
  obtain ⟨walks, after⟩ := (first.append second).inside (by rw [kept, Scopes.pastAll_outer])
  refine ⟨?_, after⟩
  have closed := (Walks.frame _ walks).append (.frame none .done)
  rw [List.append_nil] at closed
  show Walks env (s.scopes.sites .top [.mention decl.returns] ++ _ ++ _) s _
  rw [List.append_assoc]
  exact .mention known closed

theorem checkDeclaration_settles {decl : Declaration} (bare : decl.Bare)
    (ran : checkDeclaration decl env s = .ok value t) : Settles env decl.sites s t := by
  cases decl with
  | global decl =>
    obtain ⟨known, given⟩ := checkVariable_ok ran
    exact ⟨.declare known given (fun _ _ => trivial) (.inl rfl) .done, given.scopes⟩
  | function decl => exact checkFunction_settles bare ran
  | struct decl =>
    obtain ⟨m, inner, rfl⟩ := inScope_ok.mp ran
    obtain ⟨walks, scopes⟩ := checkFields_leads inner
    exact walks.inside (by rw [scopes, Scopes.pastAll_outer])
  | enumeration decl =>
    obtain ⟨m, inner, rfl⟩ := inScope_ok.mp ran
    obtain ⟨_, rfl⟩ := checkMembers_ok inner
    exact ⟨.done, rfl⟩
  | delegate decl =>
    obtain ⟨walks, scopes⟩ := requireAllKnown_leads ran
    exact ⟨walks, scopes.trans (s.scopes.pastAll_plain (by simp [Item.declared]))⟩

theorem checkDeclarations_settles {decls : List Declaration} (bare : ∀ decl ∈ decls, decl.Bare)
    (ran : checkDeclarations decls env s = .ok value t) :
    Settles env (fun scopes => decls.flatMap (·.sites scopes)) s t := by
  induction decls generalizing s with
  | nil =>
    obtain ⟨-, rfl⟩ := pure_ok.mp ran
    exact ⟨.done, rfl⟩
  | cons first others ih =>
    simp only [checkDeclarations, bind_ok] at ran
    obtain ⟨_, m, head, rest⟩ := ran
    have here := checkDeclaration_settles (bare first (by simp)) head
    exact here.append (ih (fun decl later => bare decl (by simp [later])) rest)

theorem checkFiles_settles {files : List File} (bare : ∀ file ∈ files, file.Bare)
    (ran : checkFiles files env s = .ok value t) :
    Settles env (fun scopes => (files.flatMap File.declarations).flatMap (·.sites scopes)) s t := by
  induction files generalizing s with
  | nil =>
    obtain ⟨-, rfl⟩ := pure_ok.mp ran
    exact ⟨.done, rfl⟩
  | cons first others ih =>
    simp only [checkFiles, bind_ok] at ran
    obtain ⟨_, m, head, rest⟩ := ran
    have here := checkDeclarations_settles (bare first (by simp)) head
    have whole := here.append (ih (fun file later => bare file (by simp [later])) rest)
    simpa only [List.flatMap_cons, List.flatMap_append] using whole

theorem checkDeclarations_passes {decls : List Declaration} (bare : ∀ decl ∈ decls, decl.Bare)
    (ran : checkDeclarations decls env s = .ok value t) : Passes env (decls.flatMap Declaration.items) s t := by
  have passes := (checkDeclarations_settles bare ran).1.passes
  simpa only [List.map_flatMap, Declaration.sites_items] using passes

theorem checkFiles_passes {files : List File} (bare : ∀ file ∈ files, file.Bare)
    (ran : checkFiles files env s = .ok value t) : Passes env (files.flatMap File.items) s t := by
  have passes := (checkFiles_settles bare ran).1.passes
  simp only [List.map_flatMap, Declaration.sites_items, List.flatMap_assoc] at passes
  exact passes

end Typing

end TypedScript
