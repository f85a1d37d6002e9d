import Mathlib.Data.List.Forall2
import Mathlib.Data.List.Nodup
import TypedScript.Proofs.Typing.Walks

namespace TypedScript

open Typing

-- Scopes as the text shows them, without a stack. A context has what is declared before a place in the scopes
-- around it, the last declaration first, so that the innermost one of a name is found first.
abbrev Context := List (String × Ty)

structure View where
  context : Context
  item : Item

def Item.bindings : Item → Context
  | declare decl => [(decl.name, decl.type)]
  | parameter decl => [(decl.name, decl.type)]
  | mention _ | condition _ | value _ => []

namespace Context

def past (context : Context) (item : Item) : Context := item.bindings ++ context

def pastAll (context : Context) (items : List Item) : Context := items.foldl past context

def views : Context → List Item → List View
  | _, [] => []
  | context, item :: items => ⟨context, item⟩ :: views (context.past item) items

def pastStmt (context : Context) : Stmt → Context
  | .declare decl => context.past (.declare decl)
  | _ => context

end Context

namespace Stmt

mutual

-- The items of a statement. What is declared in a block, in a branch or in a loop is not seen outside it.
def views (context : Context) : Stmt → List View
  | .block _ body => viewsOf context body
  | .declare decl => [⟨context, .declare decl⟩]
  | .evaluate _ expr => [⟨context, .value expr⟩]
  | .jump _ _ value => context.views (value.toList.map .value)
  | .ifThen _ condition body | .whileLoop _ condition body =>
    ⟨context, .condition condition⟩ :: views context body
  | .ifElse _ condition body other =>
    ⟨context, .condition condition⟩ :: (views context body ++ views context other)
  | .forLoop _ openings condition iterators body =>
    context.views (loopHead openings condition iterators) ++
      views (context.pastAll (loopHead openings condition iterators)) body

def viewsOf (context : Context) : List Stmt → List View
  | [] => []
  | first :: others => views context first ++ viewsOf (context.pastStmt first) others

end

def declared : Stmt → List String
  | .declare decl => [decl.name]
  | _ => []

def enclosed (stmt : Stmt) (scopes : List (List String)) : List (List String) :=
  if stmt.isBlock then scopes else stmt.declared :: scopes

mutual

def scopes : Stmt → List (List String)
  | .block _ body => body.flatMap declared :: scopesOf body
  | .declare _ | .evaluate _ _ | .jump _ _ _ => []
  | .ifThen _ _ body | .whileLoop _ _ body => body.enclosed (scopes body)
  | .ifElse _ _ body other => body.enclosed (scopes body) ++ other.enclosed (scopes other)
  | .forLoop _ openings _ _ body => (openings.map Opening.item).flatMap Item.declared :: body.enclosed (scopes body)

def scopesOf : List Stmt → List (List String)
  | [] => []
  | first :: others => scopes first ++ scopesOf others

end

end Stmt

namespace Declaration

-- Nothing outside a declaration is in the contexts inside it.
def views : Declaration → List View
  | .global decl => [⟨[], .declare decl⟩]
  | .function decl =>
    ⟨[], .mention decl.returns⟩ :: (Context.views [] (decl.parameters.map .parameter) ++
      Stmt.viewsOf (Context.pastAll [] (decl.parameters.map .parameter)) decl.body)
  | .enumeration _ => []
  | .delegate decl => Context.views [] ((decl.signature.returns :: decl.signature.parameters).map .mention)
  | .struct decl => Context.views [] (decl.fields.map .declare)

-- The parameters of a function are in one scope with the top level of its body.
def scopes : Declaration → List (List String)
  | .global _ | .delegate _ => []
  | .function decl =>
    (decl.parameters.map Parameter.name ++ decl.body.flatMap Stmt.declared) :: Stmt.scopesOf decl.body
  | .enumeration decl => [decl.members.map Member.name]
  | .struct decl => [decl.fields.map Variable.name]

def locals : Declaration → List String
  | .function decl => decl.parameters.map Parameter.name ++ (Stmt.itemsOf decl.body).flatMap Item.declared
  | _ => []

end Declaration

def Site.Fresh (site : Site) : Prop :=
  site.setting ≠ .top → ∀ name ∈ site.item.declared, site.scopes.inner.contains name = false

theorem Site.Fits.fresh {catalog : Catalog} {site : Site} (fits : site.Fits catalog) : site.Fresh := by
  intro inside name member
  have here := fits name member
  cases setting : site.setting with
  | top => exact absurd setting inside
  | struct =>
    rw [setting] at here
    exact here
  | function =>
    rw [setting] at here
    exact here.1

-- Scopes in which every name is what it is in a context, or else what it is in the root scope.
def Typing.Scopes.Shows (root : Scope) (context : Context) (scopes : Scopes) : Prop :=
  ∀ name, scopes.get? name = (context.lookup name).or (root.get? name)

structure Site.Meets (root : Scope) (view : View) (site : Site) : Prop where
  item : view.item = site.item
  shows : site.scopes.Shows root view.context

section Shows

variable {root : Scope} {context : Context} {scopes : Scopes}

namespace Typing.Scopes

theorem shows_root (root : Scope) : (Scopes.mk root []).Shows root [] := by
  intro name
  unfold Scopes.get?
  cases found : root.get? name <;> simp [found]

theorem Shows.push (shows : scopes.Shows root context) : scopes.push.Shows root context := shows

theorem Shows.own (shows : scopes.Shows root context) (stmt : Stmt) : (scopes.own stmt).Shows root context := by
  unfold Scopes.own
  split
  · exact shows
  · exact shows.push

theorem Shows.bound (shows : scopes.Shows root context) {name : String}
    (fresh : scopes.inner.contains name = false) (type : Ty) :
    (scopes.bound name type).Shows root ((name, type) :: context) := by
  intro other
  rw [get?_bound fresh, List.lookup_cons, shows other]
  by_cases same : other = name
  · simp [same]
  · have differs : (other == name) = false := beq_eq_false_iff_ne.mpr same
    simp [same, differs]

theorem Shows.past (shows : scopes.Shows root context) {item : Item}
    (fresh : ∀ name ∈ item.declared, scopes.inner.contains name = false) :
    (scopes.past item).Shows root (context.past item) := by
  cases item with
  | declare decl => exact shows.bound (fresh decl.name List.mem_cons_self) decl.type
  | parameter decl => exact shows.bound (fresh decl.name List.mem_cons_self) decl.type
  | mention _ | condition _ | value _ => exact shows

theorem Shows.sites {setting : Setting} {items : List Item} (shows : scopes.Shows root context)
    (fresh : ∀ site ∈ scopes.sites setting items, site.Fresh) (inside : setting ≠ .top) :
    List.Forall₂ (Site.Meets root) (context.views items) (scopes.sites setting items) ∧
      (scopes.pastAll items).Shows root (context.pastAll items) := by
  induction items generalizing scopes context with
  | nil => exact ⟨.nil, shows⟩
  | cons item items ih =>
    obtain ⟨here, later⟩ := List.forall_mem_cons.mp fresh
    obtain ⟨meets, after⟩ := ih (shows.past (here inside)) later
    exact ⟨.cons ⟨rfl, shows⟩ meets, after⟩

end Typing.Scopes

namespace Stmt

mutual

theorem sites_meet (stmt : Stmt) {scopes : Scopes} {context : Context} (shows : scopes.Shows root context)
    (fresh : ∀ site ∈ stmt.sites scopes, site.Fresh) :
    List.Forall₂ (Site.Meets root) (stmt.views context) (stmt.sites scopes) ∧
      (scopes.pastStmt stmt).Shows root (context.pastStmt stmt) := by
  cases stmt with
  | block span body => exact ⟨sitesOf_meet body shows.push fresh, shows⟩
  | declare decl | evaluate span expr => exact shows.sites fresh nofun
  | jump span kind value => exact ⟨(shows.sites fresh nofun).1, shows⟩
  | ifThen span condition body | whileLoop span condition body =>
    obtain ⟨_, inner⟩ := List.forall_mem_append.mp fresh
    exact ⟨.cons ⟨rfl, shows⟩ (sites_meet body (shows.own body) inner).1, shows⟩
  | ifElse span condition body other =>
    obtain ⟨_, branches⟩ := List.forall_mem_append.mp fresh
    obtain ⟨inner, outer⟩ := List.forall_mem_append.mp branches
    have first := (sites_meet body (shows.own body) inner).1
    have second := (sites_meet other (shows.own other) outer).1
    have both := List.rel_append first second
    exact ⟨.cons ⟨rfl, shows⟩ both, shows⟩
  | forLoop span openings condition iterators body =>
    obtain ⟨head, inner⟩ := List.forall_mem_append.mp fresh
    obtain ⟨meets, after⟩ := shows.push.sites head nofun
    exact ⟨List.rel_append meets (sites_meet body (after.own body) inner).1, shows⟩
termination_by structural stmt

theorem sitesOf_meet (stmts : List Stmt) {scopes : Scopes} {context : Context} (shows : scopes.Shows root context)
    (fresh : ∀ site ∈ sitesOf scopes stmts, site.Fresh) :
    List.Forall₂ (Site.Meets root) (viewsOf context stmts) (sitesOf scopes stmts) := by
  cases stmts with
  | nil => exact .nil
  | cons first others =>
    obtain ⟨here, later⟩ := List.forall_mem_append.mp fresh
    obtain ⟨meets, after⟩ := sites_meet first shows here
    exact List.rel_append meets (sitesOf_meet others after later)
termination_by structural stmts

end

end Stmt

theorem Declaration.sites_meet (decl : Declaration) (fresh : ∀ site ∈ decl.sites ⟨root, []⟩, site.Fresh) :
    List.Forall₂ (Site.Meets root) decl.views (decl.sites ⟨root, []⟩) := by
  have start := Scopes.shows_root root
  cases decl with
  | global decl => exact .cons ⟨rfl, start⟩ .nil
  | function decl =>
    obtain ⟨head, body⟩ := List.forall_mem_append.mp fresh
    obtain ⟨_, parameters⟩ := List.forall_mem_append.mp head
    obtain ⟨meets, after⟩ := start.push.sites parameters nofun
    exact .cons ⟨rfl, start⟩ (List.rel_append meets (Stmt.sitesOf_meet decl.body after body))
  | enumeration decl => exact .nil
  | delegate decl =>
    have mentions (types : List Ty) : List.Forall₂ (Site.Meets root) (Context.views [] (types.map .mention))
        (Scopes.sites .top ⟨root, []⟩ (types.map .mention)) := by
      induction types with
      | nil => exact .nil
      | cons first others ih => exact .cons ⟨rfl, start⟩ ih
    exact mentions _
  | struct decl => exact (start.push.sites fresh nofun).1

end Shows

structure Typing.Scopes.Admits (scopes : Scopes) (names : List String) : Prop where
  nodup : names.Nodup
  absent : ∀ name ∈ names, scopes.inner.contains name = false

namespace Typing.Scopes

variable {scopes after : Scopes} {names others : List String}

theorem Admits.nil (scopes : Scopes) : scopes.Admits [] := ⟨.nil, List.forall_mem_nil _⟩

theorem Admits.append (first : scopes.Admits names) (second : after.Admits others)
    (bound : ∀ name, after.inner.contains name = (scopes.inner.contains name || decide (name ∈ names))) :
    scopes.Admits (names ++ others) := by
  have later : ∀ name ∈ others, scopes.inner.contains name = false ∧ name ∉ names := by
    intro name member
    have here := second.absent name member
    rw [bound name, Bool.or_eq_false_iff, decide_eq_false_iff_not] at here
    exact here
  refine ⟨?_, List.forall_mem_append.mpr ⟨first.absent, fun name member => (later name member).1⟩⟩
  refine List.nodup_append.mpr ⟨first.nodup, second.nodup, ?_⟩
  rintro name early _ late rfl
  exact (later name late).2 early

theorem contains_past (scopes : Scopes) (item : Item) (name : String) :
    (scopes.past item).inner.contains name = (scopes.inner.contains name || decide (name ∈ item.declared)) := by
  cases item with
  | declare decl => simp only [past, Item.declared, contains_bound, List.mem_singleton]
  | parameter decl => simp only [past, Item.declared, contains_bound, List.mem_singleton]
  | mention _ | condition _ | value _ => simp [past, Item.declared]

theorem contains_pastAll (scopes : Scopes) (items : List Item) (name : String) :
    (scopes.pastAll items).inner.contains name =
      (scopes.inner.contains name || decide (name ∈ items.flatMap Item.declared)) := by
  induction items generalizing scopes with
  | nil => simp [pastAll]
  | cons item items ih =>
    show ((scopes.past item).pastAll items).inner.contains name = _
    rw [ih, contains_past]
    simp [Bool.or_assoc]

theorem contains_pastStmt (scopes : Scopes) (stmt : Stmt) (name : String) :
    (scopes.pastStmt stmt).inner.contains name = (scopes.inner.contains name || decide (name ∈ stmt.declared)) := by
  cases stmt with
  | declare decl => exact scopes.contains_past (.declare decl) name
  | _ => simp [pastStmt, Stmt.declared]

theorem admits_item {setting : Setting} {item : Item} (fresh : Site.Fresh ⟨setting, scopes, item⟩)
    (inside : setting ≠ .top) : scopes.Admits item.declared := by
  refine ⟨?_, fresh inside⟩
  cases item with
  | declare _ | parameter _ => exact List.nodup_singleton _
  | mention _ | condition _ | value _ => exact .nil

theorem admits_items {setting : Setting} {items : List Item} (fresh : ∀ site ∈ scopes.sites setting items, site.Fresh)
    (inside : setting ≠ .top) : scopes.Admits (items.flatMap Item.declared) := by
  induction items generalizing scopes with
  | nil => exact .nil scopes
  | cons item items ih =>
    obtain ⟨here, later⟩ := List.forall_mem_cons.mp fresh
    exact (admits_item here inside).append (ih later) (scopes.contains_past item)

end Typing.Scopes

namespace Stmt

theorem loopHead_declared (openings : List Opening) (condition : Option Expr) (iterators : List Expr) :
    (loopHead openings condition iterators).flatMap Item.declared =
      (openings.map Opening.item).flatMap Item.declared := by
  unfold loopHead
  rw [List.flatMap_append, List.flatMap_append]
  have conditions : (condition.toList.map Item.condition).flatMap Item.declared = [] := by cases condition <;> rfl
  have values : (iterators.map Item.value).flatMap Item.declared = [] := by
    rw [List.flatMap_map]
    exact List.flatMap_eq_nil_iff.mpr fun _ _ => rfl
  rw [conditions, values, List.append_nil, List.append_nil]

theorem declared_nodup (stmt : Stmt) : stmt.declared.Nodup := by
  cases stmt with
  | declare decl => exact List.nodup_singleton _
  | _ => exact .nil

theorem enclosed_nodup (stmt : Stmt) {scopes : List (List String)} (each : ∀ scope ∈ scopes, scope.Nodup) :
    ∀ scope ∈ stmt.enclosed scopes, scope.Nodup := by
  unfold enclosed
  split
  · exact each
  · exact List.forall_mem_cons.mpr ⟨stmt.declared_nodup, each⟩

mutual

theorem scopes_nodup (stmt : Stmt) {around : Scopes} (fresh : ∀ site ∈ stmt.sites around, site.Fresh) :
    (∀ scope ∈ stmt.scopes, scope.Nodup) ∧ around.Admits stmt.declared := by
  cases stmt with
  | block span body =>
    obtain ⟨inner, admits⟩ := scopesOf_nodup body fresh
    exact ⟨List.forall_mem_cons.mpr ⟨admits.nodup, inner⟩, .nil around⟩
  | declare decl => exact ⟨List.forall_mem_nil _, Scopes.admits_item (List.forall_mem_singleton.mp fresh) nofun⟩
  | evaluate span expr | jump span kind value => exact ⟨List.forall_mem_nil _, .nil around⟩
  | ifThen span condition body | whileLoop span condition body =>
    obtain ⟨_, inner⟩ := List.forall_mem_append.mp fresh
    exact ⟨body.enclosed_nodup (scopes_nodup body inner).1, .nil around⟩
  | ifElse span condition body other =>
    obtain ⟨_, branches⟩ := List.forall_mem_append.mp fresh
    obtain ⟨inner, outer⟩ := List.forall_mem_append.mp branches
    refine ⟨List.forall_mem_append.mpr ⟨?_, ?_⟩, .nil around⟩
    · exact body.enclosed_nodup (scopes_nodup body inner).1
    · exact other.enclosed_nodup (scopes_nodup other outer).1
  | forLoop span openings condition iterators body =>
    obtain ⟨head, inner⟩ := List.forall_mem_append.mp fresh
    have admits := Scopes.admits_items head nofun
    rw [loopHead_declared] at admits
    exact ⟨List.forall_mem_cons.mpr ⟨admits.nodup, body.enclosed_nodup (scopes_nodup body inner).1⟩, .nil around⟩
termination_by structural stmt

theorem scopesOf_nodup (stmts : List Stmt) {around : Scopes} (fresh : ∀ site ∈ sitesOf around stmts, site.Fresh) :
    (∀ scope ∈ scopesOf stmts, scope.Nodup) ∧ around.Admits (stmts.flatMap declared) := by
  cases stmts with
  | nil => exact ⟨List.forall_mem_nil _, .nil around⟩
  | cons first others =>
    obtain ⟨here, later⟩ := List.forall_mem_append.mp fresh
    obtain ⟨inner, admits⟩ := scopes_nodup first here
    obtain ⟨rest, following⟩ := scopesOf_nodup others later
    exact ⟨List.forall_mem_append.mpr ⟨inner, rest⟩, admits.append following (around.contains_pastStmt first)⟩
termination_by structural stmts

end

end Stmt

namespace Typing

variable {env : Vectors} {s t : State} {value : Unit}

theorem checkMembers_admits {type : Ty} {members : List Member}
    (ran : checkMembers type members env s = .ok value t) : s.scopes.Admits (members.map Member.name) := by
  induction members generalizing s with
  | nil => exact .nil s.scopes
  | cons first others ih =>
    obtain ⟨_, m, bind, rest⟩ := bind_ok.mp ran
    obtain ⟨fresh, rfl⟩ := bindMember_bound bind
    have here : s.scopes.Admits [first.name] := ⟨List.nodup_singleton _, List.forall_mem_singleton.mpr fresh⟩
    refine here.append (ih rest) fun name => ?_
    rw [decide_eq_decide.mpr List.mem_singleton]
    exact Scopes.contains_bound name

theorem checkDeclarations_members {decls : List Declaration} (ran : checkDeclarations decls env s = .ok value t) :
    ∀ decl, .enumeration decl ∈ decls → (decl.members.map Member.name).Nodup := by
  induction decls generalizing s with
  | nil => nofun
  | cons first others ih =>
    obtain ⟨_, m, head, rest⟩ := bind_ok.mp ran
    intro decl member
    rcases List.mem_cons.mp member with rfl | later
    · obtain ⟨_, inner, -⟩ := inScope_ok.mp head
      exact (checkMembers_admits inner).nodup
    · exact ih rest decl later

end Typing

theorem Parameter.declared (parameters : List Parameter) :
    (parameters.map Item.parameter).flatMap Item.declared = parameters.map Parameter.name := by
  rw [List.flatMap_map]
  exact parameters.flatMap_pure_eq_map Parameter.name

theorem Variable.declared (fields : List Variable) :
    (fields.map Item.declare).flatMap Item.declared = fields.map Variable.name := by
  rw [List.flatMap_map]
  exact fields.flatMap_pure_eq_map Variable.name

theorem Declaration.scopes_nodup {root : Scopes} (decl : Declaration) (fresh : ∀ site ∈ decl.sites root, site.Fresh)
    (members : ∀ found, decl = .enumeration found → (found.members.map Member.name).Nodup) :
    ∀ scope ∈ decl.scopes, scope.Nodup := by
  cases decl with
  | global _ | delegate _ => exact List.forall_mem_nil _
  | function decl =>
    obtain ⟨head, body⟩ := List.forall_mem_append.mp fresh
    obtain ⟨_, given⟩ := List.forall_mem_append.mp head
    have first := Scopes.admits_items given nofun
    obtain ⟨inner, second⟩ := Stmt.scopesOf_nodup decl.body body
    have both := first.append second (root.push.contains_pastAll _)
    rw [Parameter.declared] at both
    exact List.forall_mem_cons.mpr ⟨both.nodup, inner⟩
  | enumeration decl => exact List.forall_mem_singleton.mpr (members decl rfl)
  | struct decl =>
    have admits := Scopes.admits_items fresh nofun
    rw [Variable.declared] at admits
    exact List.forall_mem_singleton.mpr admits.nodup

theorem Site.declared_kept {root : Scope} {may : String → Prop} {sites : List Site}
    (inside : ∀ site ∈ sites, site.Inside root may) (keeps : ∀ site ∈ sites, site.Keeps may) :
    ∀ name ∈ (sites.map Site.item).flatMap Item.declared, may name := by
  intro name member
  rw [List.flatMap_map] at member
  obtain ⟨site, found, declared⟩ := List.mem_flatMap.mp member
  exact keeps site found (inside site found).1 name declared

theorem Declaration.locals_kept {root : Scope} {may : String → Prop} (decl : Declaration)
    (keeps : ∀ site ∈ decl.sites ⟨root, []⟩, site.Keeps may) : ∀ name ∈ decl.locals, may name := by
  cases decl with
  | global _ | enumeration _ | delegate _ | struct _ => exact List.forall_mem_nil _
  | function decl =>
    obtain ⟨head, body⟩ := List.forall_mem_append.mp keeps
    obtain ⟨_, given⟩ := List.forall_mem_append.mp head
    obtain ⟨each, after⟩ := (Scopes.above_root root may).sites given
    have parameters := Site.declared_kept each given
    have others := Site.declared_kept (Stmt.sitesOf_above decl.body after body) body
    rw [Scopes.sites_items, Parameter.declared] at parameters
    rw [Stmt.sitesOf_items] at others
    exact List.forall_mem_append.mpr ⟨parameters, others⟩

end TypedScript
