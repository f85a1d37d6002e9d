import TypedScript.Proofs.Tree.Items
import TypedScript.Proofs.Typing.Run

namespace TypedScript

open Typing

inductive Setting where
  | top
  | struct
  | function

structure Site where
  setting : Setting
  scopes : Scopes
  item : Item

def Site.fields (site : Site) : List String :=
  match site.setting with
  | .struct => site.scopes.inner.names
  | .top | .function => []

namespace Typing.Scopes

def past (scopes : Scopes) : Item → Scopes
  | .declare decl => scopes.bound decl.name decl.type
  | .parameter decl => scopes.bound decl.name decl.type
  | .mention _ | .condition _ | .value _ => scopes

def pastAll (scopes : Scopes) (items : List Item) : Scopes := items.foldl past scopes

-- Items that follow each other in one scope. An item does not see what it declares.
def sites (setting : Setting) : Scopes → List Item → List Site
  | _, [] => []
  | scopes, item :: items => ⟨setting, scopes, item⟩ :: sites setting (scopes.past item) items

-- A branch or the body of a loop has a scope of its own. A block has one already.
def own (scopes : Scopes) (stmt : Stmt) : Scopes := if stmt.isBlock then scopes else scopes.push

def pastStmt (scopes : Scopes) : Stmt → Scopes
  | .declare decl => scopes.past (.declare decl)
  | _ => scopes

end Typing.Scopes

namespace Stmt

def loopHead (openings : List Opening) (condition : Option Expr) (iterators : List Expr) : List Item :=
  openings.map Opening.item ++ condition.toList.map .condition ++ iterators.map .value

mutual

def sites (scopes : Scopes) : Stmt → List Site
  | .block _ body => sitesOf scopes.push body
  | .declare decl => scopes.sites .function [.declare decl]
  | .evaluate _ expr => scopes.sites .function [.value expr]
  | .jump _ _ value => scopes.sites .function (value.toList.map .value)
  | .ifThen _ condition body | .whileLoop _ condition body =>
    scopes.sites .function [.condition condition] ++ sites (scopes.own body) body
  | .ifElse _ condition body other =>
    scopes.sites .function [.condition condition] ++ (sites (scopes.own body) body ++ sites (scopes.own other) other)
  | .forLoop _ openings condition iterators body =>
    scopes.push.sites .function (loopHead openings condition iterators) ++
      sites ((scopes.push.pastAll (loopHead openings condition iterators)).own body) body

def sitesOf (scopes : Scopes) : List Stmt → List Site
  | [] => []
  | first :: others => sites scopes first ++ sitesOf (scopes.pastStmt first) others

end

end Stmt

def Declaration.sites (root : Scopes) : Declaration → List Site
  | .global decl => root.sites .top [.declare decl]
  | .function decl =>
    root.sites .top [.mention decl.returns] ++ root.push.sites .function (decl.parameters.map .parameter) ++
      Stmt.sitesOf (root.push.pastAll (decl.parameters.map .parameter)) decl.body
  | .enumeration _ => []
  | .delegate decl => root.sites .top ((decl.signature.returns :: decl.signature.parameters).map .mention)
  | .struct decl => root.push.sites .struct (decl.fields.map .declare)

namespace Typing.Scopes

theorem sites_items (setting : Setting) (scopes : Scopes) (items : List Item) :
    (scopes.sites setting items).map Site.item = items := by
  induction items generalizing scopes with
  | nil => rfl
  | cons item items ih => exact congrArg (item :: ·) (ih (scopes.past item))

theorem sites_append (setting : Setting) (scopes : Scopes) (left right : List Item) :
    scopes.sites setting (left ++ right) =
      scopes.sites setting left ++ (scopes.pastAll left).sites setting right := by
  induction left generalizing scopes with
  | nil => rfl
  | cons item items ih => exact congrArg (⟨setting, scopes, item⟩ :: ·) (ih (scopes.past item))

theorem pastAll_append (scopes : Scopes) (left right : List Item) :
    scopes.pastAll (left ++ right) = (scopes.pastAll left).pastAll right := List.foldl_append

theorem past_plain (scopes : Scopes) {item : Item} (none : item.declared = []) : scopes.past item = scopes := by
  cases item with
  | declare _ | parameter _ => cases none
  | mention _ | condition _ | value _ => rfl

theorem pastAll_plain (scopes : Scopes) {items : List Item} (none : ∀ item ∈ items, item.declared = []) :
    scopes.pastAll items = scopes := by
  induction items with
  | nil => rfl
  | cons item items ih =>
    obtain ⟨here, later⟩ := List.forall_mem_cons.mp none
    show (scopes.past item).pastAll items = scopes
    rw [scopes.past_plain here, ih later]

theorem past_outer (scopes : Scopes) (item : Item) : (scopes.past item).outer = scopes.outer := by
  cases item <;> rfl

theorem pastAll_outer (scopes : Scopes) (items : List Item) : (scopes.pastAll items).outer = scopes.outer := by
  induction items generalizing scopes with
  | nil => rfl
  | cons item items ih => exact (ih (scopes.past item)).trans (scopes.past_outer item)

theorem pastStmt_outer (scopes : Scopes) (stmt : Stmt) : (scopes.pastStmt stmt).outer = scopes.outer := by
  cases stmt <;> rfl

theorem pop_eq {inner scopes : Scopes} (kept : inner.outer = scopes.push.outer) : inner.pop = scopes := by
  unfold pop
  rw [kept]
  rfl

end Typing.Scopes

namespace Stmt

mutual

theorem sites_items (scopes : Scopes) (stmt : Stmt) : (stmt.sites scopes).map Site.item = stmt.items := by
  cases stmt with
  | block span body => exact sitesOf_items scopes.push body
  | declare decl => rfl
  | evaluate span expr => rfl
  | jump span kind value => exact scopes.sites_items .function _
  | ifThen span condition body | whileLoop span condition body =>
    exact congrArg (Item.condition condition :: ·) (sites_items (scopes.own body) body)
  | ifElse span condition body other =>
    rw [sites, List.map_append, List.map_append, sites_items (scopes.own body) body,
      sites_items (scopes.own other) other]
    rfl
  | forLoop span openings condition iterators body =>
    rw [sites, List.map_append, Scopes.sites_items, sites_items _ body]
    rfl
termination_by structural stmt

theorem sitesOf_items (scopes : Scopes) (stmts : List Stmt) : (sitesOf scopes stmts).map Site.item = itemsOf stmts := by
  cases stmts with
  | nil => rfl
  | cons first others =>
    rw [sitesOf, List.map_append, sites_items scopes first, sitesOf_items (scopes.pastStmt first) others]
    rfl
termination_by structural stmts

end

end Stmt

theorem Declaration.sites_items (root : Scopes) (decl : Declaration) : (decl.sites root).map Site.item = decl.items := by
  cases decl with
  | global decl => rfl
  | function decl =>
    rw [sites, List.map_append, List.map_append, Scopes.sites_items, Scopes.sites_items, Stmt.sitesOf_items]
    rfl
  | enumeration decl => rfl
  | delegate decl => exact root.sites_items .top _
  | struct decl => exact root.push.sites_items .struct _

-- The root scope is the last one, and all scopes before it bind only names that may be bound.
def Typing.Scopes.Above (root : Scope) (may : String → Prop) (scopes : Scopes) : Prop :=
  ∃ locals, scopes.outer = locals ++ [root] ∧
    ∀ scope ∈ scopes.inner :: locals, ∀ name, scope.contains name = true → may name

def Site.Keeps (may : String → Prop) (site : Site) : Prop :=
  site.setting = .function → ∀ name ∈ site.item.declared, may name

def Site.Inside (root : Scope) (may : String → Prop) (site : Site) : Prop :=
  site.setting = .function ∧ site.scopes.Above root may

section Above

variable {root : Scope} {may : String → Prop} {scopes : Scopes}

namespace Typing.Scopes

theorem above_root (root : Scope) (may : String → Prop) : (Scopes.mk root []).push.Above root may := by
  refine ⟨[], rfl, ?_⟩
  intro scope only name bound
  cases List.mem_singleton.mp only
  cases bound

theorem Above.push (above : scopes.Above root may) : scopes.push.Above root may := by
  obtain ⟨locals, last, each⟩ := above
  refine ⟨scopes.inner :: locals, congrArg (scopes.inner :: ·) last, ?_⟩
  exact List.forall_mem_cons.mpr ⟨nofun, each⟩

theorem Above.own (above : scopes.Above root may) (stmt : Stmt) : (scopes.own stmt).Above root may := by
  unfold Scopes.own
  split
  · exact above
  · exact above.push

theorem Above.bound (above : scopes.Above root may) {name : String} (allowed : may name) (type : Ty) :
    (scopes.bound name type).Above root may := by
  obtain ⟨locals, last, each⟩ := above
  obtain ⟨here, others⟩ := List.forall_mem_cons.mp each
  refine ⟨locals, last, List.forall_mem_cons.mpr ⟨?_, others⟩⟩
  intro other there
  rw [contains_bound, Bool.or_eq_true, decide_eq_true_eq] at there
  rcases there with old | rfl
  · exact here other old
  · exact allowed

theorem Above.past (above : scopes.Above root may) {item : Item} (keeps : ∀ name ∈ item.declared, may name) :
    (scopes.past item).Above root may := by
  cases item with
  | declare decl => exact above.bound (keeps decl.name List.mem_cons_self) decl.type
  | parameter decl => exact above.bound (keeps decl.name List.mem_cons_self) decl.type
  | mention _ | condition _ | value _ => exact above

theorem Above.sites {items : List Item} (above : scopes.Above root may)
    (keeps : ∀ site ∈ scopes.sites .function items, site.Keeps may) :
    (∀ site ∈ scopes.sites .function items, site.Inside root may) ∧ (scopes.pastAll items).Above root may := by
  induction items generalizing scopes with
  | nil => exact ⟨nofun, above⟩
  | cons item items ih =>
    obtain ⟨here, later⟩ := List.forall_mem_cons.mp keeps
    obtain ⟨each, after⟩ := ih (above.past (here rfl)) later
    exact ⟨List.forall_mem_cons.mpr ⟨⟨rfl, above⟩, each⟩, after⟩

end Typing.Scopes

namespace Stmt

mutual

theorem sites_above (stmt : Stmt) {scopes : Scopes} (above : scopes.Above root may)
    (keeps : ∀ site ∈ stmt.sites scopes, site.Keeps may) :
    (∀ site ∈ stmt.sites scopes, site.Inside root may) ∧ (scopes.pastStmt stmt).Above root may := by
  cases stmt with
  | block span body => exact ⟨sitesOf_above body above.push keeps, above⟩
  | declare decl | evaluate span expr => exact above.sites keeps
  | jump span kind value => exact ⟨(above.sites keeps).1, above⟩
  | ifThen span condition body | whileLoop span condition body =>
    obtain ⟨test, inner⟩ := List.forall_mem_append.mp keeps
    refine ⟨List.forall_mem_append.mpr ⟨(above.sites test).1, ?_⟩, above⟩
    exact (sites_above body (above.own body) inner).1
  | ifElse span condition body other =>
    obtain ⟨test, branches⟩ := List.forall_mem_append.mp keeps
    obtain ⟨inner, outer⟩ := List.forall_mem_append.mp branches
    refine ⟨List.forall_mem_append.mpr ⟨(above.sites test).1, List.forall_mem_append.mpr ⟨?_, ?_⟩⟩, above⟩
    · exact (sites_above body (above.own body) inner).1
    · exact (sites_above other (above.own other) outer).1
  | forLoop span openings condition iterators body =>
    obtain ⟨head, inner⟩ := List.forall_mem_append.mp keeps
    obtain ⟨each, after⟩ := above.push.sites head
    refine ⟨List.forall_mem_append.mpr ⟨each, ?_⟩, above⟩
    exact (sites_above body (after.own body) inner).1
termination_by structural stmt

theorem sitesOf_above (stmts : List Stmt) {scopes : Scopes} (above : scopes.Above root may)
    (keeps : ∀ site ∈ sitesOf scopes stmts, site.Keeps may) :
    ∀ site ∈ sitesOf scopes stmts, site.Inside root may := by
  cases stmts with
  | nil => nofun
  | cons first others =>
    obtain ⟨here, later⟩ := List.forall_mem_append.mp keeps
    obtain ⟨each, after⟩ := sites_above first above here
    exact List.forall_mem_append.mpr ⟨each, sitesOf_above others after later⟩
termination_by structural stmts

end

end Stmt

end Above

theorem Table.mem_names {α : Type} {table : Table String α} {name : String} :
    name ∈ table.names ↔ table.contains name = true := by
  unfold names contains get?
  rw [List.lookup_isSome_iff]
  simp

def Typing.Scopes.levels (scopes : Scopes) : List Scope := scopes.inner :: scopes.outer

-- The root scope is the outermost one. Of the names that may not be bound, the others bind the fields of the
-- struct that come before and nothing else.
def Site.Rooted (root : Scope) (may : String → Prop) (site : Site) : Prop :=
  ∃ locals, site.scopes.levels = locals ++ [root] ∧
    ∀ name, ¬may name → ((∀ scope ∈ locals, scope.contains name = false) ↔ name ∉ site.fields)

namespace Site

variable {root : Scope} {may : String → Prop}

theorem rooted_top (item : Item) : Rooted root may ⟨.top, ⟨root, []⟩, item⟩ :=
  ⟨[], rfl, fun _ _ => ⟨fun _ => nofun, fun _ => nofun⟩⟩

theorem Inside.rooted {site : Site} (inside : site.Inside root may) : site.Rooted root may := by
  obtain ⟨setting, locals, last, each⟩ := inside
  refine ⟨site.scopes.inner :: locals, congrArg (site.scopes.inner :: ·) last, ?_⟩
  intro name barred
  have none : name ∉ site.fields := by
    unfold fields
    rw [setting]
    nofun
  refine iff_of_true ?_ none
  intro scope member
  exact Bool.eq_false_iff.mpr fun bound => barred (each scope member name bound)

theorem rooted_field {scopes : Scopes} (outer : scopes.outer = [root]) (item : Item) :
    Rooted root may ⟨.struct, scopes, item⟩ := by
  refine ⟨[scopes.inner], congrArg (scopes.inner :: ·) outer, ?_⟩
  intro name _
  show _ ↔ name ∉ scopes.inner.names
  rw [Table.mem_names]
  simp

end Site

theorem Typing.Scopes.sites_fields {root : Scope} {may : String → Prop} {scopes : Scopes} (outer : scopes.outer = [root])
    (items : List Item) : ∀ site ∈ scopes.sites .struct items, site.Rooted root may := by
  induction items generalizing scopes with
  | nil => nofun
  | cons item items ih =>
    refine List.forall_mem_cons.mpr ⟨Site.rooted_field outer item, ?_⟩
    exact ih ((scopes.past_outer item).trans outer)

theorem Typing.Scopes.sites_mentions {root : Scope} {may : String → Prop} (types : List Ty) :
    ∀ site ∈ Scopes.sites .top ⟨root, []⟩ (types.map .mention), site.Rooted root may := by
  induction types with
  | nil => nofun
  | cons type types ih => exact List.forall_mem_cons.mpr ⟨Site.rooted_top _, ih⟩

theorem Declaration.sites_rooted {root : Scope} {may : String → Prop} (decl : Declaration)
    (keeps : ∀ site ∈ decl.sites ⟨root, []⟩, site.Keeps may) : ∀ site ∈ decl.sites ⟨root, []⟩, site.Rooted root may := by
  cases decl with
  | global decl => exact List.forall_mem_singleton.mpr (Site.rooted_top _)
  | function decl =>
    obtain ⟨head, body⟩ := List.forall_mem_append.mp keeps
    obtain ⟨_, parameters⟩ := List.forall_mem_append.mp head
    obtain ⟨each, after⟩ := (Scopes.above_root root may).sites parameters
    refine List.forall_mem_append.mpr ⟨List.forall_mem_append.mpr ⟨?_, ?_⟩, ?_⟩
    · exact List.forall_mem_singleton.mpr (Site.rooted_top _)
    · exact fun site member => (each site member).rooted
    · exact fun site member => (Stmt.sitesOf_above decl.body after body site member).rooted
  | enumeration decl => nofun
  | delegate decl => exact Scopes.sites_mentions _
  | struct decl => exact Scopes.sites_fields rfl _

end TypedScript
