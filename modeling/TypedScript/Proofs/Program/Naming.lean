import TypedScript.Proofs.Program.Description
import TypedScript.Proofs.Typing.Reaching

namespace TypedScript

open Typing

namespace Typing

variable {catalog : Catalog} {object : Expr} {name : String}

theorem namesEnum_owner (named : namesEnum catalog object = true) (bare : object.bareName? = some name) :
    catalog.owner? name = some .enumeration := by
  unfold namesEnum at named
  rw [bare] at named
  exact of_decide_eq_true named

theorem containerOp?_owner {node : Node} {method : String}
    (meant : (containerOp? catalog (.member node object method)).isSome = true) (bare : object.bareName? = some name) :
    catalog.owner? name = some .global := by
  cases object with
  | name inner text =>
    cases bare
    by_contra other
    simp [containerOp?, other] at meant
  | _ => cases bare

end Typing

namespace Expr

def used? : Expr → Option String
  | .name _ text | .setName _ text _ _ => some text
  | _ => none

-- The name that is looked up among the declarations and not in the scopes: that of an enumeration before a
-- member, and that of the global before an operation on containers.
def special? (catalog : Catalog) : Expr → Option String
  | .member _ object _ | .setMember _ object _ _ _ => if namesEnum catalog object then object.bareName? else none
  | .call _ (.member node object method) _ =>
    if (containerOp? catalog (.member node object method)).isSome then object.bareName? else none
  | _ => none

theorem special?_owner {catalog : Catalog} {expr : Expr} {name : String} (special : expr.special? catalog = some name) :
    catalog.owner? name = some .enumeration ∨ catalog.owner? name = some .global := by
  unfold special? at special
  split at special
  · obtain ⟨named, bare⟩ := Option.ite_none_right_eq_some.mp special
    exact .inl (namesEnum_owner named bare)
  · obtain ⟨named, bare⟩ := Option.ite_none_right_eq_some.mp special
    exact .inl (namesEnum_owner named bare)
  · obtain ⟨meant, bare⟩ := Option.ite_none_right_eq_some.mp special
    exact .inr (containerOp?_owner meant bare)
  · cases special

end Expr

def Declaration.binding? : Declaration → Option Ty
  | .global decl => some decl.type
  | .function decl => some decl.type
  | .enumeration decl => some (.named decl.name)
  | .delegate _ | .struct _ => none

namespace Program

def root (program : Program) : Scopes := ⟨.root program.catalog, []⟩

def sites (program : Program) : List Site := program.declarations.flatMap (·.sites program.root)

-- A name is bound by no scope inside the root scope, and there it is bound to a declaration of the program.
def Means (program : Program) (scopes : Scopes) (name : String) : Prop :=
  (∀ scope ∈ scopes.levels.dropLast, scope.contains name = false) ∧
    ∃ decl ∈ program.declarations, decl.name = name ∧ decl.binding?.isSome = true ∧
      scopes.get? name = decl.binding?

instance (program : Program) (scopes : Scopes) (name : String) : Decidable (program.Means scopes name) :=
  inferInstanceAs (Decidable (_ ∧ _))

end Program

namespace Typing.Scopes

variable {scopes : Scopes} {root : Scope} {locals : List Scope} {name : String}

theorem get?_levels (last : scopes.levels = locals ++ [root])
    (free : ∀ scope ∈ locals, scope.contains name = false) : scopes.get? name = root.get? name := by
  show scopes.levels.findSome? (fun scope => scope.get? name) = _
  rw [last, List.findSome?_append, List.findSome?_eq_none_iff.mpr]
  · cases found : root.get? name <;> simp [found]
  · intro scope member
    simpa [Table.contains] using free scope member

end Typing.Scopes

theorem Catalog.Describes.root {decls : List Declaration} {catalog : Catalog} (describes : catalog.Describes decls)
    {name : String} (owned : catalog.owner? name = some .enumeration ∨ catalog.owner? name = some .global) :
    ∃ decl ∈ decls, decl.name = name ∧ decl.binding?.isSome = true ∧
      (Scope.root catalog).get? name = decl.binding? := by
  obtain ⟨decl, only, owner⟩ : ∃ decl, decls.filter (fun other => other.name = name) = [decl] ∧
      (decl.owner = .enumeration ∨ decl.owner = .global) := by
    rcases owned with owned | owned
    · obtain ⟨decl, only, owner⟩ := (describes.owners name _).mp owned
      exact ⟨decl, only, .inl owner⟩
    · obtain ⟨decl, only, owner⟩ := (describes.owners name _).mp owned
      exact ⟨decl, only, .inr owner⟩
  have unique (other : Declaration) : other ∈ decls ∧ other.name = name ↔ other = decl := by
    have member : other ∈ decls.filter (fun other => other.name = name) ↔ other ∈ [decl] := by rw [only]
    simpa using member
  obtain ⟨member, named⟩ := (unique decl).mpr rfl
  refine ⟨decl, member, named, ?_⟩
  rw [Scope.get?_root]
  cases decl with
  | enumeration decl =>
    have entry : catalog.enums.get? name = some decl.values := (describes.enums _ _).mpr ⟨decl, member, named, rfl⟩
    rw [entry]
    exact ⟨rfl, congrArg (fun name => some (Ty.named name)) named.symm⟩
  | global decl =>
    -- The root scope prefers enumerations and functions, of which none has the name of a global.
    have noEnum : catalog.enums.get? name = none := by
      cases found : catalog.enums.get? name with
      | none => rfl
      | some members =>
        obtain ⟨other, there, same, -⟩ := (describes.enums _ _).mp found
        cases (unique _).mp ⟨there, same⟩
    have noFunction : catalog.functions.get? name = none := by
      cases found : catalog.functions.get? name with
      | none => rfl
      | some type =>
        obtain ⟨other, there, same, -⟩ := (describes.functions _ _).mp found
        cases (unique _).mp ⟨there, same⟩
    have entry : catalog.globals.get? name = some decl.type := (describes.globals _ _).mpr ⟨decl, member, named, rfl⟩
    rw [noEnum, noFunction, entry]
    exact ⟨rfl, rfl⟩
  | function decl | delegate decl | struct decl => rcases owner with owner | owner <;> cases owner

namespace Program

theorem sites_items (program : Program) : program.sites.map Site.item = program.items := by
  unfold sites items declarations File.items
  rw [List.map_flatMap, List.flatMap_assoc]
  simp only [Declaration.sites_items]

theorem sites_exprs (program : Program) : (program.sites.flatMap fun site => site.item.exprs) = program.exprs := by
  unfold exprs
  rw [← sites_items, List.flatMap_map]

end Program

section Accepted

variable {options : Options} {given : List Source} {program : Program}

theorem compile_walks (accepted : compile options given = .ok program) :
    ∃ entered t, Walks options.vectors program.sites (.start entered) t ∧ t.types = program.types ∧
      t.catalog = program.catalog ∧ Fresh (.start entered) (program.sites.flatMap fun site => site.item.exprs) := by
  obtain ⟨_, numbered⟩ := compile_numbered accepted
  have fresh (entered : Catalog) : Fresh (.start entered) (program.sites.flatMap fun site => site.item.exprs) := by
    rw [Program.sites_exprs, Program.exprs, ← Item.allOf_roots]
    exact ⟨numbered.distinct, fun _ _ => rfl⟩
  obtain ⟨_, _, _, files, _, entered, types, catalog, -, -, parsed, checked, rfl⟩ := compile_phases accepted
  obtain ⟨t, ran, recorded, left⟩ := checkProgram_ok checked
  obtain ⟨walks, -⟩ := checkFiles_settles (files_bare parsed) ran
  obtain ⟨_, grown⟩ := walks.passes.grows.catalog
  refine ⟨entered, t, ?_, ?_, ?_, fresh entered⟩
  · unfold Program.sites Program.declarations Program.root
    rw [Program.all_ofFiles, Program.catalog_ofFiles, ← left, grown]
    exact walks
  · rw [recorded, Program.types_ofFiles]
  · rw [left, Program.catalog_ofFiles]

theorem sites_used (accepted : compile options given = .ok program) {site : Site} (member : site ∈ program.sites)
    {expr : Expr} (inside : expr ∈ site.item.exprs) {name : String} (used : expr.used? = some name) :
    ∃ type, site.scopes.get? name = some type ∧ program.types.get? expr.id = some type := by
  obtain ⟨entered, t, walks, recorded, -, fresh⟩ := compile_walks accepted
  obtain ⟨m, n, around, -, -, after, each⟩ := walks.visits fresh site member
  obtain ⟨type, first, last, checks, scopes, fresh, -, behind⟩ := each expr inside
  have bound : first.scopes.get? name = some type := by
    cases checks <;> cases used <;> assumption
  refine ⟨type, ?_, ?_⟩
  · rw [← around, ← scopes, bound]
  · rw [← recorded]
    exact (behind.trans after).kept _ _ (checks.typed fresh)

theorem sites_keep (accepted : compile options given = .ok program) :
    ∀ site ∈ program.sites, site.Keeps fun name => program.catalog.owner? name = none := by
  obtain ⟨entered, t, walks, -, left, fresh⟩ := compile_walks accepted
  intro site member setting name declared
  obtain ⟨_, n, -, fits, -, after, -⟩ := walks.visits fresh site member
  have free := fits name declared
  rw [setting] at free
  rw [← left, after.owner?]
  exact free.2

-- The name of an enumeration before a member, and that of a global before an operation on containers, mean the
-- declaration exactly where no earlier field of the struct has the name.
theorem special_names_mean (accepted : compile options given = .ok program) :
    program.sites.map Site.item = program.items ∧
      (∀ site ∈ program.sites, ∀ expr ∈ site.item.exprs, ∀ name, expr.used? = some name →
        ∃ type, site.scopes.get? name = some type ∧ program.types.get? expr.id = some type) ∧
      ∀ site ∈ program.sites, ∀ expr ∈ site.item.exprs, ∀ name, expr.special? program.catalog = some name →
        (program.Means site.scopes name ↔ name ∉ site.fields) := by
  refine ⟨program.sites_items, fun site member expr inside name used => sites_used accepted member inside used, ?_⟩
  intro site member expr inside name special
  have owned := Expr.special?_owner special
  have barred : ¬program.catalog.owner? name = none := by
    rcases owned with owned | owned <;> simp [owned]
  have keeps := sites_keep accepted
  obtain ⟨decl, there, found⟩ := List.mem_flatMap.mp member
  have rooted := decl.sites_rooted (fun site found => keeps site (List.mem_flatMap.mpr ⟨decl, there, found⟩)) site found
  obtain ⟨locals, last, hidden⟩ := rooted
  rw [← hidden name barred]
  unfold Program.Means
  rw [last, List.dropLast_concat]
  refine ⟨And.left, fun free => ⟨free, ?_⟩⟩
  obtain ⟨entered, types, described, after⟩ := compile_entered accepted
  rw [after] at owned
  rw [Scopes.get?_levels last free, after]
  exact described.root owned

end Accepted

-- After the fields `E` and `array` of the struct, these names are no longer those of the declarations.
def fieldsBetween : List Source :=
  [⟨"main.sc", "enum E \x7b A \x7d struct T \x7b num length; \x7d T array; E g(E e) \x7b return E.A; \x7d " ++
    "struct S \x7b E e = E.A; E E; T array; E f = E.A; num n = array.length(new num[](1)); \x7d"⟩]

theorem special_names_mean_fieldsBetween :
    ∃ program, compile ⟨false, []⟩ fieldsBetween = .ok program ∧
      (program.sites.flatMap fun site => (site.item.exprs.filterMap (Expr.special? program.catalog)).map fun name =>
        (name, decide (name ∈ site.fields))) =
          [("E", false), ("E", false), ("E", true), ("array", true)] ∧
      ∀ site ∈ program.sites, ∀ expr ∈ site.item.exprs, ∀ name, expr.special? program.catalog = some name →
        (program.Means site.scopes name ↔ name ∉ site.fields) := by
  have tested : yields (fun program => (program.sites.flatMap fun site =>
        (site.item.exprs.filterMap (Expr.special? program.catalog)).map fun name => (name, decide (name ∈ site.fields))) ==
          [("E", false), ("E", false), ("E", true), ("array", true)])
      (compile ⟨false, []⟩ fieldsBetween) = true := by
    decide +kernel
  obtain ⟨program, accepted, same⟩ := yields_ok tested
  exact ⟨program, accepted, eq_of_beq same, (special_names_mean accepted).2.2⟩

theorem special_name_hidden :
    ∃ program, compile ⟨false, []⟩
        [⟨"main.sc", "enum E \x7b A \x7d enum F \x7b B \x7d struct S \x7b F E; F x = E.B; \x7d"⟩] = .ok program ∧
      ∃ site ∈ program.sites, ∃ expr ∈ site.item.exprs,
        expr.special? program.catalog = some "E" ∧ ¬program.Means site.scopes "E" := by
  have tested : yields (fun program => decide (∃ site ∈ program.sites, ∃ expr ∈ site.item.exprs,
        expr.special? program.catalog = some "E" ∧ ¬program.Means site.scopes "E"))
      (compile ⟨false, []⟩
        [⟨"main.sc", "enum E \x7b A \x7d enum F \x7b B \x7d struct S \x7b F E; F x = E.B; \x7d"⟩]) = true := by
    decide +kernel
  obtain ⟨program, accepted, holds⟩ := yields_ok tested
  exact ⟨program, accepted, of_decide_eq_true holds⟩

end TypedScript
