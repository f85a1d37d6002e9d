import TypedScript.Proofs.Program.Naming
import TypedScript.Proofs.Typing.Lexical

namespace TypedScript

open Typing

namespace Program

def views (program : Program) : List View := program.declarations.flatMap Declaration.views

def scopes (program : Program) : List (List String) := program.declarations.flatMap Declaration.scopes

def locals (program : Program) : List String := program.declarations.flatMap Declaration.locals

def typeOf? (program : Program) (context : Context) (name : String) : Option Ty :=
  (context.lookup name).or ((program.declarations.find? fun decl => decl.name = name).bind Declaration.binding?)

end Program

namespace Catalog.Describes

variable {decls : List Declaration} {catalog : Catalog} (describes : catalog.Describes decls)
include describes

theorem bound {name : String} {type : Ty} (found : (Scope.root catalog).get? name = some type) :
    ∃ decl ∈ decls, decl.name = name ∧ decl.binding? = some type := by
  rw [Scope.get?_root, Option.or_eq_some_iff, Option.or_eq_some_iff] at found
  rcases found with (enumerated | ⟨-, called⟩) | ⟨-, stored⟩
  · obtain ⟨members, entry, rfl⟩ := Option.map_eq_some_iff.mp enumerated
    obtain ⟨decl, member, rfl, -⟩ := (describes.enums _ _).mp entry
    exact ⟨_, member, rfl, rfl⟩
  · obtain ⟨decl, member, rfl, rfl⟩ := (describes.functions _ _).mp called
    exact ⟨_, member, rfl, rfl⟩
  · obtain ⟨decl, member, rfl, rfl⟩ := (describes.globals _ _).mp stored
    exact ⟨_, member, rfl, rfl⟩

theorem unowned {name : String} (free : catalog.owner? name = none) : ∀ decl ∈ decls, decl.name ≠ name := by
  rintro decl member rfl
  have only := (Declaration.filter_name describes.distinct decl.name).mpr ⟨member, rfl⟩
  rw [(describes.owners decl.name decl.owner).mpr ⟨decl, only, rfl⟩] at free
  cases free

end Catalog.Describes

namespace Site

variable {root : Scope} {views : List View} {sites : List Site}

theorem items_of_meets (meets : List.Forall₂ (Meets root) views sites) : views.map View.item = sites.map Site.item := by
  induction meets with
  | nil => rfl
  | cons here _ ih => exact congrArg₂ List.cons here.item ih

theorem mem_of_meets (meets : List.Forall₂ (Meets root) views sites) {view : View} (member : view ∈ views) :
    ∃ site ∈ sites, Meets root view site := by
  induction meets with
  | nil => cases member
  | cons here _ ih =>
    rcases List.mem_cons.mp member with rfl | later
    · exact ⟨_, List.mem_cons_self, here⟩
    · obtain ⟨site, found, meet⟩ := ih later
      exact ⟨site, List.mem_cons_of_mem _ found, meet⟩

end Site

section Accepted

variable {options : Options} {given : List Source} {program : Program}

theorem sites_fresh (accepted : compile options given = .ok program) : ∀ site ∈ program.sites, site.Fresh := by
  obtain ⟨entered, t, walks, -, -, fresh⟩ := compile_walks accepted
  intro site member
  obtain ⟨_, _, -, fits, -⟩ := walks.visits fresh site member
  exact fits.fresh

theorem views_meet (accepted : compile options given = .ok program) :
    List.Forall₂ (Site.Meets (.root program.catalog)) program.views program.sites := by
  have fresh := sites_fresh accepted
  unfold Program.sites at fresh
  unfold Program.views Program.sites
  generalize program.declarations = decls at fresh ⊢
  induction decls with
  | nil => exact .nil
  | cons first others ih =>
    obtain ⟨here, later⟩ := List.forall_mem_append.mp fresh
    exact List.rel_append (first.sites_meet here) (ih later)

theorem members_distinct (accepted : compile options given = .ok program) :
    ∀ decl, .enumeration decl ∈ program.declarations → (decl.members.map Member.name).Nodup := by
  obtain ⟨_, _, _, files, _, entered, types, catalog, -, -, -, checked, rfl⟩ := compile_phases accepted
  obtain ⟨t, ran, -, -⟩ := checkProgram_ok checked
  rw [checkFiles_eq] at ran
  rw [Program.declarations, Program.all_ofFiles]
  exact checkDeclarations_members ran

theorem scopes_distinct (accepted : compile options given = .ok program) : ∀ scope ∈ program.scopes, scope.Nodup := by
  have fresh := sites_fresh accepted
  intro scope member
  obtain ⟨decl, listed, inside⟩ := List.mem_flatMap.mp member
  refine decl.scopes_nodup (fun site found => fresh site (List.mem_flatMap.mpr ⟨decl, listed, found⟩)) ?_ scope inside
  rintro found rfl
  exact members_distinct accepted found listed

theorem locals_unowned (accepted : compile options given = .ok program) :
    ∀ name ∈ program.locals, program.catalog.owner? name = none := by
  have keeps := sites_keep accepted
  intro name member
  obtain ⟨decl, listed, inside⟩ := List.mem_flatMap.mp member
  exact decl.locals_kept (fun site found => keeps site (List.mem_flatMap.mpr ⟨decl, listed, found⟩)) name inside

-- In a program that is accepted, no scope declares a name twice, and no parameter or local variable has the name of
-- a declaration. Every name that is read or assigned is declared before it in a scope around it, or at the top level
-- of some file, and the type that is recorded for it is that of the innermost of these declarations.
theorem program_well_scoped (accepted : compile options given = .ok program) :
    (∀ scope ∈ program.scopes, scope.Nodup) ∧
      (∀ name ∈ program.locals, ∀ decl ∈ program.declarations, decl.name ≠ name) ∧
      program.views.map View.item = program.items ∧
      ∀ view ∈ program.views, ∀ expr ∈ view.item.exprs, ∀ name, expr.used? = some name →
        ∃ type, program.typeOf? view.context name = some type ∧ program.types.get? expr.id = some type := by
  obtain ⟨entered, types, described, after⟩ := compile_entered accepted
  have meets := views_meet accepted
  refine ⟨scopes_distinct accepted, ?_, ?_, ?_⟩
  · intro name member
    have free := locals_unowned accepted name member
    rw [after] at free
    exact described.unowned free
  · rw [Site.items_of_meets meets, program.sites_items]
  · intro view member expr inside name used
    obtain ⟨site, found, meet⟩ := Site.mem_of_meets meets member
    rw [meet.item] at inside
    obtain ⟨type, bound, recorded⟩ := sites_used accepted found inside used
    refine ⟨type, ?_, recorded⟩
    rw [meet.shows, after, Option.or_eq_some_iff] at bound
    unfold Program.typeOf?
    rcases bound with here | ⟨absent, outside⟩
    · rw [here, Option.some_or]
    · obtain ⟨decl, listed, rfl, bound⟩ := described.bound outside
      rw [absent, Option.none_or, find?_of_nodup described.distinct listed]
      exact bound

end Accepted

-- A field with the name of a global, and inner variables with the names of outer ones.
def hidingNames : List Source :=
  [⟨"a", "num g; enum E \x7b A, B \x7d struct S \x7b string g; string h = g; \x7d"⟩,
    ⟨"b", "num f(num a) \x7b string b = \"\"; \x7b num b = a; g = b; \x7d " ++
      "for (num i = 0, num j = i; i < j; i += a) char a = 'c'; return a; \x7d"⟩]

def Program.uses (program : Program) : List (String × Option Ty) :=
  program.views.flatMap fun view => (view.item.exprs.filterMap Expr.used?).map fun name =>
    (name, program.typeOf? view.context name)

theorem program_well_scoped_hidingNames :
    ∃ program, compile ⟨false, []⟩ hidingNames = .ok program ∧
      program.scopes = [["A", "B"], ["g", "h"], ["a", "b"], ["b"], ["i", "j"], ["a"]] ∧
      program.uses = [("g", some .string), ("a", some .num), ("g", some .num), ("b", some .num), ("i", some .num),
        ("i", some .num), ("j", some .num), ("i", some .num), ("a", some .num), ("a", some .num)] ∧
      (∀ name ∈ program.locals, ∀ decl ∈ program.declarations, decl.name ≠ name) ∧
      ∀ view ∈ program.views, ∀ expr ∈ view.item.exprs, ∀ name, expr.used? = some name →
        ∃ type, program.typeOf? view.context name = some type ∧ program.types.get? expr.id = some type := by
  have tested : yields (fun program =>
      program.scopes = [["A", "B"], ["g", "h"], ["a", "b"], ["b"], ["i", "j"], ["a"]] ∧
      program.uses = [("g", some .string), ("a", some .num), ("g", some .num), ("b", some .num), ("i", some .num),
        ("i", some .num), ("j", some .num), ("i", some .num), ("a", some .num), ("a", some .num)])
      (compile ⟨false, []⟩ hidingNames) = true := by
    decide +kernel
  obtain ⟨program, accepted, holds⟩ := yields_ok tested
  obtain ⟨scopes, uses⟩ := of_decide_eq_true holds
  obtain ⟨-, apart, -, resolved⟩ := program_well_scoped accepted
  exact ⟨program, accepted, scopes, uses, apart, resolved⟩

end TypedScript
