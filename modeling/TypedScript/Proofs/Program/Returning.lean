import TypedScript.Proofs.Program.Entered
import TypedScript.Proofs.Program.Provenance
import TypedScript.Proofs.Typing.Returns

namespace TypedScript

namespace Typing

variable {env : Vectors} {s t : State} {decls : List Declaration}

-- Every function is checked from where the declarations before it have led, and what it returns counts to the end.
theorem checkDeclarations_keeps {value : Unit} {catalog : Catalog} {types : TypeMap}
    (bare : ∀ decl ∈ decls, decl.Bare) (ran : checkDeclarations decls env s = .ok value t)
    (fresh : Fresh s ((decls.flatMap Declaration.items).flatMap Item.exprs)) (later : Later t catalog types) :
    ∀ decl, .function decl ∈ decls →
      decl.Keeps fun value => ∃ type, Typed types value type ∧ catalog.accepts decl.returns type = true := by
  induction decls generalizing s with
  | nil => nofun
  | cons first others ih =>
    obtain ⟨here, rest⟩ := List.forall_mem_cons.mp bare
    obtain ⟨_, m, head, last⟩ := bind_ok.mp ran
    rw [List.flatMap_cons, List.flatMap_append] at fresh
    have passes := (checkDeclaration_settles here head).1.passes
    rw [Declaration.sites_items] at passes
    have grows := (checkDeclarations_passes rest last).grows
    intro decl member
    rcases List.mem_cons.mp member with rfl | there
    · exact checkFunction_keeps here head fresh.left (later.before grows)
    · exact ih rest last (fresh.right passes.records) decl there

theorem checkDeclarations_breach {error : Error} {name : String} (bare : ∀ decl ∈ decls, decl.Bare)
    (ran : checkDeclarations decls env s = .error error t) (breach : error.cause.breach? = some name) :
    ∃ decl, .function decl ∈ decls ∧ decl.name = name ∧ ∀ fits, ¬ decl.Keeps fits := by
  induction decls generalizing s with
  | nil => cases ran
  | cons first others ih =>
    obtain ⟨here, rest⟩ := List.forall_mem_cons.mp bare
    rcases bind_error.mp ran with failed | ⟨_, m, -, failed⟩
    · by_cases kind : ∃ decl, first = .function decl
      · obtain ⟨decl, rfl⟩ := kind
        exact ⟨decl, List.mem_cons_self, checkFunction_breach here failed breach⟩
      · have runs := checkDeclaration_runs Manner.inner_opens fun decl same => kind ⟨decl, same⟩
        have other := (runs.fails _ _ _ _ failed).1
        rw [other.breach?] at breach
        cases breach
    · obtain ⟨decl, member, broken⟩ := ih rest failed
      exact ⟨decl, List.mem_cons_of_mem first member, broken⟩

end Typing

theorem files_fresh {inputs : List (Grammar.Stream × List Grammar.Entry)} {s t : Nat × Catalog} {files : List File}
    (parsed : Threads (fun input s file t => parseFile input s = .ok (file, t)) inputs s files t) (entered : Catalog) :
    Typing.Fresh (.start entered)
      (((files.flatMap File.declarations).flatMap Declaration.items).flatMap Item.exprs) := by
  have distinct := (files_numbered parsed).2.distinct
  have same : (files.flatMap File.declarations).flatMap Declaration.items = files.flatMap File.items :=
    List.flatMap_assoc
  rw [Item.allOf_roots] at distinct
  rw [same]
  exact ⟨distinct, fun _ _ => rfl⟩

theorem declarations_bare {files : List File} (bare : ∀ file ∈ files, file.Bare) :
    ∀ decl ∈ files.flatMap File.declarations, decl.Bare := by
  intro decl member
  obtain ⟨file, listed, inside⟩ := List.mem_flatMap.mp member
  exact bare file listed decl inside

-- A function of a program that is accepted keeps to its result type in every `return`, and returns if it has to.
-- Conversely a function that does so is never rejected for how it returns, whatever else is wrong with it. A program
-- is rejected for that only where the function that is named breaks the rule.
theorem return_contract (options : Options) (given : List Source) :
    (∀ program, compile options given = .ok program → ∀ decl, .function decl ∈ program.declarations →
      decl.Keeps fun value =>
        ∃ type, program.types.get? value.id = some type ∧ program.catalog.accepts decl.returns type = true) ∧
    ∀ files entered, readSources options given = .ok (files, entered) →
      (∀ decl fits, .function decl ∈ files.flatMap File.declarations → decl.Keeps fits →
        ∀ vectors s error t, Typing.checkFunction decl vectors s = .error error t → error.cause.breach? = none) ∧
      ∀ error name, compile options given = .error error → error.cause.breach? = some name →
        ∃ decl, .function decl ∈ files.flatMap File.declarations ∧ decl.name = name ∧ ∀ fits, ¬ decl.Keeps fits := by
  constructor
  · intro program accepted
    obtain ⟨_, _, _, files, _, entered, types, catalog, -, -, parsed, checked, rfl⟩ := compile_phases accepted
    -- What a function returns is settled when it is checked; later declarations only add to the records.
    obtain ⟨t, ran, rfl, rfl⟩ := checkProgram_ok checked
    rw [Typing.checkFiles_eq] at ran
    rw [Program.declarations, Program.all_ofFiles, Program.types_ofFiles, Program.catalog_ofFiles]
    exact Typing.checkDeclarations_keeps (declarations_bare (files_bare parsed)) ran (files_fresh parsed entered)
      ⟨⟨_, rfl⟩, fun _ _ found => found⟩
  · intro files entered read
    obtain ⟨_, _, _, _, -, -, parsed⟩ := readSources_phases read
    have bare := declarations_bare (files_bare parsed)
    constructor
    · intro decl fits member keeps vectors s error t failed
      cases breach : error.cause.breach? with
      | none => rfl
      | some name =>
        have broken := (Typing.checkFunction_breach (bare _ member) failed breach).2
        exact absurd keeps (broken fits)
    · intro error name rejected breach
      rw [compile_of_read read] at rejected
      cases checked : checkProgram options.vectors files entered with
      | ok found =>
        rw [checked] at rejected
        cases rejected
      | error found =>
        rw [checked] at rejected
        cases rejected
        obtain ⟨t, ran⟩ := checkProgram_error checked
        rw [Typing.checkFiles_eq] at ran
        exact Typing.checkDeclarations_breach bare ran breach

def Declaration.function? : Declaration → Option Function
  | .function decl => some decl
  | _ => none

theorem Declaration.mem_functions {decls : List Declaration} {decl : Function} :
    decl ∈ decls.filterMap function? ↔ .function decl ∈ decls := by
  simp only [List.mem_filterMap]
  constructor
  · rintro ⟨found, member, same⟩
    cases found with
    | function other =>
      cases same
      exact member
    | _ => cases same
  · intro member
    exact ⟨_, member, rfl⟩

def nestedReturns : List Source :=
  [⟨"a", "string f(num x) \x7b if (x < 1) \x7b return \"a\"; \x7d else for (num i = 0; i < x; i += 1) " ++
    "while (true) return 'a'; return null; \x7d void g() \x7b if (true) return; \x7d"⟩]

def brokenReturns : List Source :=
  [⟨"a", "num h() \x7b while (true) \x7b \x7d \x7d num k() \x7b return \"k\"; \x7d"⟩]

theorem return_contract_nestedReturns :
    (∃ program, compile ⟨false, []⟩ nestedReturns = .ok program ∧
      (program.declarations.filterMap Declaration.function?).map (fun decl => (decl.name, decl.exits.length)) =
        [("f", 3), ("g", 1)] ∧
      ∀ decl, .function decl ∈ program.declarations → decl.Keeps fun value =>
        ∃ type, program.types.get? value.id = some type ∧ program.catalog.accepts decl.returns type = true) ∧
    ∃ files entered, readSources ⟨false, []⟩ brokenReturns = .ok (files, entered) ∧
      (∃ decl error t, .function decl ∈ files.flatMap File.declarations ∧ decl.Keeps (fun _ => True) ∧
        Typing.checkFunction decl [] (.start entered) = .error error t ∧ error.cause.breach? = none) ∧
      ∃ decl error, .function decl ∈ files.flatMap File.declarations ∧
        compile ⟨false, []⟩ brokenReturns = .error error ∧ error.cause = .missingReturn decl.name ∧
        ∀ fits, ¬ decl.Keeps fits := by
  constructor
  · have tested : yields (fun program => (program.declarations.filterMap Declaration.function?).map
          (fun decl => (decl.name, decl.exits.length)) = [("f", 3), ("g", 1)])
        (compile ⟨false, []⟩ nestedReturns) = true := by
      decide +kernel
    obtain ⟨program, accepted, functions⟩ := yields_ok tested
    exact ⟨program, accepted, of_decide_eq_true functions, (return_contract _ _).1 program accepted⟩
  · have tested : yields (fun found : List File × Catalog =>
          ((found.1.flatMap File.declarations).filterMap Declaration.function?).any fun decl =>
            decl.Keeps (fun _ => True) && refuses (fun _ => true) (Typing.checkFunction decl [] (.start found.2)))
        (readSources ⟨false, []⟩ brokenReturns) = true := by
      decide +kernel
    have rejected : rejects (fun error => error.cause = .missingReturn "h")
        (compile ⟨false, []⟩ brokenReturns) = true := by
      decide +kernel
    obtain ⟨⟨files, entered⟩, read, found⟩ := yields_ok tested
    obtain ⟨spared, blamed⟩ := (return_contract _ _).2 files entered read
    refine ⟨files, entered, read, ?_, ?_⟩
    · obtain ⟨decl, listed, holds⟩ := List.any_eq_true.mp found
      obtain ⟨keeps, failed⟩ := Bool.and_eq_true_iff.mp holds
      obtain ⟨error, t, ran, -⟩ := refuses_error failed
      have kept := of_decide_eq_true keeps
      have member := Declaration.mem_functions.mp listed
      exact ⟨decl, error, t, member, kept, ran, spared decl _ member kept [] _ error t ran⟩
    · obtain ⟨error, failed, cause⟩ := rejects_error rejected
      have caused : error.cause = .missingReturn "h" := of_decide_eq_true cause
      obtain ⟨decl, member, named, broken⟩ := blamed error "h" failed (by rw [caused]; rfl)
      exact ⟨decl, error, member, failed, named ▸ caused, broken⟩

end TypedScript
