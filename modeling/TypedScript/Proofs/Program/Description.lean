import TypedScript.Proofs.Grammar.Entering
import TypedScript.Proofs.Program.Provenance

namespace TypedScript

open Grammar

variable {decls : List Declaration} {catalog : Catalog}

theorem lists_of_has (distinct : Distinct decls) (within : catalog.Within (.of decls))
    (owned : ∀ decl ∈ decls, catalog.owner? decl.name = some decl.owner)
    (builtin : ∀ type ∈ Ty.builtinNames.map Ty.named, catalog.Knows type)
    (has : ∀ decl ∈ decls, Has catalog decl) : catalog.Lists (.of decls) where
  types := by
    apply within.types.lists
    · rintro path type ⟨rfl, known | ⟨decl, member, whole, found, part⟩⟩
      · exact builtin type known type type.mem_parts
      · exact (has decl member).known whole found type part
    · exact distinct.types_unique
  names := by
    apply within.names.lists
    · rintro name owner ⟨decl, member, rfl, rfl⟩
      exact Option.isSome_of_eq_some (owned decl member)
    · rintro name left right ⟨decl, member, rfl, rfl⟩ ⟨other, also, same, rfl⟩
      rw [distinct.eq_of_name member also same.symm]
  structs := by
    apply within.structs.lists
    · rintro name fields ⟨decl, member, rfl, rfl⟩
      exact (has _ member).shaped
    · rintro name left right ⟨decl, member, rfl, rfl⟩ ⟨other, also, same, rfl⟩
      cases distinct.eq_of_name member also same.symm
      rfl
  enums := by
    apply within.enums.lists
    · rintro name members ⟨decl, member, rfl, rfl⟩
      exact (has _ member).shaped
    · rintro name left right ⟨decl, member, rfl, rfl⟩ ⟨other, also, same, rfl⟩
      cases distinct.eq_of_name member also same.symm
      rfl
  delegates := by
    apply within.delegates.lists
    · rintro path signature (⟨decl, member, rfl, rfl⟩ | ⟨decl, member, rfl, rfl⟩)
      · exact (has _ member).shaped
      · exact (has _ member).shaped.2
    -- A delegate and functions can share a table, but no path.
    · exact distinct.delegates_unique
  globals := by
    apply within.globals.lists
    · rintro name type ⟨decl, member, rfl, rfl⟩
      exact (has _ member).shaped
    · rintro name left right ⟨decl, member, rfl, rfl⟩ ⟨other, also, same, rfl⟩
      cases distinct.eq_of_name member also same.symm
      rfl
  functions := by
    apply within.functions.lists
    · rintro name type ⟨decl, member, rfl, rfl⟩
      exact (has _ member).shaped.1
    · rintro name left right ⟨decl, member, rfl, rfl⟩ ⟨other, also, same, rfl⟩
      cases distinct.eq_of_name member also same.symm
      rfl

theorem Grammar.ReadsDeclarations.typed {tokens : Stream} {s t : State} {list : List Declaration}
    (reads : ReadsDeclarations tokens list s t) :
    ∀ decl, .function decl ∈ list → decl.type = .named decl.signature.path := by
  induction reads with
  | nil => nofun
  | cons head _ ih =>
    intro decl member
    rcases List.mem_cons.mp member with rfl | later
    · cases head with
      | function ahead inner =>
        cases inner
        rfl
    · exact ih decl later

section
variable {inputs : List (Stream × List Entry)} {s t : Nat × Catalog} {files : List File}

theorem files_enter (worded : ∀ input ∈ inputs, input.1.Worded) (distinct : Distinct decls)
    (parsed : Threads (fun input s file t => parseFile input s = .ok (file, t)) inputs s files t)
    (sub : ∀ decl ∈ files.flatMap File.declarations, decl ∈ decls) (entering : Entering decls s.2) :
    Entering decls t.2 ∧ s.2.Extends t.2 ∧ ∀ decl ∈ files.flatMap File.declarations, Has t.2 decl := by
  induction parsed with
  | nil => exact ⟨entering, .refl _, nofun⟩
  | cons head _ ih =>
    obtain ⟨left, reads, -, after⟩ := parseFile_reads head
    obtain ⟨here, there⟩ := List.forall_mem_append.mp sub
    obtain ⟨read, first, has⟩ := reads.enters (worded _ (by simp)) distinct here entering
    rw [after] at read first has
    obtain ⟨last, rest, others⟩ := ih (fun input later => worded input (by simp [later])) there read
    refine ⟨last, first.trans rest, List.forall_mem_append.mpr ⟨?_, others⟩⟩
    intro decl member
    exact (has decl member).mono rest

theorem files_listed {streams : List Stream} {outlines : List (List Entry)} {named entered : Catalog} {next : Nat}
    (worded : ∀ tokens ∈ streams, tokens.Worded)
    (outlined : Threads (fun tokens s found t => outlineFile tokens s = .ok (found, t)) streams .initial outlines named)
    (parsed : Threads (fun input s file t => parseFile input s = .ok (file, t)) (streams.zip outlines) (0, named) files
      (next, entered)) :
    Distinct (files.flatMap File.declarations) ∧ entered.Lists (.of (files.flatMap File.declarations)) := by
  have each : ∀ input ∈ streams.zip outlines, input.1.Worded :=
    fun input member => worded input.1 (List.of_mem_zip member).1
  have announces := files_announced worded outlined parsed
  obtain ⟨kept, written⟩ := files_named each parsed
  obtain ⟨free, nodup⟩ := announces.distinct
  have distinct : Distinct (files.flatMap File.declarations) :=
    ⟨nodup, fun decl member => (free decl member).2, written⟩
  obtain ⟨start, early⟩ := announces.enters (fun _ member => member) (initial_entering _)
  obtain ⟨entering, grown, has⟩ := files_enter each distinct parsed (fun _ member => member) start
  refine ⟨distinct, lists_of_has distinct entering.within ?_ ?_ has⟩
  · intro decl member
    have owned := announces.owners.2 decl member
    unfold Catalog.owner? at owned ⊢
    rwa [kept]
  · intro type member
    exact (early.trans grown).knows (Catalog.addTypes_knows _ member)

theorem files_typed (parsed : Threads (fun input s file t => parseFile input s = .ok (file, t)) inputs s files t) :
    ∀ decl, .function decl ∈ files.flatMap File.declarations → decl.type = .named decl.signature.path := by
  induction parsed with
  | nil => nofun
  | cons head _ ih =>
    intro decl member
    rcases List.mem_append.mp member with here | there
    · obtain ⟨left, reads, -, -⟩ := parseFile_reads head
      exact reads.typed decl here
    · exact ih decl there

end

-- A catalog that says exactly what declarations do. Functions are the only declarations that share an entry:
-- those with one signature have one type, whose signature is theirs.
structure Catalog.Describes (decls : List Declaration) (catalog : Catalog) : Prop where
  distinct : (decls.map Declaration.name).Nodup
  owners : ∀ name owner, catalog.owner? name = some owner ↔
    ∃ decl, decls.filter (fun other => other.name = name) = [decl] ∧ decl.owner = owner
  structs : catalog.structs.Lists fun name fields =>
    ∃ decl, .struct decl ∈ decls ∧ decl.name = name ∧ decl.layout = fields
  enums : catalog.enums.Lists fun name members =>
    ∃ decl, .enumeration decl ∈ decls ∧ decl.name = name ∧ decl.values = members
  globals : catalog.globals.Lists fun name type =>
    ∃ decl, .global decl ∈ decls ∧ decl.name = name ∧ decl.type = type
  functions : catalog.functions.Lists fun name type =>
    ∃ decl, .function decl ∈ decls ∧ decl.name = name ∧ decl.type = type
  delegates : catalog.delegates.Lists fun path signature =>
    (∃ decl, .delegate decl ∈ decls ∧ decl.name = path ∧ decl.signature = signature) ∨
      ∃ decl, .function decl ∈ decls ∧ decl.signature.path = path ∧ decl.signature = signature
  called : ∀ decl, .function decl ∈ decls →
    (catalog.functions.get? decl.name).bind catalog.delegate? = some decl.signature ∧
      catalog.delegate? decl.type = some decl.signature
  shared : ∀ left right, .function left ∈ decls → .function right ∈ decls →
    (left.type = right.type ↔ left.signature = right.signature)

theorem Catalog.Lists.describes (lists : catalog.Lists (.of decls)) (distinct : Distinct decls)
    (typed : ∀ decl, .function decl ∈ decls → decl.type = .named decl.signature.path) : catalog.Describes decls where
  distinct := distinct.names
  owners := by
    intro name owner
    rw [show catalog.owner? name = some owner ↔ _ from lists.names name owner]
    simp only [Declaration.filter_name distinct.names, Contents.of, and_assoc]
  structs := lists.structs
  enums := lists.enums
  globals := lists.globals
  functions := by
    intro name type
    rw [lists.functions name type]
    constructor
    · rintro ⟨decl, member, named, rfl⟩
      exact ⟨decl, member, named, typed decl member⟩
    · rintro ⟨decl, member, named, rfl⟩
      exact ⟨decl, member, named, (typed decl member).symm⟩
  delegates := lists.delegates
  called := by
    intro decl member
    have entry : catalog.functions.get? decl.name = some decl.type :=
      (lists.functions _ _).mpr ⟨decl, member, rfl, (typed decl member).symm⟩
    have signed : catalog.delegate? decl.type = some decl.signature := by
      rw [typed decl member]
      exact (lists.delegates _ _).mpr (.inr ⟨decl, member, rfl, rfl⟩)
    rw [entry]
    exact ⟨signed, signed⟩
  shared := by
    intro left right first second
    rw [typed left first, typed right second]
    constructor
    · intro same
      exact Signature.path_inj (distinct.signature_plain first) (distinct.signature_plain second) (Ty.named.inj same)
    · intro same
      rw [same]

-- What was entered while parsing says what the declarations do, and checking adds nothing but types to it.
theorem compile_entered {options : Options} {given : List Source} {program : Program}
    (accepted : compile options given = .ok program) :
    ∃ (entered : Catalog) (types : Table String Ty),
      entered.Describes program.declarations ∧ program.catalog = { entered with types } := by
  obtain ⟨streams, outlines, named, files, next, entered, types, catalog, scanned, outlined, parsed, checked,
    rfl⟩ := compile_phases accepted
  have worded := Source.scans_worded scanned
  obtain ⟨distinct, lists⟩ := files_listed worded outlined parsed
  obtain ⟨t, passes, -, rfl⟩ := checkProgram_passes (files_bare parsed) checked
  obtain ⟨known, after⟩ := passes.grows.catalog
  rw [Program.declarations, Program.all_ofFiles, Program.catalog_ofFiles]
  exact ⟨entered, known, lists.describes distinct (files_typed parsed), after⟩

theorem catalog_describes_declarations {options : Options} {given : List Source} {program : Program}
    (accepted : compile options given = .ok program) : program.catalog.Describes program.declarations := by
  obtain ⟨entered, types, described, after⟩ := compile_entered accepted
  rw [after]
  exact { described with }

def oneOfEach : List Source :=
  [⟨"main.sc", "enum E \x7b A, B = 4 \x7d struct P \x7b E e; num[] v; \x7d delegate num D(P p); " ++
    "P origin; num f(P p) \x7b return 1; \x7d num g(P q) \x7b return f(q); \x7d void h() \x7b \x7d"⟩]

theorem catalog_describes_oneOfEach :
    ∃ program, compile ⟨false, []⟩ oneOfEach = .ok program ∧
      program.declarations.map Declaration.name = ["E", "P", "D", "origin", "f", "g", "h"] ∧
      program.catalog.Describes program.declarations := by
  have tested : yields (fun program =>
      decide (program.declarations.map Declaration.name = ["E", "P", "D", "origin", "f", "g", "h"]))
      (compile ⟨false, []⟩ oneOfEach) = true := by
    decide +kernel
  obtain ⟨program, accepted, holds⟩ := yields_ok tested
  exact ⟨program, accepted, of_decide_eq_true holds, catalog_describes_declarations accepted⟩

end TypedScript
