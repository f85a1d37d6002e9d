import TypedScript.Proofs.Catalog.Assignability
import TypedScript.Proofs.Grammar.Yielding
import TypedScript.Proofs.Program.Separate
import TypedScript.Proofs.Typing.Faults

namespace TypedScript

open Grammar

def readSources (options : Options) (given : List Source) : Except Error (List File × Catalog) := do
  let streams ← (options.sources given).mapM Source.scan
  let (outlines, named) ← mapState outlineFile streams Catalog.initial
  let (files, _, entered) ← mapState parseFile (streams.zip outlines) (0, named)
  pure (files, entered)

theorem compile_eq (options : Options) (given : List Source) :
    compile options given = (do
      let (files, entered) ← readSources options given
      let (types, catalog) ← checkProgram options.vectors files entered
      pure (.ofFiles options files types catalog)) := by
  unfold compile readSources
  simp only [bind_assoc, pure_bind]

section
variable {options : Options} {given : List Source} {files : List File} {entered : Catalog}
  (read : readSources options given = .ok (files, entered))
include read

theorem compile_of_read :
    compile options given =
      (checkProgram options.vectors files entered).map fun checked => .ofFiles options files checked.1 checked.2 := by
  rw [compile_eq, read]
  change (checkProgram options.vectors files entered >>= fun checked =>
    pure (Program.ofFiles options files checked.1 checked.2)) = _
  cases checkProgram options.vectors files entered <;> rfl

theorem readSources_phases :
    ∃ streams outlines named next,
      (options.sources given).mapM Source.scan = .ok streams ∧
      Threads (fun tokens s found t => outlineFile tokens s = .ok (found, t)) streams Catalog.initial outlines named ∧
      Threads (fun input s file t => parseFile input s = .ok (file, t)) (streams.zip outlines) (0, named) files
        (next, entered) := by
  simp only [readSources, except_bind_ok] at read
  obtain ⟨streams, scanned, ⟨outlines, named⟩, outlined, ⟨found, next, catalog⟩, parsed, same⟩ := read
  cases same
  exact ⟨streams, outlines, named, next, scanned, mapState_threads outlined, mapState_threads parsed⟩

theorem readSources_listed :
    Distinct (files.flatMap File.declarations) ∧ entered.Lists (.of (files.flatMap File.declarations)) := by
  obtain ⟨streams, outlines, named, next, scanned, outlined, parsed⟩ := readSources_phases read
  exact files_listed (Source.scans_worded scanned) outlined parsed

end

namespace Typing

theorem Moves.known {manner : Manner} {s t : State} (moves : Moves manner s t)
    (known : ∀ id type, s.types.get? id = some type → s.catalog.Knows type) :
    ∀ id type, t.types.get? id = some type → t.catalog.Knows type := by
  induction moves with
  | refl => exact known
  | rescope _ _ _ ih | reframe _ _ _ ih => exact ih
  | @record t node new _ ih =>
    have grown : t.catalog.Extends (t.catalog.addType new) := t.catalog.addTypes_extends [new]
    have here : (t.catalog.addTypes [new]).Knows new := t.catalog.addTypes_knows List.mem_cons_self
    intro id type found
    change (t.types.insertNew node.id new).get? id = some type at found
    rw [Table.get?_insertNew] at found
    rcases Option.or_eq_some_iff.mp found with old | ⟨-, recorded⟩
    · exact grown.knows (ih id type old)
    · by_cases same : id = node.id
      · rw [if_pos same] at recorded
        cases recorded
        exact here
      · rw [if_neg same] at recorded
        cases recorded

-- A catalog that declarations describe has every type that a check of them can come by. The check is laid beside
-- itself, where it can only move while the catalog stays.
theorem checkFiles_catalog {files : List File} {entered : Catalog} (env : Vectors)
    (lists : entered.Lists (.of (files.flatMap File.declarations))) :
    (finalState (checkFiles files env (.start entered))).catalog = entered := by
  have mirrors : List.Forall₂ (File.Mirrors Eq (LaterBy 0)) files (files.map (File.later 0)) :=
    forall₂_map_self File.mirrors_later files
  have twin : Twin (.complete (.refl entered) lists.complete 0 env) (fun _ => True) (checkFiles files)
      (checkFiles (files.map (File.later 0))) :=
    .checkFiles mirrors (lists.written fun _ member => member) fun found member =>
      lists.knows member (Declaration.own_known List.mem_cons_self)
  have outcomes : (Pairing.complete (.refl entered) lists.complete 0 env).Outcomes
      (fun value found => value = found ∧ True) (checkFiles files env (.start entered))
      (checkFiles (files.map (File.later 0)) env (.start entered)) :=
    twin _ _ ((Ready.start entered).beside (.refl entered) lists.complete)
  generalize checkFiles files env (.start entered) = outcome at outcomes
  generalize checkFiles (files.map (File.later 0)) env (.start entered) = twin at outcomes
  cases outcomes with
  | ok _ after => exact after.left
  | error _ after => exact after.left

end Typing

theorem checking_keeps_catalog {options : Options} {given : List Source} {files : List File} {entered : Catalog}
    (read : readSources options given = .ok (files, entered)) :
    let after := finalState (Typing.checkFiles files options.vectors (.start entered))
    after.catalog = entered ∧ (∀ id type, after.types.get? id = some type → entered.Knows type) ∧
      ∀ program, compile options given = .ok program → program.catalog = entered := by
  intro after
  have same : after.catalog = entered := Typing.checkFiles_catalog options.vectors (readSources_listed read).2
  refine ⟨same, ?_, ?_⟩
  · have moves := (Typing.checkFiles_runs files).moves options.vectors (.start entered)
    have known := moves.known nofun
    rwa [same] at known
  · intro program accepted
    rw [compile_of_read read] at accepted
    cases checked : checkProgram options.vectors files entered with
    | error error =>
      rw [checked] at accepted
      cases accepted
    | ok found =>
      rw [checked] at accepted
      cases accepted
      obtain ⟨t, ran, -, left⟩ := checkProgram_ok checked
      have final : after = t := congrArg finalState ran
      rw [Program.catalog_ofFiles, ← left, ← final]
      exact same

-- Arrays, maps and a function value are recorded before the last initializer is refused.
def mismatchedLast : List Source :=
  [⟨"a", "num[string] m; num g(num x) \x7b return x; \x7d void f() \x7b m[\"k\"] = g(1); bool b = m; \x7d"⟩]

theorem checking_keeps_catalog_mismatchedLast :
    ∃ files entered error t, readSources ⟨false, []⟩ mismatchedLast = .ok (files, entered) ∧
      Typing.checkFiles files [] (.start entered) = .error error t ∧
      error.cause = .typeMismatch "bool" "num[string]" ∧ t.catalog = entered ∧
      ∀ id type, t.types.get? id = some type → entered.Knows type := by
  have tested : yields (fun found : List File × Catalog =>
      refuses (fun error => error.cause = .typeMismatch "bool" "num[string]")
        (Typing.checkFiles found.1 [] (.start found.2)))
      (readSources ⟨false, []⟩ mismatchedLast) = true := by
    decide +kernel
  obtain ⟨⟨files, entered⟩, read, failed⟩ := yields_ok tested
  obtain ⟨error, t, ran, caused⟩ := refuses_error failed
  obtain ⟨kept, known, -⟩ := checking_keeps_catalog read
  have final : finalState (Typing.checkFiles files [] (.start entered)) = t := congrArg finalState ran
  rw [final] at kept known
  exact ⟨files, entered, error, t, read, ran, of_decide_eq_true caused, kept, known⟩

theorem Grammar.ReadsDeclarations.delegates {tokens : Stream} {s t : State} {list : List Declaration}
    (scanned : tokens.Scanned) (reads : ReadsDeclarations tokens list s t) :
    ∀ decl, .delegate decl ∈ list → Kind.keywords.lookup decl.name = none := by
  induction reads with
  | nil => nofun
  | cons head _ ih =>
    intro decl member
    rcases List.mem_cons.mp member with rfl | later
    · cases head with
      | delegate inner =>
        cases inner with
        | mk _ _ found => exact (scanned.canonical _).name found
    · exact ih decl later

theorem files_delegates {inputs : List (Stream × List Entry)} {s t : Nat × Catalog} {files : List File}
    (scanned : ∀ input ∈ inputs, input.1.Scanned)
    (parsed : Threads (fun input s file t => parseFile input s = .ok (file, t)) inputs s files t) :
    ∀ decl, .delegate decl ∈ files.flatMap File.declarations → Kind.keywords.lookup decl.name = none := by
  induction parsed with
  | nil => nofun
  | cons head _ ih =>
    obtain ⟨here, later⟩ := List.forall_mem_cons.mp scanned
    intro decl member
    rcases List.mem_append.mp member with inside | outside
    · obtain ⟨left, reads, -, -⟩ := parseFile_reads head
      exact reads.delegates here decl inside
    · exact ih later decl outside

theorem readSources_apart {options : Options} {given : List Source} {files : List File} {entered : Catalog}
    (read : readSources options given = .ok (files, entered)) : entered.BuiltinsApart := by
  obtain ⟨streams, outlines, named, next, scanned, -, parsed⟩ := readSources_phases read
  have each : ∀ tokens ∈ streams, tokens.Scanned := Source.scans_forall (fun _ _ => Source.scan_scanned) scanned
  have words := files_delegates (fun input member => each input.1 (List.of_mem_zip member).1) parsed
  have builtin : ∀ name ∈ Ty.builtinNames, Plain name ∧ (Kind.keywords.lookup name).isSome = true := by decide
  intro name member
  obtain ⟨plain, keyword⟩ := builtin name member
  cases found : entered.delegates.get? name with
  | none => rfl
  | some signature =>
    rcases ((readSources_listed read).2.delegates name signature).mp found with
      ⟨decl, listed, same, -⟩ | ⟨decl, -, same, -⟩
    · rw [← same, words decl listed] at keyword
      cases keyword
    · exact absurd plain (same ▸ decl.signature.path_not_plain)

-- What a place takes is a preorder, as long as no builtin type is a delegate. In the catalog of a program none is.
theorem accepts_preorder :
    (∀ catalog : Catalog, catalog.BuiltinsApart →
      (∀ type, catalog.accepts type type = true) ∧
      (∀ upper middle lower, catalog.accepts upper middle = true → catalog.accepts middle lower = true →
        catalog.accepts upper lower = true) ∧
      (∀ left right, catalog.accepts left right = true ∧ catalog.accepts right left = true ↔
        left = right ∨
          ∃ signature, catalog.delegate? left = some signature ∧ catalog.delegate? right = some signature) ∧
      (∀ value, catalog.accepts .object value = true ↔ value ≠ .void) ∧
      ∀ target, catalog.accepts target .null = true ↔ target ≠ .bool ∧ target ≠ .num ∧ target ≠ .char) ∧
    ∀ options given files entered, readSources options given = .ok (files, entered) → entered.BuiltinsApart := by
  refine ⟨?_, fun _ _ _ _ read => readSources_apart read⟩
  intro catalog apart
  have takes {target value : Ty} : catalog.accepts target value = true ↔ catalog.Takes target value :=
    Catalog.accepts_iff apart
  simp only [takes]
  exact ⟨.same, fun _ _ _ first second => first.trans apart second, fun _ _ => Catalog.Takes.mutual_iff apart,
    fun _ => Catalog.Takes.object_iff apart, fun _ => Catalog.Takes.null_iff apart⟩

def alikeDelegates : List Source :=
  [⟨"a", "delegate num D(num x); delegate num E(num x); num f(num x) \x7b return x; \x7d"⟩]

theorem accepts_preorder_alikeDelegates :
    ∃ files entered, readSources ⟨false, []⟩ alikeDelegates = .ok (files, entered) ∧ entered.BuiltinsApart ∧
      entered.accepts (.named "D") (.named "E") = true ∧ entered.accepts (.named "E") (.named "D") = true ∧
      entered.accepts (.named "E") (.named "num(num)") = true ∧
      entered.accepts (.named "D") (.named "num(num)") = true ∧
      (∃ signature, entered.delegate? (.named "D") = some signature ∧
        entered.delegate? (.named "E") = some signature) ∧
      entered.accepts .object (.named "D") = true ∧ entered.accepts (.named "D") .null = true := by
  have tested : yields (fun found : List File × Catalog =>
      found.2.accepts (.named "D") (.named "E") && found.2.accepts (.named "E") (.named "D") &&
        found.2.accepts (.named "E") (.named "num(num)")) (readSources ⟨false, []⟩ alikeDelegates) = true := by
    decide +kernel
  obtain ⟨⟨files, entered⟩, read, taken⟩ := yields_ok tested
  obtain ⟨both, third⟩ := Bool.and_eq_true_iff.mp taken
  obtain ⟨first, second⟩ := Bool.and_eq_true_iff.mp both
  have apart := accepts_preorder.2 _ _ files entered read
  obtain ⟨-, trans, mutual_iff, object_iff, null_iff⟩ := accepts_preorder.1 entered apart
  have alike := ((mutual_iff _ _).mp ⟨first, second⟩).resolve_left (by decide)
  exact ⟨files, entered, read, apart, first, second, third, trans _ _ _ first third, alike,
    (object_iff _).mpr (by decide), (null_iff _).mpr (by decide)⟩

end TypedScript
