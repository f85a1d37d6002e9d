import Mathlib.Data.List.Forall2
import Mathlib.Data.List.Nodup
import TypedScript.Proofs.Grammar.Announcing
import TypedScript.Proofs.Grammar.Yielding
import TypedScript.Proofs.Program.Phases
import TypedScript.Proofs.Typing.Recording

namespace TypedScript

open Grammar

namespace Program

def declarations (program : Program) : List Declaration := program.all.flatMap File.declarations

def written (program : Program) : List Ty := program.items.flatMap Item.written

-- The types that are in the catalog for no other reason than that the program writes them: all that
-- declarations at the top level are made of, and all types with brackets.
def entered (program : Program) : List Ty :=
  program.declarations.flatMap Declaration.entered ++ program.written.filter Ty.isBracketed

def Declares (program : Program) (name : String) : Prop :=
  name ∈ Ty.builtinNames ∨ program.catalog.namesType name = true

def Calls (program : Program) (path : String) : Prop :=
  ∃ function, .function function ∈ program.declarations ∧ function.signature.path = path

instance (program : Program) : DecidablePred program.Declares :=
  fun name => inferInstanceAs (Decidable (name ∈ Ty.builtinNames ∨ program.catalog.namesType name = true))

theorem written_of_mem {program : Program} {decl : Declaration} {type : Ty} (member : decl ∈ program.declarations)
    (inside : type ∈ decl.written) : type ∈ program.written := by
  obtain ⟨file, there, here⟩ := List.mem_flatMap.mp member
  obtain ⟨item, listed, found⟩ := List.mem_flatMap.mp inside
  refine List.mem_flatMap.mpr ⟨item, ?_, found⟩
  exact List.mem_flatMap.mpr ⟨file, there, List.mem_flatMap.mpr ⟨decl, here, listed⟩⟩

end Program

theorem mapM_ok_iff {α β ε : Type} {pass : α → Except ε β} {inputs : List α} {values : List β} :
    inputs.mapM pass = .ok values ↔ List.Forall₂ (fun input value => pass input = .ok value) inputs values := by
  induction inputs generalizing values with
  | nil =>
    constructor
    · intro ran
      cases ran
      exact .nil
    · rintro ⟨⟩
      rfl
  | cons first others ih =>
    simp only [List.mapM_cons, except_bind_ok]
    constructor
    · rintro ⟨value, head, rest, last, same⟩
      cases same
      exact .cons head (ih.mp last)
    · rintro (_ | ⟨head, rest⟩)
      exact ⟨_, head, _, ih.mpr rest, rfl⟩

theorem find?_of_nodup {α : Type} {key : α → String} {list : List α} (distinct : (list.map key).Nodup) {item : α}
    (member : item ∈ list) : list.find? (fun other => key other = key item) = some item := by
  cases found : list.find? (fun other => key other = key item) with
  | none => simpa using List.find?_eq_none.mp found item member
  | some other =>
    have same := List.find?_some found
    rw [decide_eq_true_eq] at same
    rw [List.inj_on_of_nodup_map distinct (List.mem_of_find?_eq_some found) member same]

theorem Source.scan_forall {holds : Token → Prop} (opens : ∀ file, holds (.fileMarker file))
    (closes : ∀ place, holds (.endMarker place)) (each : ∀ token, token.IsRead → holds token) {source : Source}
    {tokens : Stream} (scanned : source.scan = .ok tokens) (pos : Nat) : holds (tokens.token pos) := by
  obtain ⟨list, inner, same⟩ := except_bind_ok.mp scanned
  cases same
  unfold Stream.token
  cases found : list.toArray[min pos (list.toArray.size - 1)]? with
  | none => exact closes _
  | some token =>
    rw [List.getElem?_toArray] at found
    exact Token.scan_forall inner (opens _) closes each token (List.mem_of_getElem? found)

theorem Source.scan_worded {source : Source} {tokens : Stream} (scanned : source.scan = .ok tokens) :
    tokens.Worded :=
  scan_forall (fun _ => nofun) (fun _ => nofun) (fun _ => Token.IsRead.worded) scanned

theorem Source.scan_scanned {source : Source} {tokens : Stream} (scanned : source.scan = .ok tokens) :
    tokens.Scanned := by
  obtain ⟨list, inner, same⟩ := except_bind_ok.mp scanned
  cases same
  exact .of_scan inner

theorem Source.scan_opens {source : Source} {tokens : Stream} (scanned : source.scan = .ok tokens) :
    tokens[0]? = some (.fileMarker source.path) := by
  obtain ⟨list, inner, same⟩ := except_bind_ok.mp scanned
  obtain ⟨rest, -, opens⟩ := except_bind_ok.mp inner
  cases same
  cases opens
  rfl

theorem Source.scan_file {source : Source} {tokens : Stream} (scanned : source.scan = .ok tokens) :
    tokens.file = source.path := by
  unfold Stream.file
  rw [scan_opens scanned]
  rfl

theorem Source.scan_some {source : Source} {tokens : Stream} (scanned : source.scan = .ok tokens) :
    0 < tokens.size := by
  obtain ⟨inside, -⟩ := Array.getElem?_eq_some_iff.mp (scan_opens scanned)
  exact inside

theorem Source.scans_forall {holds : Stream → Prop} {sources : List Source} {streams : List Stream}
    (each : ∀ source tokens, Source.scan source = .ok tokens → holds tokens)
    (scanned : sources.mapM Source.scan = .ok streams) : ∀ tokens ∈ streams, holds tokens := by
  have pairs := mapM_ok_iff.mp scanned
  clear scanned
  induction pairs with
  | nil => nofun
  | cons head _ ih => exact List.forall_mem_cons.mpr ⟨each _ _ head, ih⟩

theorem Source.scans_worded {sources : List Source} {streams : List Stream}
    (scanned : sources.mapM Source.scan = .ok streams) : ∀ tokens ∈ streams, tokens.Worded :=
  scans_forall (fun _ _ => scan_worded) scanned

theorem file_announced {tokens : Stream} {entries : List Entry} {before after : Catalog} {s t : Nat × Catalog}
    {file : File} (worded : tokens.Worded) (outlined : outlineFile tokens before = .ok (entries, after))
    (parsed : parseFile (tokens, entries) s = .ok (file, t)) :
    AnnouncesAll file.declarations before after := by
  obtain ⟨_, declared, -, -⟩ := parseFile_ok parsed
  obtain ⟨_, ran, rfl⟩ := outlineFile_ok outlined
  exact entries_announce worded ran declared

theorem files_announced {streams : List Stream} {outlines : List (List Entry)} {before after : Catalog}
    {s t : Nat × Catalog} {files : List File} (worded : ∀ tokens ∈ streams, tokens.Worded)
    (outlined : Threads (fun tokens s found t => outlineFile tokens s = .ok (found, t)) streams before outlines after)
    (parsed : Threads (fun input s file t => parseFile input s = .ok (file, t)) (streams.zip outlines) s files t) :
    AnnouncesAll (files.flatMap File.declarations) before after := by
  induction outlined generalizing s files with
  | nil =>
    cases parsed
    exact .nil
  | cons head _ ih =>
    cases parsed with
    | cons first rest =>
      have here := file_announced (worded _ (by simp)) head first
      exact here.append (ih (fun tokens later => worded tokens (by simp [later])) rest)

section
variable {inputs : List (Stream × List Entry)} {s t : Nat × Catalog} {files : List File}
  (worded : ∀ input ∈ inputs, input.1.Worded)
  (parsed : Threads (fun input s file t => parseFile input s = .ok (file, t)) inputs s files t)
include worded parsed

theorem files_named : t.2.names = s.2.names ∧
    ∀ decl ∈ files.flatMap File.declarations, ∀ type ∈ decl.written, type.Over Plain := by
  induction parsed with
  | nil => exact ⟨rfl, nofun⟩
  | cons head _ ih =>
    obtain ⟨left, reads, -, after⟩ := parseFile_reads head
    obtain ⟨named, plain⟩ := reads.names (worded _ (by simp))
    rw [after] at named
    obtain ⟨later, others⟩ := ih fun input later => worded input (by simp [later])
    exact ⟨later.trans named, List.forall_mem_append.mpr ⟨plain, others⟩⟩

theorem files_grounded {leaf callable : String → Prop}
    (settled : ∀ decl ∈ files.flatMap File.declarations, decl.Settled leaf callable)
    (grounded : s.2.Grounded leaf callable) : t.2.Grounded leaf callable := by
  induction parsed with
  | nil => exact grounded
  | cons head _ ih =>
    obtain ⟨left, reads, -, after⟩ := parseFile_reads head
    obtain ⟨here, there⟩ := List.forall_mem_append.mp settled
    have read := reads.grounded (worded _ (by simp)) here grounded
    rw [after] at read
    exact ih (fun input later => worded input (by simp [later])) there read

end

theorem compile_catalogs {options : Options} {given : List Source} {program : Program}
    (accepted : compile options given = .ok program) :
    ∃ named entered t, AnnouncesAll program.declarations .initial named ∧ entered.names = named.names ∧
      (∀ leaf callable, (∀ decl ∈ program.declarations, decl.Settled leaf callable) →
        named.Grounded leaf callable → entered.Grounded leaf callable) ∧
      (∀ decl ∈ program.declarations, ∀ type ∈ decl.written, type.Over Plain) ∧
      Typing.Passes options.vectors program.items (.start entered) t ∧ t.types = program.types ∧
      t.catalog = program.catalog := by
  obtain ⟨streams, outlines, named, files, next, entered, types, catalog, scanned, outlined, parsed, checked,
    rfl⟩ := compile_phases accepted
  have worded := Source.scans_worded scanned
  have each : ∀ input ∈ streams.zip outlines, input.1.Worded :=
    fun input member => worded input.1 (List.of_mem_zip member).1
  obtain ⟨kept, plain⟩ := files_named each parsed
  obtain ⟨t, passes, recorded, left⟩ := checkProgram_passes (files_bare parsed) checked
  have all : (Program.ofFiles options files types catalog).declarations = files.flatMap File.declarations := by
    rw [Program.declarations, Program.all_ofFiles]
  rw [all, Program.items, Program.all_ofFiles, Program.types_ofFiles, Program.catalog_ofFiles]
  exact ⟨named, entered, t, files_announced worded outlined parsed, kept,
    fun _ _ settled grounded => files_grounded each parsed settled grounded, plain, passes, recorded, left⟩

-- If every type that is entered comes down to leaves, and every name that is declared is one, then so does
-- every type that is written, and every type of an expression to leaves and functions.
theorem compile_grounded {options : Options} {given : List Source} {program : Program} {leaf : String → Prop}
    (accepted : compile options given = .ok program) (declared : ∀ name, program.Declares name → leaf name)
    (rests : ∀ type ∈ program.entered, type.Over leaf) :
    (∀ type ∈ program.written, type.Over leaf) ∧
      ∀ id type, program.types.get? id = some type → Typing.Recordable leaf program.Calls type := by
  obtain ⟨named, entered, t, announces, kept, parsing, plain, passes, recorded, left⟩ := compile_catalogs accepted
  obtain ⟨outer, bracketed⟩ := List.forall_mem_append.mp rests
  have names : program.catalog.names = named.names := by
    obtain ⟨types, after⟩ := passes.grows.catalog
    rw [← left, after]
    exact kept
  -- The phases ask this of each declaration. The owner of its name is still in the catalog at the end.
  have settled : ∀ decl ∈ program.declarations, decl.Settled leaf program.Calls := by
    intro decl member
    refine ⟨fun type inside => outer type (List.mem_flatMap.mpr ⟨decl, member, inside⟩), ?_, ?_, ?_⟩
    · intro type inside brackets
      exact bracketed type (List.mem_filter.mpr ⟨Program.written_of_mem member inside, brackets⟩)
    · intro sort
      have owned := announces.owners.2 decl member
      unfold Catalog.owner? at owned
      rw [← names] at owned
      refine declared decl.name (.inr ?_)
      unfold Catalog.namesType Catalog.owner?
      rw [owned]
      exact sort
    · rintro function rfl
      exact ⟨function, member, rfl⟩
  have start : Catalog.initial.Grounded leaf program.Calls := by
    refine .initial (fun name known => declared name (.inl known)) ?_
    rintro path ⟨function, -, rfl⟩
    exact function.signature.path_not_plain
  have written : ∀ type ∈ program.written, type.Over Plain := by
    intro type member
    obtain ⟨item, listed, inside⟩ := List.mem_flatMap.mp member
    obtain ⟨file, there, listed⟩ := List.mem_flatMap.mp listed
    obtain ⟨decl, here, listed⟩ := List.mem_flatMap.mp listed
    exact plain decl (List.mem_flatMap.mpr ⟨file, there, here⟩) type (List.mem_flatMap.mpr ⟨item, listed, inside⟩)
  have parsed := parsing leaf program.Calls settled (announces.grounded settled start)
  obtain ⟨done, known⟩ := passes.grounded written (.start parsed)
  refine ⟨known, fun id type found => done.types id type ?_⟩
  rwa [recorded]

-- A program that is accepted is built from declared types alone if and only if the types that it enters are.
-- A type is known as soon as it is entered, so that one that is never declared can pass; but every name of a
-- type, written or recorded, is declared or comes from a type that is entered.
theorem types_declared_iff {options : Options} {given : List Source} {program : Program}
    (accepted : compile options given = .ok program) :
    (((∀ type ∈ program.written, type.Over program.Declares) ∧
        ∀ id type, program.types.get? id = some type →
          type.Over fun name => program.Declares name ∨ program.Calls name) ↔
      ∀ type ∈ program.entered, type.Over program.Declares) ∧
    (∀ type ∈ program.written,
      type.Over fun name => program.Declares name ∨ ∃ other ∈ program.entered, name ∈ other.names) ∧
    ∀ id type, program.types.get? id = some type → type.Over fun name =>
      (program.Declares name ∨ ∃ other ∈ program.entered, name ∈ other.names) ∨ program.Calls name := by
  refine ⟨⟨?_, ?_⟩, ?_⟩
  · rintro ⟨written, -⟩ type member
    rcases List.mem_append.mp member with outer | bracketed
    · obtain ⟨decl, there, inside⟩ := List.mem_flatMap.mp outer
      exact written type (Program.written_of_mem there (Declaration.written_of_entered inside))
    · exact written type (List.mem_filter.mp bracketed).1
  · exact fun entered => compile_grounded accepted (fun _ declared => declared) entered
  · refine compile_grounded accepted (fun _ declared => .inl declared) ?_
    exact fun type member name inside => .inr ⟨type, member, inside⟩

def declaredOnly : List Source :=
  [⟨"main.sc", "enum E \x7b A \x7d struct P \x7b E e; \x7d num f(P p) \x7b return 1; \x7d " ++
    "E g() \x7b P[] v = new P[](new P(E.A)); f(v[0]); return v[0].e; \x7d"⟩]

theorem types_declared_declaredOnly :
    ∃ program, compile ⟨false, []⟩ declaredOnly = .ok program ∧
      (∀ type ∈ program.entered, type.Over program.Declares) ∧
      (∀ type ∈ program.written, type.Over program.Declares) ∧
      ∀ id type, program.types.get? id = some type →
        type.Over fun name => program.Declares name ∨ program.Calls name := by
  have tested : yields (fun program => decide (∀ type ∈ program.entered, type.Over program.Declares))
      (compile ⟨false, []⟩ declaredOnly) = true := by
    decide +kernel
  obtain ⟨program, accepted, holds⟩ := yields_ok tested
  have entered : ∀ type ∈ program.entered, type.Over program.Declares := of_decide_eq_true holds
  exact ⟨program, accepted, entered, (types_declared_iff accepted).1.mpr entered⟩

theorem undeclared_global_accepted :
    ∃ program, compile ⟨false, []⟩ [⟨"main.sc", "Missing x;"⟩] = .ok program ∧
      ¬∀ type ∈ program.written, type.Over program.Declares := by
  have tested : yields (fun program => decide (¬∀ type ∈ program.written, type.Over program.Declares))
      (compile ⟨false, []⟩ [⟨"main.sc", "Missing x;"⟩]) = true := by
    decide +kernel
  obtain ⟨program, accepted, fails⟩ := yields_ok tested
  exact ⟨program, accepted, of_decide_eq_true fails⟩

end TypedScript
