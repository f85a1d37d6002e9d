import TypedScript.Proofs.Grammar.Numbering
import TypedScript.Proofs.Typing.Growth
import TypedScript.Proofs.Typing.Walks

namespace TypedScript

inductive Threads {α β σ : Type} (Pass : α → σ → β → σ → Prop) : List α → σ → List β → σ → Prop where
  | nil {s : σ} : Threads Pass [] s [] s
  | cons {s m t : σ} {first : α} {others : List α} {value : β} {values : List β} (head : Pass first s value m)
      (rest : Threads Pass others m values t) : Threads Pass (first :: others) s (value :: values) t

theorem mapState_threads {α β σ : Type} {pass : α → σ → Except Error (β × σ)} {inputs : List α}
    {values : List β} {s t : σ} (ran : mapState pass inputs s = .ok (values, t)) :
    Threads (fun input s value t => pass input s = .ok (value, t)) inputs s values t := by
  induction inputs generalizing s values with
  | nil =>
    cases ran
    exact .nil
  | cons first others ih =>
    simp only [mapState, except_bind_ok] at ran
    obtain ⟨⟨value, m⟩, head, ⟨rest, n⟩, last, same⟩ := ran
    cases same
    exact .cons head (ih last)

theorem compile_phases {options : Options} {given : List Source} {program : Program}
    (accepted : compile options given = .ok program) :
    ∃ streams outlines named files next entered types catalog,
      (options.sources given).mapM Source.scan = .ok streams ∧
      Threads (fun tokens s found t => outlineFile tokens s = .ok (found, t)) streams Catalog.initial outlines named ∧
      Threads (fun input s file t => parseFile input s = .ok (file, t)) (streams.zip outlines) (0, named) files
        (next, entered) ∧
      checkProgram options.vectors files entered = .ok (types, catalog) ∧
      program = .ofFiles options files types catalog := by
  simp only [compile, except_bind_ok] at accepted
  obtain ⟨streams, scanned, ⟨outlines, named⟩, outlined, ⟨files, next, entered⟩, parsed, ⟨types, catalog⟩, checked,
    same⟩ := accepted
  cases same
  exact ⟨streams, outlines, named, files, next, entered, types, catalog, scanned, mapState_threads outlined,
    mapState_threads parsed, checked, rfl⟩

theorem Program.types_ofFiles (options : Options) (files : List File) (types : Typing.TypeMap)
    (catalog : Catalog) : (ofFiles options files types catalog).types = types := by
  unfold ofFiles
  split <;> rfl

theorem Program.catalog_ofFiles (options : Options) (files : List File) (types : Typing.TypeMap)
    (catalog : Catalog) : (ofFiles options files types catalog).catalog = catalog := by
  unfold ofFiles
  split <;> rfl

open Grammar in
theorem outlineFile_ok {tokens : Stream} {found : List Entry} {before after : Catalog}
    (outlined : outlineFile tokens before = .ok (found, after)) :
    ∃ t, outline tokens (.start tokens 0 before) = .ok found t ∧ t.catalog = after := by
  unfold outlineFile at outlined
  cases ran : outline tokens (.start tokens 0 before) with
  | ok entries t =>
    simp only [ran] at outlined
    cases outlined
    exact ⟨t, rfl, rfl⟩
  | error error t =>
    simp only [ran] at outlined
    cases outlined

open Grammar in
theorem parseFile_ok {tokens : Stream} {entries : List Entry} {id next : Nat} {catalog after : Catalog}
    {file : File} (parsed : parseFile (tokens, entries) (id, catalog) = .ok (file, next, after)) :
    ∃ t, declarations entries tokens (.start tokens id catalog) = .ok file.declarations t ∧ t.nextId = next ∧
      t.catalog = after := by
  unfold parseFile parseStream at parsed
  cases ran : wholeFile entries tokens (.start tokens id catalog) with
  | ok found t =>
    simp only [ran] at parsed
    cases parsed
    simp only [wholeFile, bind_ok, file_bind, pure_ok] at ran
    obtain ⟨decls, _, ran, rfl, rfl⟩ := ran
    exact ⟨_, ran, rfl, rfl⟩
  | error error t =>
    simp only [ran] at parsed
    cases parsed

open Grammar in
theorem parseFile_reads {tokens : Stream} {entries : List Entry} {id next : Nat} {catalog after : Catalog}
    {file : File} (parsed : parseFile (tokens, entries) (id, catalog) = .ok (file, next, after)) :
    ∃ t, ReadsDeclarations tokens file.declarations (.start tokens id catalog) t ∧ t.nextId = next ∧
      t.catalog = after := by
  obtain ⟨t, ran, left⟩ := parseFile_ok parsed
  exact ⟨t, declarations_reads ran, left⟩

theorem checkProgram_ok {vectors : Typing.Vectors} {files : List File} {entered catalog : Catalog}
    {types : Typing.TypeMap} (checked : checkProgram vectors files entered = .ok (types, catalog)) :
    ∃ t, Typing.checkFiles files vectors (.start entered) = .ok () t ∧ t.types = types ∧ t.catalog = catalog := by
  unfold checkProgram at checked
  cases ran : Typing.checkFiles files vectors (.start entered) with
  | ok value t =>
    simp only [ran] at checked
    cases checked
    exact ⟨t, rfl, rfl, rfl⟩
  | error error t =>
    simp only [ran] at checked
    cases checked

theorem checkProgram_error {vectors : Typing.Vectors} {files : List File} {entered : Catalog} {error : Error}
    (failed : checkProgram vectors files entered = .error error) :
    ∃ t, Typing.checkFiles files vectors (.start entered) = .error error t := by
  unfold checkProgram at failed
  cases ran : Typing.checkFiles files vectors (.start entered) with
  | ok value t =>
    simp only [ran] at failed
    cases failed
  | error found t =>
    simp only [ran] at failed
    cases failed
    exact ⟨t, rfl⟩

theorem checkProgram_passes {vectors : Typing.Vectors} {files : List File} {entered catalog : Catalog}
    {types : Typing.TypeMap} (bare : ∀ file ∈ files, file.Bare)
    (checked : checkProgram vectors files entered = .ok (types, catalog)) :
    ∃ t, Typing.Passes vectors (files.flatMap File.items) (.start entered) t ∧ t.types = types ∧
      t.catalog = catalog := by
  obtain ⟨t, ran, left⟩ := checkProgram_ok checked
  exact ⟨t, Typing.checkFiles_passes bare ran, left⟩

theorem files_each {inputs : List (Grammar.Stream × List Grammar.Entry)} {s t : Nat × Catalog} {files : List File}
    {holds : Declaration → Prop}
    (each : ∀ input ∈ inputs, ∀ decl s t, Grammar.ReadsDeclaration input.1 decl s t → holds decl)
    (parsed : Threads (fun input s file t => parseFile input s = .ok (file, t)) inputs s files t) :
    ∀ file ∈ files, ∀ decl ∈ file.declarations, holds decl := by
  induction parsed with
  | nil => nofun
  | cons head _ ih =>
    obtain ⟨here, others⟩ := List.forall_mem_cons.mp each
    intro file member
    rcases List.mem_cons.mp member with rfl | later
    · obtain ⟨_, reads, -, -⟩ := parseFile_reads head
      exact reads.each here
    · exact ih others file later

theorem files_bare {inputs : List (Grammar.Stream × List Grammar.Entry)} {s t : Nat × Catalog} {files : List File}
    (parsed : Threads (fun input s file t => parseFile input s = .ok (file, t)) inputs s files t) :
    ∀ file ∈ files, file.Bare :=
  files_each (fun _ _ _ _ _ reads => reads.bare) parsed

theorem parseFile_numbered {tokens : Grammar.Stream} {entries : List Grammar.Entry} {id next : Nat}
    {catalog after : Catalog} {file : File}
    (parsed : parseFile (tokens, entries) (id, catalog) = .ok (file, next, after)) :
    id ≤ next ∧ Numbered id next (file.items.flatMap Item.roots) := by
  obtain ⟨t, reads, rfl, -⟩ := parseFile_reads parsed
  exact reads.numbers

theorem files_numbered {inputs : List (Grammar.Stream × List Grammar.Entry)} {s t : Nat × Catalog}
    {files : List File} (parsed : Threads (fun input s file t => parseFile input s = .ok (file, t)) inputs s files t) :
    s.1 ≤ t.1 ∧ Numbered s.1 t.1 ((files.flatMap File.items).flatMap Item.roots) := by
  induction parsed with
  | nil => exact ⟨Nat.le_refl _, .nil _ _⟩
  | cons head _ ih =>
    obtain ⟨first, here⟩ := parseFile_numbered head
    rw [List.flatMap_cons, List.flatMap_append]
    exact ⟨Nat.le_trans first ih.1, here.append ih.2 first ih.1⟩

theorem compile_numbered {options : Options} {given : List Source} {program : Program}
    (accepted : compile options given = .ok program) :
    ∃ next, Numbered 0 next (program.items.flatMap Item.roots) := by
  obtain ⟨_, _, _, files, next, _, _, _, -, -, parsed, -, rfl⟩ := compile_phases accepted
  unfold Program.items
  rw [Program.all_ofFiles]
  exact ⟨next, (files_numbered parsed).2⟩

theorem compile_passes {options : Options} {given : List Source} {program : Program}
    (accepted : compile options given = .ok program) :
    ∃ entered t, Typing.Passes options.vectors program.items (.start entered) t ∧ t.types = program.types ∧
      t.catalog = program.catalog := by
  obtain ⟨_, _, _, files, _, entered, types, catalog, -, -, parsed, checked, rfl⟩ := compile_phases accepted
  obtain ⟨t, passes, recorded, left⟩ := checkProgram_passes (files_bare parsed) checked
  refine ⟨entered, t, ?_, ?_, ?_⟩
  · unfold Program.items
    rwa [Program.all_ofFiles]
  · rw [recorded, Program.types_ofFiles]
  · rw [left, Program.catalog_ofFiles]

end TypedScript
