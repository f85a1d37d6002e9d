import TypedScript.Proofs.Grammar.Names
import TypedScript.Proofs.Program.Provenance
import TypedScript.Proofs.Token.Lexemes

namespace TypedScript

-- A name that stands for nothing but itself wherever it is emitted: it is of the form
-- `[a-zA-Z_][a-zA-Z0-9_]*`, and no language has another use for it.
structure Safe (name : String) : Prop where
  word : ∃ first rest, name.toList = first :: rest ∧ (first.isAlpha = true ∨ first = '_') ∧
    ∀ c ∈ rest, c.isAlphanum = true ∨ c = '_'
  keyword : name ∉ Kind.keywords.map Prod.fst
  reserved : name ∉ Kind.reserved

theorem isAlpha_of_isWordStart {c : Char} (start : isWordStart c = true) : c.isAlpha = true ∨ c = '_' := by
  rcases Bool.or_eq_true_iff.mp start with letter | mark
  · left
    show (c.isUpper || c.isLower) = true
    rcases Bool.or_eq_true_iff.mp letter with small | capital
    · have lower : c.isLower = true := small
      rw [lower, Bool.or_true]
    · obtain ⟨low, high⟩ := Bool.and_eq_true_iff.mp capital
      have upper : c.isUpper = true := decide_eq_true ⟨of_decide_eq_true low, of_decide_eq_true high⟩
      rw [upper, Bool.true_or]
  · exact .inr (beq_iff_eq.mp mark)

theorem isAlphanum_of_isWordPart {c : Char} (part : isWordPart c = true) : c.isAlphanum = true ∨ c = '_' := by
  rcases Bool.or_eq_true_iff.mp part with start | digit
  · rcases isAlpha_of_isWordStart start with letter | mark
    · exact .inl (by rw [Char.isAlphanum, letter, Bool.true_or])
    · exact .inr mark
  · have same : c.isDigit = true := digit
    exact .inl (by rw [Char.isAlphanum, same, Bool.or_true])

theorem Safe.of_word {text : List Char} (word : IsWord text)
    (free : Kind.keywords.lookup (String.ofList text) = none)
    (unreserved : Kind.reserved.contains (String.ofList text) = false) : Safe (String.ofList text) := by
  refine ⟨?_, ?_, ?_⟩
  · cases text with
    | nil => exact word.elim
    | cons first rest =>
      refine ⟨first, rest, String.toList_ofList, isAlpha_of_isWordStart word.1, ?_⟩
      exact fun c member => isAlphanum_of_isWordPart (word.2 c member)
  · intro member
    obtain ⟨entry, there, same⟩ := List.mem_map.mp member
    have apart := List.lookup_eq_none_iff.mp free entry there
    simp [same] at apart
  · intro member
    rw [List.contains_iff_mem.mpr member] at unreserved
    cases unreserved

theorem Written.safe {text : List Char} {kind : Kind} {value : String} (written : Written text kind value)
    (name : kind = .identifier) : Safe value := by
  cases written with
  | fixed alike =>
    rw [name] at alike
    cases alike
  | name word free unreserved => exact .of_word word free unreserved
  | number _ | text _ | character _ _ => cases name

def Token.NamesSafely (token : Token) : Prop := token.kind = .identifier → Safe token.value

theorem Token.IsRead.namesSafely {token : Token} (isRead : token.IsRead) : token.NamesSafely := by
  obtain ⟨text, pattern, cut, found, read⟩ := isRead
  obtain ⟨takes, -, -⟩ := Pattern.front?_takes found
  exact (Pattern.read_written takes (Pattern.front?_ok found).1 read).safe

theorem Token.Canonical.typeWord {token : Token} (canonical : token.Canonical) (word : token.kind.isTypeWord = true) :
    token.value ∈ Kind.typeWords.map Prod.fst := by
  rw [canonical.fixed (Kind.ofTypeName_spelling word).1]
  generalize token.kind = kind at word
  cases kind <;> first | decide | cases word

section
variable {source : Source} {tokens : Grammar.Stream} (scanned : source.scan = .ok tokens) {name : String}
include scanned

theorem Source.scan_names (found : tokens.Names name) : Safe name := by
  obtain ⟨pos, kind, rfl⟩ := found
  have each : (tokens.token pos).NamesSafely :=
    scan_forall (fun _ => nofun) (fun _ => nofun) (fun _ => Token.IsRead.namesSafely) scanned pos
  exact each kind

theorem Source.scan_namesType (found : tokens.NamesType name) :
    name ∈ Kind.typeWords.map Prod.fst ∨ Safe name := by
  obtain ⟨pos, begins, rfl⟩ := found
  rcases Bool.or_eq_true_iff.mp begins with word | identifier
  · have canonical : (tokens.token pos).Canonical :=
      scan_forall (fun _ => .of_open rfl nofun nofun) (fun _ => .of_open rfl nofun nofun)
        (fun _ => Token.IsRead.canonical) scanned pos
    exact .inl (canonical.typeWord word)
  · exact .inr (scan_names scanned ⟨pos, of_decide_eq_true identifier, rfl⟩)

end

def Program.names (program : Program) : List String := program.declarations.flatMap Declaration.names

theorem Program.written_eq (program : Program) :
    program.written = program.declarations.flatMap Declaration.written := by
  unfold written items declarations
  rw [List.flatMap_assoc, List.flatMap_assoc]
  congr 1
  funext file
  exact List.flatMap_assoc

-- The names of an accepted program, its prelude included, are safe to emit as they are. Its types are built
-- from such names and the keywords of the builtin types.
theorem program_names_safe {options : Options} {given : List Source} {program : Program}
    (accepted : compile options given = .ok program) :
    (∀ name ∈ program.names, Safe name) ∧
      ∀ type ∈ program.written, ∀ name ∈ type.names, name ∈ Kind.typeWords.map Prod.fst ∨ Safe name := by
  obtain ⟨streams, outlines, _, files, _, _, _, _, scanned, -, parsed, -, rfl⟩ := compile_phases accepted
  have sources : ∀ tokens ∈ streams, ∃ source, Source.scan source = .ok tokens :=
    Source.scans_forall (fun source _ found => ⟨source, found⟩) scanned
  have each : ∀ decl ∈ files.flatMap File.declarations, (∀ name ∈ decl.names, Safe name) ∧
      ∀ type ∈ decl.written, ∀ name ∈ type.names, name ∈ Kind.typeWords.map Prod.fst ∨ Safe name := by
    refine List.forall_mem_flatMap.mpr (files_each ?_ parsed)
    intro input member decl s t reads
    obtain ⟨source, scan⟩ := sources input.1 (List.of_mem_zip member).1
    obtain ⟨names, types⟩ := reads.tokened
    refine ⟨fun name found => source.scan_names scan (names name found), ?_⟩
    exact fun type stated name found => source.scan_namesType scan (types type stated name found)
  rw [Program.written_eq, Program.names, Program.declarations, Program.all_ofFiles]
  exact ⟨List.forall_mem_flatMap.mpr fun decl there => (each decl there).1,
    List.forall_mem_flatMap.mpr fun decl there => (each decl there).2⟩

def nearlyReserved : List Source :=
  [⟨"main.sc", "enum In \x7b _of, x2 = 3 \x7d struct Of \x7b num let_; \x7d In[string] all; " ++
    "num get(Of case_) \x7b num _ = case_.let_ as num; case_.let_ = 1; return _; \x7d"⟩]

theorem program_names_safe_nearlyReserved :
    ∃ program, compile ⟨false, []⟩ nearlyReserved = .ok program ∧
      program.names = ["In", "_of", "x2", "Of", "let_", "all", "all", "get", "case_", "_", "let_", "case_", "let_",
        "case_", "_"] ∧
      program.written.map Ty.path = ["num", "In[string]", "num", "Of", "num", "num"] ∧
      (∀ name ∈ program.names, Safe name) ∧
      ∀ type ∈ program.written, ∀ name ∈ type.names, name ∈ Kind.typeWords.map Prod.fst ∨ Safe name := by
  have tested : yields (fun program =>
      program.names = ["In", "_of", "x2", "Of", "let_", "all", "all", "get", "case_", "_", "let_", "case_", "let_",
        "case_", "_"] ∧
      program.written.map Ty.path = ["num", "In[string]", "num", "Of", "num", "num"])
      (compile ⟨false, []⟩ nearlyReserved) = true := by
    decide +kernel
  obtain ⟨program, accepted, holds⟩ := yields_ok tested
  obtain ⟨names, written⟩ := of_decide_eq_true holds
  exact ⟨program, accepted, names, written, program_names_safe accepted⟩

end TypedScript
