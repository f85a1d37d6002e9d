import TypedScript.Proofs.Program.Mirrors
import TypedScript.Proofs.Program.Prelude
import TypedScript.Proofs.Source.Lines
import TypedScript.Proofs.Token.Lexemes

namespace TypedScript

open Grammar

namespace Source

structure Shows (source : Source) (place : Position) : Prop where
  file : place.file = source.path
  shown : (line? source.text.toList place.line).isSome
  column : ∃ line, (source.text.toList.splitOn '\n')[place.line - 1]? = some line ∧ 1 ≤ place.column ∧
    place.column ≤ line.length + 1

def Reaches (source : Source) (place : Position) : Prop :=
  ∃ before rest, source.text.toList = before ++ rest ∧ place = (Position.first source.path).after before

-- The lines from a place on: those of what is left to read, the first of them behind what stands before the place
-- on its line.
structure Leaves (lines : List (List Char)) (place : Position) (rest : List Char) : Prop where
  line : 1 ≤ place.line
  left : ∃ front, place.column = front.length + 1 ∧
    lines.drop (place.line - 1) = (rest.splitOn '\n').modifyHead (front ++ ·)

theorem Leaves.step {lines : List (List Char)} {place : Position} {c : Char} {rest : List Char}
    (leaves : Leaves lines place (c :: rest)) : Leaves lines (place.step c) rest := by
  obtain ⟨line, front, column, left⟩ := leaves
  rw [List.splitOn_cons_eq_if_modifyHead] at left
  unfold Position.step
  by_cases feed : c = '\n'
  · rw [if_pos (by simpa using feed)] at left
    rw [if_pos feed]
    have next : lines.drop place.line = rest.splitOn '\n' := by
      have later : lines.drop (place.line - 1 + 1) = (lines.drop (place.line - 1)).tail := by rw [List.tail_drop]
      rw [Nat.sub_add_cancel line] at later
      rw [later, left]
      rfl
    refine ⟨Nat.le_add_left _ _, [], rfl, ?_⟩
    show lines.drop place.line = _
    rw [next]
    cases rest.splitOn '\n' <;> rfl
  · rw [if_neg (by simpa using feed), List.modifyHead_modifyHead] at left
    rw [if_neg feed]
    refine ⟨line, front ++ [c], ?_, ?_⟩
    · show place.column + 1 = _
      rw [column, List.length_append, List.length_singleton]
    · show lines.drop (place.line - 1) = _
      rw [left]
      congr 1
      funext more
      simp

theorem Leaves.after {lines : List (List Char)} {place : Position} {before rest : List Char}
    (leaves : Leaves lines place (before ++ rest)) : Leaves lines (place.after before) rest := by
  induction before generalizing place with
  | nil => exact leaves
  | cons c before ih => exact ih leaves.step

theorem Leaves.found {lines : List (List Char)} {place : Position} {rest : List Char}
    (leaves : Leaves lines place rest) :
    ∃ line, lines[place.line - 1]? = some line ∧ 1 ≤ place.column ∧ place.column ≤ line.length + 1 := by
  obtain ⟨-, front, column, left⟩ := leaves
  cases split : rest.splitOn '\n' with
  | nil => exact absurd split (List.splitOn_ne_nil _ _)
  | cons first others =>
    rw [split] at left
    refine ⟨front ++ first, ?_, by omega, ?_⟩
    · rw [← List.head?_drop, left]
      rfl
    · rw [List.length_append]
      omega

theorem Reaches.shows {source : Source} {place : Position} (reaches : source.Reaches place) : source.Shows place := by
  obtain ⟨before, rest, whole, reached⟩ := reaches
  have start : Leaves (source.text.toList.splitOn '\n') (.first source.path) (before ++ rest) := by
    refine ⟨Nat.le_refl 1, [], rfl, ?_⟩
    rw [whole]
    cases (before ++ rest).splitOn '\n' <;> rfl
  have leaves := start.after
  rw [← reached] at leaves
  obtain ⟨line, here, column⟩ := leaves.found
  have file : place.file = source.path := by
    rw [reached, Position.after_file]
    rfl
  refine ⟨file, ?_, line, here, column⟩
  rw [line?_of_row leaves.line here]
  rfl

end Source

section
variable {At : Position → Position → Prop}

theorem Token.endMarker_mirrors {place : Position} (here : At place place) :
    List.Forall₂ (Token.Mirrors At) [endMarker place] [endMarker place] :=
  .cons ⟨rfl, rfl, here, here⟩ .nil

theorem Token.scanFrom_mirrors (bound : Nat) {cursor : Cursor}
    (each : ∀ before rest, cursor.rest = before ++ rest → At (cursor.place.after before) (cursor.place.after before)) :
    Answer.Mirrors At (List.Forall₂ (Token.Mirrors At)) (scanFrom bound cursor) (scanFrom bound cursor) := by
  induction bound generalizing cursor with
  | zero => exact .ok (endMarker_mirrors (each [] cursor.rest rfl))
  | succ bound ih =>
    have here : At cursor.place cursor.place := each [] cursor.rest rfl
    unfold scanFrom
    apply Answer.Mirrors.ite (.ok (endMarker_mirrors here))
    cases found : Pattern.front? cursor.rest with
    | none => exact .error ⟨rfl, here⟩
    | some front =>
      obtain ⟨pattern, cut⟩ := front
      obtain ⟨-, whole, -⟩ := Pattern.front?_takes found
      have later : ∀ before rest, (cursor.past cut).rest = before ++ rest →
          At ((cursor.past cut).place.after before) ((cursor.past cut).place.after before) := by
        intro before rest same
        have moved : (cursor.past cut).place.after before = cursor.place.after (cut.1 ++ before) :=
          (Position.after_append _ _ _).symm
        rw [moved]
        apply each (cut.1 ++ before) rest
        rw [← whole, List.append_assoc, ← same]
        rfl
      have there := later [] _ rfl
      have rest := ih later
      dsimp only
      cases pattern.read cut with
      | error cause => exact .error ⟨rfl, here⟩
      | ok taken =>
        cases taken with
        | none => exact rest
        | some taken => exact rest.bind fun _ _ others => .ok (.cons ⟨rfl, rfl, here, there⟩ others)

theorem Source.scan_mirrors {source : Source} (each : ∀ place, source.Reaches place → At place place) :
    Answer.Mirrors At (Stream.Mirrors At) source.scan source.scan := by
  have first : At (.first source.path) (.first source.path) := each _ ⟨[], source.text.toList, rfl, rfl⟩
  have tokens := @Token.scanFrom_mirrors At source.text.toList.length (.start source.text source.path)
    fun before rest whole => each _ ⟨before, rest, whole, rfl⟩
  have marked : Answer.Mirrors At (fun left right => Stream.Mirrors At left.toArray right.toArray)
      (Token.scan source.text source.path) (Token.scan source.text source.path) :=
    tokens.bind fun _ _ rest => .ok ⟨.cons ⟨rfl, rfl, first, first⟩ rest, Nat.succ_pos _, rfl⟩
  exact marked.bind fun _ _ streams => .ok streams

theorem Source.scans_mirror {given : List Source}
    (each : ∀ source ∈ given, ∀ place, source.Reaches place → At place place) :
    Answer.Mirrors At (List.Forall₂ (Stream.Mirrors At)) (given.mapM scan) (given.mapM scan) := by
  induction given with
  | nil => exact .ok .nil
  | cons first others ih =>
    obtain ⟨here, later⟩ := List.forall_mem_cons.mp each
    rw [List.mapM_cons]
    exact (scan_mirrors here).bind fun _ _ tokens => (ih later).bind fun _ _ rest => .ok (.cons tokens rest)

end

theorem mapState_rest_error {α β σ : Type} {pass : α → σ → Except Error (β × σ)} {first : α} {others : List α}
    {s m : σ} {value : β} {error : Error} (head : pass first s = .ok (value, m)) :
    mapState pass (first :: others) s = .error error ↔ mapState pass others m = .error error := by
  rw [mapState, head]
  show (mapState pass others m >>= _) = _ ↔ _
  cases mapState pass others m with
  | error fault => exact Iff.rfl
  | ok rest =>
    constructor
    · intro failed
      cases failed
    · intro failed
      cases failed

theorem mapState_rest_ok {α β σ : Type} {pass : α → σ → Except Error (β × σ)} {first : α} {others : List α}
    {s m t : σ} {value : β} {values : List β} (head : pass first s = .ok (value, m))
    (ran : mapState pass (first :: others) s = .ok (values, t)) :
    ∃ rest, mapState pass others m = .ok (rest, t) ∧ values = value :: rest := by
  unfold mapState at ran
  obtain ⟨found, first, later⟩ := except_bind_ok.mp ran
  cases head.symm.trans first
  obtain ⟨⟨rest, _⟩, last, same⟩ := except_bind_ok.mp later
  cases same
  exact ⟨rest, last, rfl⟩

theorem files_extend {inputs : List (Stream × List Entry)} {s t : Nat × Catalog} {files : List File}
    (worded : ∀ input ∈ inputs, input.1.Worded)
    (parsed : Threads (fun input s file t => parseFile input s = .ok (file, t)) inputs s files t) :
    s.2.Extends t.2 := by
  induction parsed with
  | nil => exact .refl _
  | cons head _ ih =>
    obtain ⟨here, later⟩ := List.forall_mem_cons.mp worded
    obtain ⟨left, reads, -, after⟩ := parseFile_reads head
    have grown := reads.extends_ here
    rw [after] at grown
    exact grown.trans (ih later)

-- A place in one of the given sources. A run mirrors itself over these places alone, so that no phase makes up a
-- place of its own.
def Located (given : List Source) (left right : Position) : Prop :=
  left = right ∧ ∃ source ∈ given, source.Reaches left

theorem Answer.Mirrors.located {α β : Type} {given : List Source} {same : α → β → Prop} {error : Error}
    {second : Except Error β} (mirrors : Answer.Mirrors (Located given) same (.error error) second) :
    ∃ source ∈ given, source.Reaches error.position := by
  cases mirrors with
  | error errors => exact errors.position.2

section
variable {given : List Source} {streams : List Stream}
  (mirrors : List.Forall₂ (Stream.Mirrors (Located given)) streams streams) {error : Error}
include mirrors

theorem outlines_located {catalog : Catalog} (stopped : mapState outlineFile streams catalog = .error error) :
    ∃ source ∈ given, source.Reaches error.position := by
  have outcome := outlines_mirror mirrors catalog
  rw [stopped] at outcome
  exact outcome.located

theorem files_located {outlines : List (List Entry)} {s : Nat × Catalog}
    (stopped : mapState parseFile (streams.zip outlines) s = .error error) :
    ∃ source ∈ given, source.Reaches error.position := by
  have outcome := files_mirror mirrors outlines s
  rw [stopped] at outcome
  exact outcome.located

theorem checks_located {outlines : List (List Entry)} {s t : Nat × Catalog} {files : List File}
    (parsed : mapState parseFile (streams.zip outlines) s = .ok (files, t)) {env : Typing.Vectors} {m n : Typing.State}
    (stopped : Typing.checkFiles files env m = .error error n) :
    ∃ source ∈ given, source.Reaches error.position := by
  have outcome := files_mirror mirrors outlines s
  rw [parsed] at outcome
  cases outcome with
  | ok values =>
    have checks := checkFiles_mirrors env values.value m
    rw [stopped] at checks
    cases checks with
    | error errors => exact errors.position.2

end

theorem compile_located {given : List Source} {error : Error} (failed : compile .standard given = .error error) :
    ∃ source ∈ given, source.Reaches error.position := by
  obtain ⟨tokens, entries, named, scanned, outlined, -, parsed⟩ := Prelude.accepted
  have scans : Answer.Mirrors (Located given) (List.Forall₂ (Stream.Mirrors (Located given))) (given.mapM Source.scan)
      (given.mapM Source.scan) :=
    Source.scans_mirror fun source member place reaches => ⟨rfl, source, member, reaches⟩
  have sources : (Options.standard.sources given).mapM Source.scan =
      given.mapM Source.scan >>= fun others => pure (tokens :: others) := by
    show List.mapM Source.scan (⟨Prelude.path, Prelude.text⟩ :: given) = _
    rw [List.mapM_cons, scanned]
    rfl
  unfold compile at failed
  rw [sources] at failed
  -- Each phase gets past the prelude, and goes on with the given files from what the prelude leaves.
  rcases except_bind_error failed with stopped | ⟨all, read, failed⟩
  · rcases except_bind_error stopped with inner | ⟨_, _, last⟩
    · rw [inner] at scans
      exact scans.located
    · cases last
  obtain ⟨streams, inner, same⟩ := except_bind_ok.mp read
  cases same
  rw [inner] at scans
  cases scans with
  | ok mirrors =>
    rcases except_bind_error failed with stopped | ⟨⟨all, names⟩, ran, failed⟩
    · exact outlines_located mirrors ((mapState_rest_error outlined).mp stopped)
    obtain ⟨outlines, -, rfl⟩ := mapState_rest_ok outlined ran
    obtain ⟨file, m, first, -, checked⟩ := parsed (0, names)
    rcases except_bind_error failed with stopped | ⟨⟨all, next, entered⟩, ran, failed⟩
    · exact files_located mirrors ((mapState_rest_error first).mp stopped)
    obtain ⟨files, last, rfl⟩ := mapState_rest_ok first ran
    have worded : ∀ input ∈ streams.zip outlines, input.1.Worded := fun input member =>
      Source.scans_worded inner input.1 (List.of_mem_zip member).1
    rcases except_bind_error failed with stopped | ⟨_, _, last⟩
    · obtain ⟨n, stopped⟩ := checkProgram_error stopped
      obtain ⟨k, passed⟩ := checked entered (files_extend worded (mapState_threads last)) Options.standard.vectors
      unfold Typing.checkFiles at stopped
      rw [bind_of_ok passed] at stopped
      exact checks_located mirrors last stopped
    · cases last

theorem sourceOf_eq {given : List Source} {source : Source} {error : Error} (distinct : (given.map Source.path).Nodup)
    (own : error.position.file ≠ Prelude.path) (member : source ∈ given) (file : error.position.file = source.path) :
    sourceOf error given = source.text := by
  unfold sourceOf
  rw [if_neg own, file, find?_of_nodup distinct member]
  rfl

-- Every error points at a line of a given file, and none at the prelude.
theorem errors_point_at_sources {given : List Source} {error : Error} (distinct : (given.map Source.path).Nodup)
    (own : Prelude.path ∉ given.map Source.path) (failed : compile .standard given = .error error) :
    error.position.file ≠ Prelude.path ∧
      ∃ source ∈ given, source.Shows error.position ∧ sourceOf error given = source.text := by
  obtain ⟨source, member, reaches⟩ := compile_located failed
  have shows_ := reaches.shows
  have other : error.position.file ≠ Prelude.path := by
    intro same
    rw [shows_.file] at same
    exact own (same ▸ List.mem_map_of_mem member)
  exact ⟨other, source, member, shows_, sourceOf_eq distinct other member shows_.file⟩

theorem Grammar.struct_refused {tokens : Stream} {s : State} {i j : Nat} {name : String} {fields : List Field}
    {owner : Owner} (valid : Catalog.isValidName name = true)
    (spans : Spans tokens (Interface.struct name fields).yield i j) (here : s.pos = i)
    (taken : s.catalog.owner? name = some owner) :
    ∃ place t, outlineDeclaration tokens s = .error ⟨.nameTaken name owner.text, place⟩ t := by
  obtain ⟨first, word, -, rest⟩ := spans.token_cons
  obtain ⟨second, kind, value, -⟩ := rest.token_cons
  obtain ⟨found, m, ran, rfl, -⟩ := keywordName_returns first word second kind s here
  rw [← (Oblivious.keywordName _).owner? ran] at taken
  have refused : m.catalog.claim name .struct (tokens.token (i + 1)).span.start =
      .error ⟨.nameTaken name owner.text, (tokens.token (i + 1)).span.start⟩ m.catalog := by
    refine Catalog.claim_error_iff.mpr ⟨?_, rfl⟩
    unfold Catalog.requireFree Catalog.requireValid
    rw [if_pos valid, taken]
    rfl
  refine ⟨(tokens.token (i + 1)).span.start, m, ?_⟩
  have claims : claim name .struct (tokens.token (i + 1)).span.start tokens m =
      .error ⟨.nameTaken name owner.text, (tokens.token (i + 1)).span.start⟩ m := by
    unfold claim
    rw [refused]
  have branch : outlineDeclaration tokens s = outlineNamed .structWord .struct tokens s := by
    unfold outlineDeclaration
    rw [kind_bind, Stream.next, here, word]
  rw [branch, outlineNamed, bind_of_ok ran, value, bind_of_error claims]

theorem outlineFile_stops {tokens : Stream} {catalog : Catalog} {error : Error} {t : State}
    (inside : tokens.first < tokens.size) (live : (tokens.token tokens.first).kind ≠ .endOfFile)
    (refused : outlineDeclaration tokens (.start tokens 0 catalog) = .error error t) :
    outlineFile tokens catalog = .error error := by
  have more : (decide ((State.start tokens 0 catalog).pos < tokens.size) &&
      decide (tokens.next (.start tokens 0 catalog) ≠ .endOfFile)) = true :=
    Bool.and_eq_true_iff.mpr ⟨decide_eq_true inside, decide_eq_true live⟩
  unfold outlineFile outline bounded
  rw [entries, more_bind, if_pos more, index_bind, bind_of_error refused]

def redeclared : Source := ⟨"main.lang", "// Mine.\n\nstruct vec2 \x7b\n\tnum x;\n\x7d\n"⟩

theorem redeclared_refused : ∃ place, compile .standard [redeclared] = .error ⟨.nameTaken "vec2" "struct", place⟩ := by
  obtain ⟨tokens, found, named, scanned, outlined, taken, -⟩ := Prelude.accepted
  have reads : Interface.isText [.struct "vec2" [⟨.num, "x", none⟩]] redeclared.path redeclared.text.toList = true := by
    decide +kernel
  obtain ⟨others, j, read, spans, -, -⟩ := Interface.scanned reads
  rw [List.flatMap_singleton] at spans
  have first : others.first = 1 := Source.scan_first read
  have owned : named.owner? "vec2" = some .struct :=
    taken (.struct "vec2" [⟨.num, "x", some ⟨0⟩⟩, ⟨.num, "y", some ⟨0⟩⟩]) (by decide +kernel)
  obtain ⟨place, t, refused⟩ := struct_refused (s := .start others 0 named) (by decide) spans first owned
  obtain ⟨inside, word, -, -⟩ := spans.token_cons
  rw [← first] at inside word
  have stopped := outlineFile_stops inside (by rw [word]; decide) refused
  have scans : (Options.standard.sources [redeclared]).mapM Source.scan = .ok [tokens, others] :=
    mapM_ok_iff.mpr (.cons scanned (.cons read .nil))
  have outlines : mapState outlineFile [tokens, others] .initial = .error ⟨.nameTaken "vec2" "struct", place⟩ := by
    apply (mapState_rest_error outlined).mpr
    rw [mapState, stopped]
    rfl
  refine ⟨place, ?_⟩
  unfold compile
  rw [scans]
  show (mapState outlineFile [tokens, others] .initial >>= _) = _
  rw [outlines]
  rfl

theorem errors_point_at_sources_redeclared : ∃ error, compile .standard [redeclared] = .error error ∧
    error.cause = .nameTaken "vec2" "struct" ∧ error.position.file ≠ Prelude.path ∧
      ∃ source ∈ [redeclared], source.Shows error.position ∧ sourceOf error [redeclared] = source.text := by
  obtain ⟨place, failed⟩ := redeclared_refused
  exact ⟨_, failed, rfl, errors_point_at_sources (by decide) (by decide) failed⟩

end TypedScript
