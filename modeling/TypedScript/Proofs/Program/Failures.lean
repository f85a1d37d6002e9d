import TypedScript.Proofs.Grammar.Integers
import TypedScript.Proofs.Grammar.Progress
import TypedScript.Proofs.Program.Returning
import TypedScript.Proofs.Program.SafeNames

namespace TypedScript

open Grammar

theorem IsNumeral.denotes {text : List Char} (numeral : IsNumeral text) :
    ∃ value, Number.Binary64.ofText? (String.ofList text) = some value := by
  have decimal : ∃ number, Number.Decimal (String.ofList text).toList number := by
    rw [String.toList_ofList]
    rcases numeral with ⟨some, digits⟩ | ⟨whole, part, ⟨some, digits⟩, ⟨-, decimals⟩, rfl⟩
    · have shown := Number.Decimal.whole some digits .none
      rw [List.append_nil] at shown
      exact ⟨_, shown⟩
    · have given : whole ++ part ≠ [] := by simp [some]
      have shown := Number.Decimal.pointed given (List.forall_mem_append.mpr ⟨digits, decimals⟩) .none
      rw [List.append_nil] at shown
      exact ⟨_, shown⟩
  obtain ⟨number, decimal⟩ := decimal
  obtain ⟨value, denoted⟩ := Number.Binary64.decimal_denotes decimal
  exact ⟨value, Number.Binary64.ofText?_iff.mpr denoted⟩

structure Token.Denotes (token : Token) : Prop where
  number : token.kind = .number → ∃ value, Number.Binary64.ofText? token.value = some value
  character : token.kind = .character → token.value.toList ≠ []

theorem Written.denotes {text : List Char} {kind : Kind} {value : String} (written : Written text kind value) :
    (kind = .number → ∃ number, Number.Binary64.ofText? value = some number) ∧
      (kind = .character → value.toList ≠ []) := by
  cases written with
  | fixed alike =>
    constructor
    · intro same
      rw [same] at alike
      cases alike
    · intro same
      rw [same] at alike
      cases alike
  | name | text => exact ⟨nofun, nofun⟩
  | number numeral => exact ⟨fun _ => numeral.denotes, nofun⟩
  | character => exact ⟨nofun, fun _ => by rw [String.toList_ofList]; exact List.cons_ne_nil _ _⟩

theorem Token.IsRead.denotes {token : Token} (isRead : token.IsRead) : token.Denotes := by
  obtain ⟨text, pattern, cut, found, read⟩ := isRead
  obtain ⟨takes, -, -⟩ := Pattern.front?_takes found
  obtain ⟨number, character⟩ := (Pattern.read_written takes (Pattern.front?_ok found).1 read).denotes
  exact ⟨number, character⟩

theorem Source.scan_denotes {source : Source} {tokens : Stream} (scanned : source.scan = .ok tokens) (i : Nat) :
    (tokens.token i).Denotes :=
  scan_forall (fun _ => ⟨nofun, nofun⟩) (fun _ => ⟨nofun, nofun⟩) (fun _ => Token.IsRead.denotes) scanned i

theorem isWord_valid {c : Char} (part : c.isAlphanum = true ∨ c = '_') :
    (!Text.isBlank c && !Catalog.isPathMark c) = true := by
  have blank : Text.isBlank c = false := by
    have none : (Text.blanks.any fun d => d.isAlphanum || d == '_') = false := by decide
    refine Bool.eq_false_iff.mpr fun found => ?_
    have word := List.any_eq_false.mp none c (List.contains_iff_mem.mp found)
    simp only [Bool.or_eq_true, beq_iff_eq] at word
    exact word part
  have mark : Catalog.isPathMark c = false := by
    refine Bool.eq_false_iff.mpr fun found => ?_
    simp only [Catalog.isPathMark, Bool.or_eq_true, beq_iff_eq] at found
    rcases found with (((rfl | rfl) | rfl) | rfl) | rfl <;> revert part <;> decide
  rw [blank, mark]
  rfl

theorem Safe.valid {name : String} (safe : Safe name) : Catalog.isValidName name = true := by
  obtain ⟨first, rest, same, start, parts⟩ := safe.word
  have letter : first.isAlphanum = true ∨ first = '_' := by
    rcases start with letter | mark
    · exact .inl (by rw [Char.isAlphanum, letter, Bool.true_or])
    · exact .inr mark
  have each : (first :: rest).all (fun c => !Text.isBlank c && !Catalog.isPathMark c) = true :=
    List.all_eq_true.mpr (List.forall_mem_cons.mpr ⟨isWord_valid letter, fun c member => isWord_valid (parts c member)⟩)
  unfold Catalog.isValidName
  rw [same, each]
  rfl

theorem requireFree_taken {catalog : Catalog} {name : String} {place : Position} {error : Error}
    (valid : Catalog.isValidName name = true) (refused : catalog.requireFree name place = .error error) :
    ∃ owner, error.cause = .nameTaken name owner := by
  rcases except_bind_error refused with invalid | ⟨_, -, taken⟩
  · rw [Catalog.requireValid, if_pos valid] at invalid
    cases invalid
  · cases owned : catalog.owner? name with
    | none =>
      rw [owned] at taken
      cases taken
    | some owner =>
      rw [owned] at taken
      cases taken
      exact ⟨owner.text, rfl⟩

theorem claim_taken {catalog left : Catalog} {name : String} {owner : Owner} {place : Position} {error : Error}
    (valid : Catalog.isValidName name = true) (refused : catalog.claim name owner place = .error error left) :
    ∃ owner, error.cause = .nameTaken name owner :=
  requireFree_taken valid (Catalog.claim_error_iff.mp refused).1

-- The causes that a program can be rejected for once its files are scanned. The others would be mistakes of the
-- rules or of the checks themselves.
def Cause.IsExplained : Cause → Prop
  | .badName _ | .strayReturn | .unrecognised _ => False
  | .unexpected _ expected => expected ∉ unexplained
  | _ => True

-- Scanned tokens leave of the faults of the grammar only those that are explained. A number is at fault only where
-- an integer is wanted.
theorem Grammar.Fault.explained {source : Source} {tokens : Stream} (scanned : source.scan = .ok tokens)
    {integers : Prop} {error : Error} (fault : Fault tokens integers error) :
    error.cause.IsExplained ∧ ∀ text, error.cause = .badNumber text → integers := by
  cases fault with
  | unexpected explained => exact ⟨explained, nofun⟩
  | number literal unread =>
    obtain ⟨value, read⟩ := (source.scan_denotes scanned _).number literal
    cases unread.symm.trans read
  | character literal empty => exact absurd empty ((source.scan_denotes scanned _).character literal)
  | integer allowed => exact ⟨trivial, fun _ _ => allowed⟩
  | unnamed | badTarget | enumDecreasing | enumOverflow => exact ⟨trivial, nofun⟩
  | @claim i _ _ _ _ _ named rejected =>
    have safe : Safe (tokens.token i).value := source.scan_names scanned ⟨i, named, rfl⟩
    obtain ⟨owner, cause⟩ := claim_taken safe.valid rejected
    rw [cause]
    exact ⟨trivial, nofun⟩

theorem mapState_error {α β σ : Type} {pass : α → σ → Except Error (β × σ)} {inputs : List α} {s : σ} {error : Error}
    (failed : mapState pass inputs s = .error error) : ∃ input ∈ inputs, ∃ m, pass input m = .error error := by
  induction inputs generalizing s with
  | nil => cases failed
  | cons first others ih =>
    rcases except_bind_error failed with failed | ⟨⟨value, m⟩, -, failed⟩
    · exact ⟨first, List.mem_cons_self, s, failed⟩
    · rcases except_bind_error failed with failed | ⟨_, -, failed⟩
      · obtain ⟨input, member, found⟩ := ih failed
        exact ⟨input, List.mem_cons_of_mem _ member, found⟩
      · cases failed

theorem Pattern.read_lexical {pattern : Pattern} {cut : Cut} {cause : Cause}
    (failed : pattern.read cut = .error cause) : cause.category = .lexical := by
  cases pattern with
  | word =>
    simp only [Pattern.read, Kind.ofWord] at failed
    split at failed
    · cases failed
    · split at failed
      · cases failed
        rfl
      · cases failed
  | number | blank | lineComment | blockComment | mark => cases failed
  | openComment | openQuote =>
    cases failed
    rfl
  | quoted quote =>
    simp only [Pattern.read] at failed
    split at failed
    · cases failed
    · split at failed
      · cases failed
      · cases failed
        rfl

theorem Token.scanFrom_lexical {bound : Nat} {cursor : Cursor} {error : Error}
    (failed : scanFrom bound cursor = .error error) : error.cause.category = .lexical := by
  induction bound generalizing cursor with
  | zero => cases failed
  | succ bound ih =>
    unfold scanFrom at failed
    split at failed
    · cases failed
    · cases found : Pattern.front? cursor.rest with
      | none =>
        simp only [found] at failed
        cases failed
        rfl
      | some front =>
        obtain ⟨pattern, cut⟩ := front
        cases read : pattern.read cut with
        | error cause =>
          simp only [found, read] at failed
          cases failed
          exact Pattern.read_lexical read
        | ok taken =>
          cases taken with
          | none =>
            simp only [found, read] at failed
            exact ih failed
          | some taken =>
            simp only [found, read] at failed
            rcases except_bind_error failed with failed | ⟨_, -, failed⟩
            · exact ih failed
            · cases failed

theorem Source.scan_lexical {source : Source} {error : Error} (failed : source.scan = .error error) :
    error.cause.category = .lexical := by
  rcases except_bind_error failed with failed | ⟨_, -, failed⟩
  · rcases except_bind_error failed with failed | ⟨_, -, failed⟩
    · exact Token.scanFrom_lexical failed
    · cases failed
  · cases failed

theorem Source.scans_lexical {sources : List Source} {error : Error}
    (failed : sources.mapM Source.scan = .error error) : error.cause.category = .lexical := by
  induction sources with
  | nil => cases failed
  | cons first others ih =>
    rw [List.mapM_cons] at failed
    rcases except_bind_error failed with failed | ⟨_, -, failed⟩
    · exact scan_lexical failed
    · rcases except_bind_error failed with failed | ⟨_, -, failed⟩
      · exact ih failed
      · cases failed

theorem Source.scan_start {source : Source} {tokens : Stream} (scanned : source.scan = .ok tokens) (id : Nat)
    (catalog : Catalog) : (State.start tokens id catalog).pos < tokens.size := by
  have marked : tokens.kindAt 0 = .file := by
    unfold Stream.kindAt
    rw [source.scan_opens scanned]
    rfl
  have room : 1 < tokens.size :=
    (source.scan_scanned scanned).closed.inside (i := 0) (by rw [Stream.token_zero marked]; decide)
  show tokens.first < tokens.size
  rw [Stream.first, if_pos marked]
  exact room

theorem outlineFile_faults {source : Source} {tokens : Stream} (scanned : source.scan = .ok tokens)
    {catalog : Catalog} {error : Error} (failed : outlineFile tokens catalog = .error error) :
    Fault tokens False error := by
  have lands : Lands tokens False _ (outline tokens (.start tokens 0 catalog)) :=
    outline_lands (source.scan_scanned scanned).closed (source.scan_start scanned 0 catalog)
  unfold outlineFile at failed
  cases ran : outline tokens (.start tokens 0 catalog) with
  | ok entries t =>
    simp only [ran] at failed
    cases failed
  | error found t =>
    simp only [ran] at failed
    cases failed
    rw [ran] at lands
    cases lands with
    | error _ fault => exact fault

-- A number is at fault only while the declaration of an enumeration is read.
theorem declarations_faults {tokens : Stream} (closed : Closed tokens) {found : List Entry} {s t : State}
    {error : Error} (each : ∀ entry ∈ found, Found tokens entry) (within : ∀ entry ∈ found, entry.start < tokens.size)
    (failed : declarations found tokens s = .error error t) :
    ∃ integers, Fault tokens integers error ∧ (integers → ∃ entry ∈ found, ∃ m : State, m.pos = entry.start ∧
      tokens.next m = .enumWord ∧ enumeration tokens m = .error error t) := by
  obtain ⟨entry, member, m, start, failed⟩ := declarations_failed closed each failed
  have lands := declaration_lands closed (s := m) (start ▸ within entry member)
  rw [failed] at lands
  cases lands with
  | error _ fault =>
    refine ⟨_, fault, fun word => ⟨entry, member, m, start, word, ?_⟩⟩
    simp only [declaration, kind_bind, word] at failed
    exact failed

def Misstated (tokens : Stream) (entry : Entry) (error : Error) : Prop :=
  entry.owner = .enumeration ∧ ∃ i, entry.start ≤ i ∧ i < entry.stop ∧ Misstates tokens error i

theorem parseFile_explained {source : Source} {tokens : Stream} (scanned : source.scan = .ok tokens)
    {entries : List Entry} {before after : Catalog} (outlined : outlineFile tokens before = .ok (entries, after))
    {s : Nat × Catalog} {error : Error} (failed : parseFile (tokens, entries) s = .error error) :
    error.cause.IsExplained ∧
      ∀ text, error.cause = .badNumber text → ∃ entry ∈ entries, Misstated tokens entry error := by
  have closed := (source.scan_scanned scanned).closed
  obtain ⟨_, found, -⟩ := outlineFile_ok outlined
  obtain ⟨tiles, each⟩ := entries_tile closed found (source.scan_start scanned 0 before)
  have ran : ∃ t, declarations entries tokens (.start tokens s.1 s.2) = .error error t := by
    unfold parseFile parseStream at failed
    cases ran : wholeFile entries tokens (.start tokens s.1 s.2) with
    | ok file t =>
      simp only [ran] at failed
      cases failed
    | error fault t =>
      simp only [ran] at failed
      cases failed
      exact ⟨t, wholeFile_failed ran⟩
  obtain ⟨t, ran⟩ := ran
  obtain ⟨integers, fault, wanted⟩ := declarations_faults closed each
    (fun entry member => Nat.lt_of_lt_of_le (tiles.within.2 entry member) (Nat.sub_le _ _)) ran
  obtain ⟨explained, allowed⟩ := fault.explained scanned
  refine ⟨explained, fun text bad => ?_⟩
  obtain ⟨entry, member, m, start, word, failed⟩ := wanted (allowed text bad)
  obtain ⟨i, nested, misstates⟩ := enumeration_misstates closed failed bad
  obtain ⟨owner, low, high⟩ := (each entry member).misstated closed start word nested misstates
  exact ⟨entry, member, owner, i, low, high, misstates⟩

theorem Threads.of_mem_zip {α β σ : Type} {Pass : α → σ → β → σ → Prop} {inputs : List α} {values : List β}
    {s t : σ} (threads : Threads Pass inputs s values t) :
    ∀ pair ∈ inputs.zip values, ∃ m n, Pass pair.1 m pair.2 n := by
  induction threads with
  | nil => exact List.forall_mem_nil _
  | cons head _ ih => exact List.forall_mem_cons.mpr ⟨⟨_, _, head⟩, ih⟩

namespace Typing

def Manner.explained : Manner :=
  ⟨fun cause => cause = .strayReturn ∨ cause.IsExplained ∧ ∀ text, cause ≠ .badNumber text, True, True⟩

theorem Manner.explained_enters : Manner.explained.Enters := by
  refine ⟨⟨?_, trivial⟩, ?_, trivial⟩
  · intro cause rule
    cases cause with
    | unrecognised | unexpected | badNumber | badName | strayReturn => cases rule
    | _ => exact .inr ⟨trivial, nofun⟩
  · intro cause control
    cases cause with
    | strayReturn => exact .inl rfl
    | missingReturn | missingValue | unwantedValue => exact .inr ⟨trivial, nofun⟩
    | _ => cases control

theorem Manner.explained_binds {items : List Item}
    (valid : ∀ name ∈ items.flatMap Item.declared, Catalog.isValidName name = true) :
    Manner.explained.Binds items := by
  intro name member catalog place error refused
  obtain ⟨owner, cause⟩ := requireFree_taken (valid name member) refused
  rw [cause]
  exact .inr ⟨trivial, nofun⟩

theorem checkFunction_strayless {decl : Function} {env : Vectors} {s t : State} {error : Error}
    (bare : Stmt.BareAll decl.body) (failed : checkFunction decl env s = .error error t) :
    error.cause ≠ .strayReturn := by
  intro stray
  rcases bind_error.mp failed with failed | ⟨_, _, -, failed⟩
  · have other := ((requireKnown_runs Manner.inner_admits _ _).fails _ _ _ _ failed).1
    rw [stray] at other
    exact other rfl
  rcases bind_error.mp failed with failed | ⟨_, _, -, failed⟩
  · obtain ⟨m, inside, -⟩ := inFunction_error failed
    have earns := (checkBody_handles decl bare).fails _ _ _ _ _ rfl inside
    rw [stray] at earns
    exact earns
  · split at failed
    · cases failed
    · cases failed
      cases stray

theorem checkDeclarations_strayless {decls : List Declaration} {env : Vectors} {s t : State} {error : Error}
    (bare : ∀ decl ∈ decls, decl.Bare) (failed : checkDeclarations decls env s = .error error t) :
    error.cause ≠ .strayReturn := by
  induction decls generalizing s with
  | nil => cases failed
  | cons first others ih =>
    obtain ⟨here, later⟩ := List.forall_mem_cons.mp bare
    rcases bind_error.mp failed with failed | ⟨_, _, -, failed⟩
    · by_cases kind : ∃ decl, first = .function decl
      · obtain ⟨decl, rfl⟩ := kind
        exact checkFunction_strayless here failed
      · intro stray
        have runs := checkDeclaration_runs Manner.inner_opens fun decl same => kind ⟨decl, same⟩
        have other := (runs.fails _ _ _ _ failed).1
        rw [stray] at other
        exact other rfl
    · exact ih later failed

theorem checkDeclarations_explained {decls : List Declaration} {env : Vectors} {s t : State} {error : Error}
    (bare : ∀ decl ∈ decls, decl.Bare)
    (valid : ∀ decl ∈ decls, ∀ name ∈ decl.items.flatMap Item.declared, Catalog.isValidName name = true)
    (failed : checkDeclarations decls env s = .error error t) :
    error.cause.IsExplained ∧ ∀ text, error.cause ≠ .badNumber text := by
  have runs := checkDeclarations_runs Manner.explained_enters decls fun decl member =>
    Manner.explained_binds (valid decl member)
  exact (runs.fails _ _ _ _ failed).1.resolve_left (checkDeclarations_strayless bare failed)

end Typing

theorem files_declared {sources : List Source} {streams : List Stream}
    (scanned : sources.mapM Source.scan = .ok streams) {outlines : List (List Entry)} {s t : Nat × Catalog}
    {files : List File}
    (parsed : Threads (fun input s file t => parseFile input s = .ok (file, t)) (streams.zip outlines) s files t) :
    ∀ decl ∈ files.flatMap File.declarations, ∀ name ∈ decl.items.flatMap Item.declared,
      Catalog.isValidName name = true := by
  have known : ∀ tokens ∈ streams, ∃ source, Source.scan source = .ok tokens :=
    Source.scans_forall (fun source _ found => ⟨source, found⟩) scanned
  refine List.forall_mem_flatMap.mpr (files_each ?_ parsed)
  intro input member decl s t reads name label
  obtain ⟨source, scan⟩ := known input.1 (List.of_mem_zip member).1
  have named : name ∈ decl.names := List.mem_append_right _ (Item.mem_names.mpr (.inl label))
  exact (source.scan_names scan (reads.tokened.1 name named)).valid

theorem compile_explained {options : Options} {given : List Source} {streams : List Stream} {error : Error}
    (scanned : (options.sources given).mapM Source.scan = .ok streams)
    (failed : compile options given = .error error) :
    error.cause.IsExplained ∧ ∀ text, error.cause = .badNumber text →
      ∃ outlines named, mapState outlineFile streams .initial = .ok (outlines, named) ∧
        ∃ tokens entries, (tokens, entries) ∈ streams.zip outlines ∧
          ∃ entry ∈ entries, Misstated tokens entry error := by
  have known : ∀ tokens ∈ streams, ∃ source, Source.scan source = .ok tokens :=
    Source.scans_forall (fun source _ found => ⟨source, found⟩) scanned
  rcases except_bind_error failed with failed | ⟨found, scan, failed⟩
  · cases scanned.symm.trans failed
  cases scanned.symm.trans scan
  rcases except_bind_error failed with failed | ⟨⟨outlines, named⟩, outlined, failed⟩
  · obtain ⟨tokens, member, catalog, failed⟩ := mapState_error failed
    obtain ⟨source, scan⟩ := known tokens member
    obtain ⟨explained, never⟩ := (outlineFile_faults scan failed).explained scan
    exact ⟨explained, fun text bad => (never text bad).elim⟩
  rcases except_bind_error failed with failed | ⟨⟨files, next, entered⟩, parsed, failed⟩
  · obtain ⟨⟨tokens, entries⟩, member, m, failed⟩ := mapState_error failed
    obtain ⟨source, scan⟩ := known tokens (List.of_mem_zip member).1
    obtain ⟨_, _, outline⟩ := (mapState_threads outlined).of_mem_zip _ member
    obtain ⟨explained, misstated⟩ := parseFile_explained scan outline failed
    exact ⟨explained, fun text bad => ⟨outlines, named, outlined, tokens, entries, member, misstated text bad⟩⟩
  rcases except_bind_error failed with failed | ⟨_, -, failed⟩
  · obtain ⟨t, failed⟩ := checkProgram_error failed
    rw [Typing.checkFiles_eq] at failed
    have threads := mapState_threads parsed
    obtain ⟨explained, never⟩ := Typing.checkDeclarations_explained (declarations_bare (files_bare threads))
      (files_declared scanned threads) failed
    exact ⟨explained, fun text bad => absurd bad (never text)⟩
  · cases failed

-- A program is rejected only for what is wrong with its text. No name is found to be invalid and no `return` to
-- stand outside of a function, and nothing is expected that no rule of the grammar wants. What has been scanned
-- is not found to be unrecognisable afterwards. A number is found to be none only in an enumeration, where it is out of
-- the range of its integers, and never in an expression.
theorem failures_explained {options : Options} {given : List Source} {error : Error}
    (failed : compile options given = .error error) :
    (∀ name, error.cause ≠ .badName name) ∧
    error.cause ≠ .strayReturn ∧
    (∀ found expected, error.cause = .unexpected found expected → expected ∉ unexplained) ∧
    (∀ streams, (options.sources given).mapM Source.scan = .ok streams →
      ∀ text, error.cause ≠ .unrecognised text) ∧
    ∀ text, error.cause = .badNumber text →
      ∃ streams outlines named, (options.sources given).mapM Source.scan = .ok streams ∧
        mapState outlineFile streams .initial = .ok (outlines, named) ∧
        ∃ tokens entries, (tokens, entries) ∈ streams.zip outlines ∧
          ∃ entry ∈ entries, Misstated tokens entry error := by
  cases scanned : (options.sources given).mapM Source.scan with
  | error fault =>
    unfold compile at failed
    rw [scanned] at failed
    cases failed
    have lexical := Source.scans_lexical scanned
    generalize error.cause = cause at lexical
    cases cause with
    | unrecognised | unterminated | reserved => exact ⟨nofun, nofun, nofun, nofun, nofun⟩
    | _ => cases lexical
  | ok streams =>
    obtain ⟨explained, numbers⟩ := compile_explained scanned failed
    refine ⟨?_, ?_, ?_, ?_, ?_⟩
    · intro name bad
      rw [bad] at explained
      exact explained
    · intro stray
      rw [stray] at explained
      exact explained
    · intro found expected unmet
      rw [unmet] at explained
      exact explained
    · intro _ _ text unrecognised
      rw [unrecognised] at explained
      exact explained
    · intro text bad
      obtain ⟨outlines, named, rest⟩ := numbers text bad
      exact ⟨streams, outlines, named, rfl, rest⟩

def oversized : List Source :=
  [⟨"main.sc", "num x = 9223372036854775808; enum Size \x7b small = -1, big = 9223372036854775808 \x7d"⟩]

theorem failures_explained_oversized :
    ∃ error, compile ⟨false, []⟩ oversized = .error error ∧ error.cause = .badNumber "9223372036854775808" ∧
      ∃ streams outlines named, oversized.mapM Source.scan = .ok streams ∧
        mapState outlineFile streams .initial = .ok (outlines, named) ∧
        ∃ tokens entries, (tokens, entries) ∈ streams.zip outlines ∧
          ∃ entry ∈ entries, Misstated tokens entry error := by
  have tested : rejects (fun error => error.cause = .badNumber "9223372036854775808")
      (compile ⟨false, []⟩ oversized) = true := by
    decide +kernel
  obtain ⟨error, failed, bad⟩ := rejects_error tested
  have cause := of_decide_eq_true bad
  exact ⟨error, failed, cause, (failures_explained failed).2.2.2.2 _ cause⟩

end TypedScript
