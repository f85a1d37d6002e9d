import TypedScript.Proofs.Token.Segments
import TypedScript.Proofs.Tree.Yield

namespace TypedScript

namespace Text

def escapeChar (quote c : Char) : List Char :=
  if c = '\\' ∨ c = quote then ['\\', c] else if c = '\n' then ['\\', 'n'] else [c]

def escape (quote : Char) (value : List Char) : List Char := value.flatMap (escapeChar quote)

theorem unescapeFrom_escapeChar {quote : Char} (known : escaped? quote = some quote) (c : Char) (rest : List Char) :
    unescapeFrom .plain (escapeChar quote c ++ rest) = c :: unescapeFrom .plain rest := by
  unfold escapeChar
  split
  · rename_i special
    rcases special with rfl | rfl
    · rfl
    · simp [unescapeFrom, known]
  · split
    · rename_i feed
      subst feed
      rfl
    · rename_i plain _
      simp [unescapeFrom, (not_or.mp plain).1]

theorem unescape_escape {quote : Char} (known : escaped? quote = some quote) (value : List Char) :
    unescape (escape quote value) = value := by
  induction value with
  | nil => rfl
  | cons c rest ih =>
    have first := unescapeFrom_escapeChar known c (escape quote rest)
    exact first.trans (congrArg (c :: ·) ih)

theorem escape_body {quote : Char} (level : quote ≠ '\n') (value : List Char) : IsBody quote (escape quote value) := by
  induction value with
  | nil => exact .nil
  | cons c rest ih =>
    show IsBody quote (escapeChar quote c ++ escape quote rest)
    unfold escapeChar
    split
    · rename_i special
      refine .escape ?_ ih
      rcases special with rfl | rfl
      · decide
      · exact level
    · rename_i plain
      split
      · exact .escape (by decide) ih
      · rename_i feed
        exact .plain (not_or.mp plain).2 (not_or.mp plain).1 feed ih

end Text

namespace Lexeme

def spell : Lexeme → List Char
  | (.text, value) => '"' :: (Text.escape '"' value.toList ++ ['"'])
  | (.character, value) => '\'' :: (Text.escape '\'' value.toList ++ ['\''])
  | (_, value) => value.toList

def Spellable : Lexeme → Prop
  | (.file, _) | (.endOfFile, _) => False
  | (.identifier, value) =>
    IsWord value.toList ∧ Kind.keywords.lookup value = none ∧ Kind.reserved.contains value = false
  | (.number, value) => IsNumeral value.toList
  | (.text, _) => True
  | (.character, value) => ∃ c, value = String.ofList [c]
  | (kind, value) => value = kind.spelling

def source (words : List Lexeme) : List Char := [' '].intercalate (words.map spell)

theorem source_single (word : Lexeme) : source [word] = word.spell := by simp [source, List.intercalate]

theorem source_cons (word second : Lexeme) (others : List Lexeme) :
    source (word :: second :: others) = word.spell ++ ' ' :: source (second :: others) := by
  simp [source, List.intercalate]

theorem spell_written {word : Lexeme} (spellable : word.Spellable) : Written word.spell word.1 word.2 := by
  obtain ⟨kind, value⟩ := word
  cases kind with
  | file | endOfFile => exact spellable.elim
  | identifier =>
    obtain ⟨word, free, unreserved⟩ := spellable
    rw [← @String.ofList_toList value] at free unreserved
    have written := Written.name word free unreserved
    rwa [String.ofList_toList] at written
  | number =>
    have written := Written.number spellable
    rwa [String.ofList_toList] at written
  | text =>
    have written := Written.text (Text.escape_body (show '"' ≠ '\n' by decide) value.toList)
    rwa [Text.unescape_escape rfl, String.ofList_toList] at written
  | character =>
    obtain ⟨c, rfl⟩ := spellable
    have single : Text.unescape (Text.escape '\'' [c]) = [c] := Text.unescape_escape rfl [c]
    have written := Written.character (Text.escape_body (show '\'' ≠ '\n' by decide) [c]) single
    rwa [spell, String.toList_ofList]
  | _ =>
    cases spellable
    exact .fixed rfl

end Lexeme

theorem Text.not_isBlank {c : Char}
    (solid : isWordStart c = true ∨ Number.isDigit c = true ∨ c = '"' ∨ c = '\'') : isBlank c = false := by
  have blanks : (blanks.all fun c => !isWordStart c && !Number.isDigit c && c != '"' && c != '\'') = true := by decide
  cases blank : isBlank c with
  | false => rfl
  | true =>
    have apart := List.all_eq_true.mp blanks c (List.contains_iff_mem.mp blank)
    simp only [Bool.and_eq_true, Bool.not_eq_true', bne_iff_ne, and_assoc] at apart
    obtain ⟨notWord, notDigit, notText, notCharacter⟩ := apart
    rw [notWord, notDigit] at solid
    simp [notText, notCharacter] at solid

theorem Written.head {text : List Char} {kind : Kind} {value : String} (written : Written text kind value) :
    ∃ c rest, text = c :: rest ∧ Text.isBlank c = false := by
  have ofWord {text : List Char} (word : IsWord text) : ∃ c rest, text = c :: rest ∧ Text.isBlank c = false := by
    cases text with
    | nil => exact word.elim
    | cons c rest => exact ⟨c, rest, rfl, Text.not_isBlank (.inl word.1)⟩
  cases written with
  | fixed alike =>
    rcases Kind.mark_or_keyword alike with marked | keyword
    · obtain ⟨c, rest, shown, -, -, solid, -⟩ := Pattern.mark_head marked
      exact ⟨c, rest, shown, solid⟩
    · exact ofWord (Kind.keyword_word keyword).1
  | name word free unreserved => exact ofWord word
  | number numeral =>
    have takes : Pattern.number.Takes text := numeral
    cases text with
    | nil => exact (takes.ne_nil (by decide) rfl).elim
    | cons c rest => exact ⟨c, rest, rfl, Text.not_isBlank (.inr (.inl takes.head_begins))⟩
  | text inside => exact ⟨_, _, rfl, rfl⟩
  | character inside single => exact ⟨_, _, rfl, rfl⟩

theorem Pattern.front?_space {rest : List Char} (solid : ∀ c ∈ rest.head?, Text.isBlank c = false) :
    front? (' ' :: rest) = some (.blank, ([' '], rest)) := by
  have cuts : blank.cut? (' ' :: rest) = some ([' '], rest) := by
    have only := @span_of_forall Text.isBlank [] rest nofun solid
    show some (Cut.cons ' ' (Cut.span Text.isBlank rest)) = _
    rw [List.nil_append] at only
    rw [only]
    rfl
  refine front?_eq (show all = [word, number] ++ .blank :: all.drop 3 from rfl) ?_ cuts
  have others : ∀ other ∈ [word, number], other ∈ all ∧ other.begins ' ' = false := by decide
  exact fun other early => cut?_none (others other early).1 (others other early).2

theorem Lexeme.source_solid {words : List Lexeme} (spellable : ∀ word ∈ words, word.Spellable) :
    ∀ c ∈ (source words).head?, Text.isBlank c = false := by
  cases words with
  | nil => nofun
  | cons word others =>
    obtain ⟨c, rest, shown, solid⟩ := (spell_written (spellable word List.mem_cons_self)).head
    have begins : (source (word :: others)).head? = some c := by
      cases others with
      | nil => rw [source_single, shown]; rfl
      | cons second others => rw [source_cons, shown]; rfl
    intro d head
    rw [begins] at head
    cases head
    exact solid

namespace Token

open Lexeme

theorem scans_word {word : Lexeme} {rest : List Char} {place : Position} (spellable : word.Spellable)
    (apart : Apart rest) {tokens : List Token} (more : Scans ⟨place.after word.spell, rest⟩ tokens) :
    Scans ⟨place, word.spell ++ rest⟩ (⟨word.1, word.2, ⟨place, place.after word.spell⟩⟩ :: tokens) := by
  obtain ⟨pattern, found, read⟩ := (spell_written spellable).front?_read apart
  exact .step found read more

theorem scans_space {rest : List Char} {place : Position} (solid : ∀ c ∈ rest.head?, Text.isBlank c = false)
    {tokens : List Token} (more : Scans ⟨place.after [' '], rest⟩ tokens) : Scans ⟨place, ' ' :: rest⟩ tokens := by
  have found : Pattern.front? (Cursor.mk place (' ' :: rest)).rest = some (.blank, ([' '], rest)) :=
    Pattern.front?_space solid
  exact .step found rfl more

-- By induction on the words. The place can be any, since only kinds and values come back.
theorem scans_source {words : List Lexeme} (spellable : ∀ word ∈ words, word.Spellable) (place : Position) :
    ∃ tokens, Scans ⟨place, source words⟩ tokens ∧ tokens.map lexeme = words ++ [(.endOfFile, "EOF")] := by
  induction words generalizing place with
  | nil => exact ⟨_, .done, rfl⟩
  | cons word others ih =>
    obtain ⟨here, later⟩ := List.forall_mem_cons.mp spellable
    cases others with
    | nil =>
      have scans := scans_word here (nofun : Apart []) (@Scans.done (place.after word.spell))
      rw [List.append_nil, ← source_single] at scans
      exact ⟨_, scans, rfl⟩
    | cons second others =>
      obtain ⟨tokens, scans, same⟩ := ih later ((place.after word.spell).after [' '])
      refine ⟨_, scans_word here ?_ (scans_space ?_ scans), congrArg (word :: ·) same⟩
      · rintro _ ⟨⟩
        rfl
      · exact source_solid later

theorem scan_undoes_spelling {words : List Lexeme} (spellable : ∀ word ∈ words, word.Spellable) (file : String) :
    ∃ tokens, scan (String.ofList (source words)) file = .ok tokens ∧
      tokens.map lexeme = (.file, file) :: words ++ [(.endOfFile, "EOF")] := by
  obtain ⟨tokens, scans, same⟩ := scans_source spellable (.first file)
  have start : Cursor.start (String.ofList (source words)) file = ⟨.first file, source words⟩ :=
    congrArg (Cursor.mk (.first file)) String.toList_ofList
  refine ⟨fileMarker file :: tokens, scan_ok.mpr ⟨tokens, ?_, rfl⟩, congrArg ((Kind.file, file) :: ·) same⟩
  rwa [start]

-- Marks that would run together, and a text that ends in what looks like a comment.
def closeWords : List Lexeme :=
  [(.slash, "/"), (.star, "*"), (.assign, "="), (.equals, "=="), (.ifWord, "if"), (.identifier, "iffy_2"),
    (.number, "10.50"), (.dot, "."), (.text, "\\x41\\\"\n//"), (.character, "'"), (.character, "\n")]

theorem scan_undoes_spelling_closeWords :
    (∀ word ∈ closeWords, Lexeme.Spellable word) ∧
      source closeWords = "/ * = == if iffy_2 10.50 . \"\\\\x41\\\\\\\"\\n//\" '\\'' '\\n'".toList ∧
      ∃ tokens, scan (String.ofList (source closeWords)) "main.sc" = .ok tokens ∧
        tokens.map lexeme = (.file, "main.sc") :: closeWords ++ [(.endOfFile, "EOF")] := by
  have numeral : IsNumeral "10.50".toList :=
    .inr ⟨['1', '0'], ['5', '0'], ⟨nofun, List.all_eq_true.mp rfl⟩, ⟨nofun, List.all_eq_true.mp rfl⟩, rfl⟩
  have name : Lexeme.Spellable (.identifier, "iffy_2") :=
    ⟨by decide, by decide, by decide⟩
  have spellable : ∀ word ∈ closeWords, Lexeme.Spellable word := by
    simp only [closeWords, List.forall_mem_cons]
    exact ⟨rfl, rfl, rfl, rfl, rfl, name, numeral, rfl, trivial, ⟨'\'', rfl⟩, ⟨'\n', rfl⟩, nofun⟩
  exact ⟨spellable, by decide +kernel, scan_undoes_spelling spellable "main.sc"⟩

end Token

end TypedScript
