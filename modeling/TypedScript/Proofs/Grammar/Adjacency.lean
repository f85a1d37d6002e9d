import TypedScript.Proofs.Grammar.Spans
import TypedScript.Proofs.Token.Respelling

namespace TypedScript

theorem Pattern.goesOn_alone {spelling : List Char} (alone : ∀ stem ∈ stems, spelling <+: stem → stem = spelling)
    (c : Char) : goesOn spelling c = false := by
  cases goes : goesOn spelling c with
  | false => rfl
  | true =>
    obtain ⟨stem, member, longer⟩ := List.any_eq_true.mp goes
    have begins := List.isPrefixOf_iff_prefix.mp longer
    have same := alone stem member ((List.prefix_append _ _).trans begins)
    have less := begins.length_le
    rw [same, List.length_append] at less
    exact absurd less (Nat.not_succ_le_self _)

theorem Pattern.goesOn_digit {c : Char} (digit : Number.isDigit c = true) (spelling : List Char) :
    goesOn spelling c = false := by
  have marks : (stems.all fun stem => stem.all fun d => !Number.isDigit d) = true := by decide
  cases goes : goesOn spelling c with
  | false => rfl
  | true =>
    obtain ⟨stem, member, longer⟩ := List.any_eq_true.mp goes
    have begins := List.isPrefixOf_iff_prefix.mp longer
    have inside := begins.subset (List.mem_append_right spelling (List.mem_singleton_self c))
    have other := List.all_eq_true.mp (List.all_eq_true.mp marks stem member) c inside
    rw [digit] at other
    cases other

namespace Token

-- The tokens that are scanned from a text, wherever it stands. What comes next in the text decides where a token
-- stops, so a text is put together from its end.
def Lexes (text : List Char) (words : List Lexeme) : Prop :=
  ∀ place, ∃ tokens, Scans ⟨place, text⟩ tokens ∧ tokens.map lexeme = words ++ [(.endOfFile, "EOF")]

variable {text rest : List Char} {words : List Lexeme} {kind : Kind} {value : String}

namespace Lexes

theorem nil : Lexes [] [] := fun _ => ⟨_, .done, rfl⟩

theorem step {pattern : Pattern} (found : Pattern.front? (text ++ rest) = some (pattern, (text, rest)))
    (read : pattern.read (text, rest) = .ok (some (kind, value))) (more : Lexes rest words) :
    Lexes (text ++ rest) ((kind, value) :: words) := by
  intro place
  obtain ⟨tokens, scans, same⟩ := more (place.after text)
  exact ⟨_, .step found read scans, congrArg ((kind, value) :: ·) same⟩

theorem word (word : IsWord value.toList) (sort : Kind.ofWord value = .ok kind)
    (apart : ∀ c ∈ rest.head?, isWordPart c = false) (more : Lexes rest words) :
    Lexes (value.toList ++ rest) ((kind, value) :: words) := by
  apply more.step (Pattern.front?_word word apart)
  simp only [Pattern.read, String.ofList_toList, sort]
  rfl

theorem mark (member : (kind, value) ∈ Kind.marks) (apart : ∀ c ∈ rest.head?, Pattern.goesOn value.toList c = false)
    (more : Lexes rest words) : Lexes (value.toList ++ rest) ((kind, value) :: words) :=
  more.step (Pattern.front?_mark member apart) rfl

theorem number (numeral : IsNumeral value.toList)
    (apart : ∀ c ∈ rest.head?, Number.isDigit c = false ∧ c ≠ '.') (more : Lexes rest words) :
    Lexes (value.toList ++ rest) ((.number, value) :: words) := by
  apply more.step (Pattern.front?_number numeral apart)
  simp only [Pattern.read, String.ofList_toList]

theorem space (solid : ∀ c ∈ rest.head?, Text.isBlank c = false) (more : Lexes rest words) :
    Lexes (' ' :: rest) words := by
  intro place
  obtain ⟨tokens, scans, same⟩ := more (place.after [' '])
  exact ⟨tokens, scans_space solid scans, same⟩

theorem spaced {before : List Lexeme} (spellable : ∀ word ∈ before, word.Spellable)
    (solid : ∀ c ∈ rest.head?, Text.isBlank c = false) (more : Lexes rest words) :
    Lexes (before.flatMap (fun word => word.spell ++ [' ']) ++ rest) (before ++ words) := by
  induction before with
  | nil => exact more
  | cons word others ih =>
    obtain ⟨here, later⟩ := List.forall_mem_cons.mp spellable
    have next : ∀ c ∈ (others.flatMap (fun word => word.spell ++ [' ']) ++ rest).head?, Text.isBlank c = false := by
      cases others with
      | nil => exact solid
      | cons second others =>
        obtain ⟨c, spelled, shown, other⟩ := (Lexeme.spell_written (later second List.mem_cons_self)).head
        intro d head
        rw [List.flatMap_cons, shown] at head
        cases head
        exact other
    have apart : Apart (' ' :: (others.flatMap (fun word => word.spell ++ [' ']) ++ rest)) := by
      intro c head
      cases head
      rfl
    obtain ⟨pattern, found, read⟩ := (Lexeme.spell_written here).front?_read apart
    have whole := ((ih later).space next).step found read
    simpa using whole

theorem scan (lexes : Lexes value.toList words) (file : String) :
    ∃ tokens, Token.scan value file = .ok (fileMarker file :: tokens) ∧
      tokens.map lexeme = words ++ [(.endOfFile, "EOF")] := by
  obtain ⟨tokens, scans, same⟩ := lexes (.first file)
  exact ⟨tokens, scan_ok.mpr ⟨tokens, scans, rfl⟩, same⟩

end Lexes

end Token

namespace Grammar

structure Stream.Whole (list : List Token) (words : List Lexeme) : Prop where
  first : Stream.first list.toArray = 1
  length : list.length = words.length + 2
  last : (Stream.token list.toArray (words.length + 1)).kind = .endOfFile
  spans : ∀ marks, Spells marks words → Spans list.toArray marks 1 (words.length + 1)

theorem Stream.Whole.of_lexes {source : String} {words : List Lexeme} (lexes : Token.Lexes source.toList words)
    (file : String) : ∃ list, Token.scan source file = .ok list ∧ Stream.Whole list words := by
  obtain ⟨tokens, scanned, same⟩ := lexes.scan file
  have length : tokens.length = words.length + 1 := by simpa using congrArg List.length same
  refine ⟨_, scanned, rfl, by simp [length], ?_, ?_⟩
  · have inside : words.length + 1 < (Token.fileMarker file :: tokens).toArray.size := by simp [length]
    have final : (tokens.map Token.lexeme)[words.length]? = some (.endOfFile, "EOF") := by simp [same]
    rw [List.getElem?_map, List.getElem?_eq_getElem (by omega)] at final
    rw [Stream.token_eq inside]
    exact congrArg Prod.fst (Option.some.inj final)
  · intro marks spells
    have inner : Stream.lexemes (Token.fileMarker file :: tokens).toArray 1 (words.length + 1) = words := by
      unfold Stream.lexemes
      rw [Nat.add_sub_cancel, List.drop_one, List.tail_cons, List.map_take, same, List.take_left]
    exact ⟨Nat.le_add_left 1 _, inner.symm ▸ spells⟩

theorem Stream.Whole.inside {list : List Token} {words : List Lexeme} (whole : Stream.Whole list words) :
    words.length + 1 < list.toArray.size := by
  rw [List.size_toArray, whole.length]
  exact Nat.lt_succ_self _

end Grammar

end TypedScript
