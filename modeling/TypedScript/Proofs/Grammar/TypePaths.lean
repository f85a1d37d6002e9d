import TypedScript.Proofs.Catalog.Representation
import TypedScript.Proofs.Grammar.Adjacency
import TypedScript.Proofs.Grammar.Printing

namespace TypedScript

-- A name that a source can state a type by: the word of a builtin type, or an identifier.
def StatesType (name : String) : Prop :=
  name ∈ Kind.typeWords.map Prod.fst ∨ Lexeme.Spellable (.identifier, name)

theorem StatesType.sorted {name : String} (states : StatesType name) :
    IsWord name.toList ∧ Kind.ofWord name = .ok (Kind.ofTypeName name) := by
  rcases states with builtin | ⟨word, free, unreserved⟩
  · have words : ∀ word ∈ Kind.typeWords.map Prod.fst,
        IsWord word.toList ∧ Kind.ofWord word = .ok (Kind.ofTypeName word) := by decide
    exact words name builtin
  · have other : Kind.typeWords.lookup name = none := by
      rw [List.lookup_eq_none_iff] at free ⊢
      exact fun entry member => free entry (List.mem_of_mem_filter member)
    refine ⟨word, ?_⟩
    simp only [Kind.ofWord, free, unreserved, Kind.ofTypeName, other]
    rfl

namespace Ty

inductive Holds (whole : Ty) : Ty → Prop where
  | self : Holds whole whole
  | element {inner : Ty} (outer : Holds whole (.array inner)) : Holds whole inner
  | key {key value : Ty} (outer : Holds whole (.map key value)) : Holds whole key
  | value {key value : Ty} (outer : Holds whole (.map key value)) : Holds whole value

theorem Holds.brings {whole part : Ty} (holds : Holds whole part) : whole.Brings part := by
  induction holds with
  | self => exact .self
  | element _ ih => exact .element ih
  | key _ ih => exact .key ih
  | value _ ih => exact .value ih

def words : Ty → List Lexeme
  | named name => [(Kind.ofTypeName name, name)]
  | array element => element.words ++ [(.openBracket, "["), (.closeBracket, "]")]
  | map key value => value.words ++ (.openBracket, "[") :: (key.words ++ [(.closeBracket, "]")])

theorem words_spell (type : Ty) : Spells type.yield type.words := by
  induction type with
  | named name => exact .token .nil
  | array element ih => exact ih.append (.token (.token .nil))
  | map key value first second => exact second.append (.token (first.append (.token .nil)))

end Ty

namespace Token.Lexes

variable {rest : List Char} {words : List Lexeme}

theorem openBracket (more : Lexes rest words) : Lexes ('[' :: rest) ((.openBracket, "[") :: words) :=
  @mark rest words .openBracket "[" (by decide) (fun c _ => Pattern.goesOn_alone (by decide) c) more

theorem closeBracket (more : Lexes rest words) : Lexes (']' :: rest) ((.closeBracket, "]") :: words) :=
  @mark rest words .closeBracket "]" (by decide) (fun c _ => Pattern.goesOn_alone (by decide) c) more

-- The path of a type holds no space: a name in it stops at a bracket.
theorem path {type : Ty} (states : type.Over StatesType) (apart : ∀ c ∈ rest.head?, isWordPart c = false)
    (more : Lexes rest words) : Lexes (type.path.toList ++ rest) (type.words ++ words) := by
  have stops {bracket : Char} {after : List Char} (mark : isWordPart bracket = false) :
      ∀ c ∈ (bracket :: after).head?, isWordPart c = false := by
    intro c head
    cases head
    exact mark
  induction type generalizing rest words with
  | named name =>
    obtain ⟨word, sort⟩ := (Ty.over_named.mp states).sorted
    exact more.word word sort apart
  | array element ih =>
    have whole := ih (Ty.over_array.mp states) (stops (by decide)) more.closeBracket.openBracket
    simpa [Ty.path, Ty.words] using whole
  | map key value first second =>
    obtain ⟨keys, values⟩ := Ty.over_map.mp states
    have inner := first keys (stops (by decide)) more.closeBracket
    have whole := second values (stops (by decide)) inner.openBracket
    simpa [Ty.path, Ty.words] using whole

end Token.Lexes

namespace Grammar

theorem ReadsType.known {tokens : Stream} {type : Ty} {s t : State} (reads : ReadsType tokens type s t)
    (bracketed : type.isBracketed = true) : t.catalog.Knows type := by
  cases reads with
  | named => cases bracketed
  | array => exact Catalog.addTypes_knows _ (List.mem_singleton_self _)
  | map => exact Catalog.addTypes_knows _ (List.mem_singleton_self _)

-- The path of a type is a text of it: it is scanned and read back as the type, up to the end of the text. What the
-- type is made of is known then, if it has brackets.
theorem typePath_reads_back {type : Ty} (states : type.Over StatesType) (file : String) (nextId : Nat)
    (catalog : Catalog) :
    ∃ list t, Token.scan type.path file = .ok list ∧
      typeName .lowest list.toArray (State.start list.toArray nextId catalog) = .ok type t ∧
      t.pos + 1 = list.length ∧ (Stream.token list.toArray t.pos).kind = .endOfFile ∧
      (type.isBracketed = true → ∀ part, type.Holds part → t.catalog.knows part.path = true ∧
        ∀ key value, part = .map key value →
          t.catalog.knows key.array.path = true ∧ t.catalog.knows value.array.path = true) := by
  have lexes : Token.Lexes type.path.toList type.words := by
    have whole := Token.Lexes.nil.path states (by simp)
    rwa [List.append_nil, List.append_nil] at whole
  obtain ⟨list, scanned, whole⟩ := Stream.Whole.of_lexes lexes file
  have ends : (Stream.token list.toArray (type.words.length + 1)).kind ≠ .openBracket := by
    rw [whole.last]
    decide
  obtain ⟨_, t, ran, rfl, stop⟩ := typeName_returns (whole.spans _ type.words_spell) whole.inside ends
    (State.start list.toArray nextId catalog) whole.first
  refine ⟨list, t, scanned, ran, ?_, ?_, ?_⟩
  · rw [stop, whole.length]
  · rw [stop, whole.last]
  · intro bracketed part inner
    have known := (typeName_reads ran).known bracketed
    refine ⟨known part inner.brings.mem_parts, ?_⟩
    rintro key value rfl
    exact ⟨known _ inner.brings.keys.mem_parts, known _ inner.brings.values.mem_parts⟩

def boxIndex : Ty := .map (.array (.named "Box")) (.map .num (.array .string))

theorem typePath_reads_back_boxIndex :
    boxIndex.Over StatesType ∧ boxIndex.path = "string[][num][Box[]]" ∧
      ∃ list t, Token.scan boxIndex.path "main.sc" = .ok list ∧
        typeName .lowest list.toArray (State.start list.toArray 7 .initial) = .ok boxIndex t ∧
        t.pos = 12 ∧ list.length = 13 ∧ t.catalog.knows "Box[]" = true ∧ t.catalog.knows "Box[][]" = true ∧
        t.catalog.knows "string[][]" = true := by
  have box : Lexeme.Spellable (.identifier, "Box") := ⟨by decide, by decide, by decide⟩
  have states : boxIndex.Over StatesType := by
    simp only [boxIndex, Ty.over_map, Ty.over_array, Ty.num, Ty.string, Ty.over_named]
    exact ⟨.inr box, .inl (by decide), .inl (by decide)⟩
  obtain ⟨list, t, scanned, ran, stop, -, known⟩ := typePath_reads_back states "main.sc" 7 .initial
  obtain ⟨-, keys⟩ := known rfl boxIndex .self
  obtain ⟨-, inner⟩ := known rfl (.map .num (.array .string)) (.value .self)
  have length : yields (fun list => list.length == 13) (Token.scan boxIndex.path "main.sc") = true := by decide +kernel
  rw [scanned] at length
  have count : list.length = 13 := eq_of_beq length
  refine ⟨states, by decide, list, t, scanned, ran, by omega, count, ?_, ?_, ?_⟩
  · exact (known rfl (.array (.named "Box")) (.key .self)).1
  · exact (keys _ _ rfl).1
  · exact (inner _ _ rfl).2

end Grammar

end TypedScript
