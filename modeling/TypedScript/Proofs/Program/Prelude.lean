import TypedScript.Proofs.Program.Phases
import TypedScript.Proofs.Program.Provenance
import TypedScript.Proofs.Typing.Interfaces

namespace TypedScript

def Mark.reads : List Mark → List Lexeme → Bool
  | [], [] => true
  | token kind value :: marks, lexeme :: rest => lexeme = (kind, value) && reads marks rest
  | numeral value :: marks, lexeme :: rest =>
    lexeme.1 = .number && Number.Binary64.ofText? lexeme.2 = some value && reads marks rest
  | optionalComma :: marks, lexemes => reads marks lexemes
  | _, _ => false

theorem Mark.spells_of_reads {marks : List Mark} {lexemes : List Lexeme} (reads : Mark.reads marks lexemes = true) :
    Spells marks lexemes := by
  fun_induction Mark.reads marks lexemes with
  | case1 => exact .nil
  | case2 kind value marks lexeme rest ih =>
    simp only [Bool.and_eq_true, decide_eq_true_eq] at reads
    obtain ⟨rfl, others⟩ := reads
    exact .token (ih others)
  | case3 value marks lexeme rest ih =>
    obtain ⟨kind, text⟩ := lexeme
    simp only [Bool.and_eq_true, decide_eq_true_eq] at reads
    obtain ⟨⟨rfl, denotes⟩, others⟩ := reads
    exact .numeral (Number.Binary64.ofText?_iff.mp denotes) (ih others)
  | case4 lexemes marks ih => exact .noComma (ih reads)
  | case5 => cases reads

open Grammar

def Interface.isText (list : List Interface) (path : String) (characters : List Char) : Bool :=
  (Token.scanFrom characters.length ⟨.first path, characters⟩).toOption.any fun tokens =>
    Mark.reads (list.flatMap Interface.yield ++ [.token .endOfFile "EOF"]) (tokens.map Token.lexeme)

theorem Interface.scanned {list : List Interface} {source : Source}
    (reads : isText list source.path source.text.toList = true) :
    ∃ tokens j, source.scan = .ok tokens ∧ Spans tokens (list.flatMap Interface.yield) 1 j ∧ j < tokens.size ∧
      (tokens.token j).kind = .endOfFile := by
  unfold isText at reads
  cases ran : Token.scanFrom source.text.toList.length ⟨.first source.path, source.text.toList⟩ with
  | error error =>
    rw [ran] at reads
    cases reads
  | ok list =>
    rw [ran] at reads
    have spells := Mark.spells_of_reads reads
    have scanned : source.scan = .ok (Token.fileMarker source.path :: list).toArray :=
      except_bind_ok.mpr ⟨_, except_bind_ok.mpr ⟨list, ran, rfl⟩, rfl⟩
    have whole : Stream.lexemes (Token.fileMarker source.path :: list).toArray 1 (list.length + 1) =
        list.map Token.lexeme := by
      unfold Stream.lexemes
      rw [Nat.add_sub_cancel, List.drop_one, List.tail_cons, List.take_length]
    obtain ⟨j, before, last⟩ := Spans.split ⟨Nat.le_add_left _ _, whole.symm ▸ spells⟩
    obtain ⟨inside, kind, -, -⟩ := last.token_cons
    exact ⟨_, j, scanned, before, inside, kind⟩

theorem Source.scan_first {source : Source} {tokens : Stream} (scanned : source.scan = .ok tokens) :
    tokens.first = 1 := by
  unfold Stream.first Stream.kindAt
  rw [scan_opens scanned]
  rfl

namespace Prelude

def interfaces : List Interface :=
  [.delegate .num "Comparator" [(.object, "left"), (.object, "right")],
    .delegate .object "ArrayAt" [(.object, "items"), (.num, "index")],
    .delegate .void "ArrayPush" [(.object, "items"), (.object, "value")],
    .delegate .object "ArrayPop" [(.object, "items")],
    .delegate .num "ArrayLength" [(.object, "items")],
    .delegate .void "ArrayInsert" [(.object, "items"), (.num, "index"), (.object, "value")],
    .delegate .object "ArrayRemove" [(.object, "items"), (.num, "index")],
    .delegate .num "ArrayIndexOf" [(.object, "items"), (.object, "value")],
    .delegate .bool "ArrayContains" [(.object, "items"), (.object, "value")],
    .delegate .void "ArraySort" [(.object, "items"), (.named "Comparator", "comparator")],
    .delegate .object "ArraySlice" [(.object, "items"), (.num, "start"), (.num, "end")],
    .delegate .void "ArrayClear" [(.object, "items")],
    .struct "ArrayLib"
      [⟨.named "ArrayAt", "at", none⟩, ⟨.named "ArrayPush", "push", none⟩, ⟨.named "ArrayPop", "pop", none⟩,
        ⟨.named "ArrayLength", "length", none⟩, ⟨.named "ArrayInsert", "insert", none⟩,
        ⟨.named "ArrayRemove", "remove", none⟩, ⟨.named "ArrayIndexOf", "indexOf", none⟩,
        ⟨.named "ArrayContains", "contains", none⟩, ⟨.named "ArraySort", "sort", none⟩,
        ⟨.named "ArraySlice", "slice", none⟩, ⟨.named "ArrayClear", "clear", none⟩],
    .global (.named "ArrayLib") "array",
    .delegate .object "MapGet" [(.object, "entries"), (.object, "key")],
    .delegate .void "MapSet" [(.object, "entries"), (.object, "key"), (.object, "value")],
    .delegate .bool "MapHas" [(.object, "entries"), (.object, "key")],
    .delegate .void "MapRemove" [(.object, "entries"), (.object, "key")],
    .delegate .object "MapKeys" [(.object, "entries")],
    .delegate .object "MapValues" [(.object, "entries")],
    .delegate .num "MapSize" [(.object, "entries")],
    .delegate .void "MapClear" [(.object, "entries")],
    .struct "MapLib"
      [⟨.named "MapGet", "get", none⟩, ⟨.named "MapSet", "set", none⟩, ⟨.named "MapHas", "has", none⟩,
        ⟨.named "MapRemove", "remove", none⟩, ⟨.named "MapKeys", "keys", none⟩,
        ⟨.named "MapValues", "values", none⟩, ⟨.named "MapSize", "size", none⟩,
        ⟨.named "MapClear", "clear", none⟩],
    .global (.named "MapLib") "map",
    .delegate .num "StringLength" [(.string, "text")],
    .delegate .char "StringAt" [(.string, "text"), (.num, "index")],
    .delegate .string "StringSubstring" [(.string, "text"), (.num, "start"), (.num, "end")],
    .delegate .num "StringIndexOf" [(.string, "text"), (.string, "part")],
    .delegate (.array .string) "StringSplit" [(.string, "text"), (.string, "separator")],
    .delegate .string "StringJoin" [(.array .string, "parts"), (.string, "separator")],
    .delegate .string "StringCase" [(.string, "text")],
    .delegate .string "StringFromNum" [(.num, "value")],
    .delegate .num "StringToNum" [(.string, "text")],
    .struct "StringLib"
      [⟨.named "StringLength", "length", none⟩, ⟨.named "StringAt", "at", none⟩,
        ⟨.named "StringSubstring", "substring", none⟩, ⟨.named "StringIndexOf", "indexOf", none⟩,
        ⟨.named "StringSplit", "split", none⟩, ⟨.named "StringJoin", "join", none⟩,
        ⟨.named "StringCase", "upper", none⟩, ⟨.named "StringCase", "lower", none⟩,
        ⟨.named "StringFromNum", "fromNum", none⟩, ⟨.named "StringToNum", "toNum", none⟩],
    .global (.named "StringLib") "str",
    .delegate .num "MathUnary" [(.num, "value")],
    .delegate .num "MathBinary" [(.num, "left"), (.num, "right")],
    .delegate .num "MathRandom" [],
    .struct "MathLib"
      [⟨.num, "PI", some ⟨0x400921fb54442d18⟩⟩, ⟨.num, "E", some ⟨0x4005bf0a8b145769⟩⟩,
        ⟨.named "MathUnary", "abs", none⟩, ⟨.named "MathUnary", "floor", none⟩,
        ⟨.named "MathUnary", "ceil", none⟩, ⟨.named "MathUnary", "round", none⟩,
        ⟨.named "MathUnary", "sqrt", none⟩, ⟨.named "MathUnary", "sin", none⟩, ⟨.named "MathUnary", "cos", none⟩,
        ⟨.named "MathUnary", "tan", none⟩, ⟨.named "MathBinary", "atan2", none⟩,
        ⟨.named "MathBinary", "min", none⟩, ⟨.named "MathBinary", "max", none⟩,
        ⟨.named "MathBinary", "pow", none⟩, ⟨.named "MathRandom", "random", none⟩],
    .global (.named "MathLib") "math",
    .struct "vec2"
      [⟨.num, "x", some ⟨0x0⟩⟩, ⟨.num, "y", some ⟨0x0⟩⟩],
    .struct "vec3"
      [⟨.num, "x", some ⟨0x0⟩⟩, ⟨.num, "y", some ⟨0x0⟩⟩, ⟨.num, "z", some ⟨0x0⟩⟩]]

theorem map_toList_cons {line : String} {characters : List Char} {lines : List String} {others : List (List Char)}
    (same : line = String.ofList characters) (rest : lines.map String.toList = others) :
    (line :: lines).map String.toList = characters :: others := by
  rw [List.map_cons, same, String.toList_ofList, rest]

theorem isText_intercalate {lines : List String} {characters : List (List Char)}
    (each : lines.map String.toList = characters)
    (reads : Interface.isText interfaces path (List.intercalate ['\n'] characters) = true) :
    Interface.isText interfaces path (String.intercalate "\n" lines).toList = true := by
  rw [String.toList_intercalate, each]
  exact reads

-- The characters of each line are put in place by their literal. To take them out of the whole text would unfold
-- its encoding.
theorem text_reads : Interface.isText interfaces path text.toList = true := by
  unfold text
  apply isText_intercalate
  · repeat apply map_toList_cons rfl
    rfl
  · decide +kernel

theorem valid_of_characters {names : List String} {characters : List (List Char)}
    (each : names.map String.toList = characters)
    (fine : (characters.all fun name =>
      !name.isEmpty && name.all fun c => !Text.isBlank c && !Catalog.isPathMark c) = true) :
    ∀ name ∈ names, Catalog.isValidName name = true := by
  subst each
  rw [List.all_map] at fine
  exact List.all_eq_true.mp fine

theorem valid : ∀ interface ∈ interfaces, Catalog.isValidName interface.name = true := by
  have each : ∀ name ∈ interfaces.map Interface.name, Catalog.isValidName name = true := by
    apply valid_of_characters
    · repeat apply map_toList_cons rfl
      rfl
    · decide +kernel
  exact List.forall_mem_map.mp each

theorem distinct : (interfaces.map Interface.name).Nodup := by decide +kernel

theorem coherent : ∀ interface ∈ interfaces, interface.Coherent := by decide +kernel

-- What the phases make of the prelude. Its names are taken, whatever comes after it. Its declarations have no code,
-- so nothing else in a program changes how they are parsed, and the types that they mention stay known.
structure Accepted (tokens : Stream) (entries : List Entry) (named : Catalog) : Prop where
  scanned : Source.scan ⟨path, text⟩ = .ok tokens
  outlined : outlineFile tokens .initial = .ok (entries, named)
  taken : ∀ interface ∈ interfaces, named.owner? interface.name = some interface.owner
  parsed : ∀ s, ∃ file t, parseFile (tokens, entries) s = .ok (file, t) ∧
    List.Forall₂ Interface.Makes interfaces file.declarations ∧ ∀ catalog, t.2.Extends catalog → ∀ env,
      ∃ m, Typing.checkDeclarations file.declarations env (.start catalog) = .ok () m

theorem accepted : ∃ tokens entries named, Accepted tokens entries named := by
  obtain ⟨tokens, j, scanned, spans, inside, ended⟩ := @Interface.scanned interfaces ⟨path, text⟩ text_reads
  have worded := Source.scan_worded scanned
  have closed := (Source.scan_scanned scanned).closed
  have enough : j - 1 < tokens.size + 1 := by omega
  obtain ⟨entries, m, outlined, lists, -, taken⟩ := interfaces_outlined closed valid distinct spans inside ended
    (s := .start tokens 0 .initial) (Source.scan_first scanned) enough (fun _ _ => rfl)
  have outline : outlineFile tokens .initial = .ok (entries, m.catalog) := by
    unfold outlineFile outline bounded
    rw [outlined]
  refine ⟨tokens, entries, m.catalog, scanned, outline, taken, ?_⟩
  intro s
  obtain ⟨decls, t, parsed, makes⟩ := interfaces_parsed lists (.start tokens s.1 s.2)
  have known := (declarations_reads parsed).knows worded makes
  refine ⟨⟨tokens.file, decls⟩, (t.nextId, t.catalog), ?_, makes, ?_⟩
  · unfold parseFile parseStream wholeFile
    dsimp only
    rw [bind_of_ok parsed]
    rfl
  · intro catalog grown env
    exact Typing.checkDeclarations_pass env makes coherent fun interface member type found =>
      grown.knows (known interface member type found)

end Prelude

end TypedScript
