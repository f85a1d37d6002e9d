import TypedScript.Program.Compile
import TypedScript.Proofs.Grammar.Adjacency
import TypedScript.Proofs.Grammar.MemberValues

namespace TypedScript

open Number.Signed64 (least greatest)

namespace SignedNumeral

def ofInt (value : Int) : SignedNumeral := ⟨value < 0, value.natAbs.repr⟩

theorem ofInt_digits (value : Int) : AreDigits (ofInt value).digits.toList := (Number.repr_digits value.natAbs).1

theorem ofInt_magnitude (value : Int) : (ofInt value).magnitude = value.natAbs := (Number.repr_digits value.natAbs).2

theorem ofInt_value (value : Int) : (ofInt value).value = value := by
  unfold SignedNumeral.value
  rw [ofInt_magnitude]
  simp only [ofInt, decide_eq_true_eq]
  split <;> omega

def spell (numeral : SignedNumeral) : List Char :=
  if numeral.negated then '-' :: numeral.digits.toList else numeral.digits.toList

theorem ofInt_spell (value : Int) : (ofInt value).spell = (toString value).toList := by
  rw [Int.toString_eq_repr]
  cases value with
  | ofNat number => simp [spell, ofInt, Int.repr]
  | negSucc number => simp [spell, ofInt, Int.repr, Int.negSucc_lt_zero]

def words (numeral : SignedNumeral) : List Lexeme :=
  if numeral.negated then [(.dash, "-"), (.number, numeral.digits)] else [(.number, numeral.digits)]

variable {numeral : SignedNumeral} {rest : List Char} {words : List Lexeme}

theorem spell_solid (digits : AreDigits numeral.digits.toList) (c : Char) (head : c ∈ (numeral.spell ++ rest).head?) :
    Text.isBlank c = false := by
  unfold spell at head
  split at head
  · cases head
    rfl
  · obtain ⟨d, others, shown, digit⟩ := IsNumeral.head (.inl digits)
    rw [shown] at head
    cases head
    exact Text.not_isBlank (.inr (.inl digit))

theorem lexes (digits : AreDigits numeral.digits.toList)
    (apart : ∀ c ∈ rest.head?, Number.isDigit c = false ∧ c ≠ '.') (more : Token.Lexes rest words) :
    Token.Lexes (numeral.spell ++ rest) (numeral.words ++ words) := by
  have number := more.number (.inl digits) apart
  unfold spell SignedNumeral.words
  split
  · obtain ⟨d, others, shown, digit⟩ := IsNumeral.head (.inl digits)
    rw [shown] at number ⊢
    refine @Token.Lexes.mark _ _ .dash "-" (by decide) ?_ number
    intro c head
    cases head
    exact Pattern.goesOn_digit digit _
  · exact number

end SignedNumeral

def enumSource (value : Int) : String := "enum E \x7b A = " ++ toString value ++ " \x7d"

def enumOpening : List Lexeme :=
  [(.enumWord, "enum"), (.identifier, "E"), (.openCurly, "\x7b"), (.identifier, "A"), (.assign, "=")]

def enumWords (value : Int) : List Lexeme :=
  enumOpening ++ ((SignedNumeral.ofInt value).words ++ [(.closeCurly, "\x7d")])

theorem enumOpening_spellable : ∀ word ∈ enumOpening, word.Spellable := by
  simp only [enumOpening, List.forall_mem_cons]
  exact ⟨rfl, ⟨by decide, by decide, by decide⟩, rfl, ⟨by decide, by decide, by decide⟩, rfl, List.forall_mem_nil _⟩

theorem enumSource_lexes (value : Int) : Token.Lexes (enumSource value).toList (enumWords value) := by
  have digits := SignedNumeral.ofInt_digits value
  have last : Token.Lexes [' ', '\x7d'] [(.closeCurly, "\x7d")] := by
    refine .space (by simp; decide) ?_
    exact @Token.Lexes.mark [] [] .closeCurly "\x7d" (by decide) (by simp) .nil
  have stated := SignedNumeral.lexes digits (by simp; decide) last
  have whole := stated.spaced enumOpening_spellable (SignedNumeral.spell_solid digits)
  have opening : "enum E \x7b A = ".toList = enumOpening.flatMap (fun word => word.spell ++ [' ']) := by decide
  have closing : " \x7d".toList = [' ', '\x7d'] := rfl
  rw [enumSource, String.toList_append, String.toList_append, opening, closing, ← SignedNumeral.ofInt_spell,
    List.append_assoc]
  exact whole

def Mark.isPlain : Mark → Bool
  | token kind _ => kind.isPlain false
  | numeral _ | optionalComma => true

theorem MemberText.listed_plain (texts : List MemberText) :
    ∀ mark ∈ Mark.listed yield texts, mark.isPlain = true := by
  induction texts with
  | nil => exact List.forall_mem_nil _
  | cons text others ih =>
    have value : ∀ mark ∈ text.valueYield, mark.isPlain = true := by
      unfold valueYield
      cases text.stated with
      | none => exact List.forall_mem_nil _
      | some numeral =>
        refine List.forall_mem_cons.mpr ⟨rfl, ?_⟩
        unfold SignedNumeral.yield
        split
        · exact List.forall_mem_cons.mpr ⟨rfl, List.forall_mem_singleton.mpr rfl⟩
        · exact List.forall_mem_singleton.mpr rfl
    have comma : (Mark.separator others).isPlain = true := by cases others <;> rfl
    simp only [Mark.listed, yield, List.cons_append, List.forall_mem_cons, List.forall_mem_append]
    exact ⟨rfl, value, comma, ih⟩

namespace Grammar

open MemberText

variable {tokens : Stream} {i j : Nat} {s : State} {name : String} {texts : List MemberText}

theorem Spans.nested {marks : List Mark} (plain : ∀ mark ∈ marks, mark.isPlain = true) (spans : Spans tokens marks i j)
    (inside : j < tokens.size) : Nested tokens false i j := by
  induction marks generalizing i with
  | nil =>
    cases spans.nil_eq inside
    exact .nil
  | cons mark others ih =>
    obtain ⟨here, later⟩ := List.forall_mem_cons.mp plain
    cases mark with
    | token kind value =>
      obtain ⟨-, same, -, rest⟩ := spans.token_cons
      refine .plain ?_ (ih later rest)
      rw [same]
      exact here
    | numeral value =>
      obtain ⟨-, same, -, rest⟩ := spans.numeral_cons
      refine .plain ?_ (ih later rest)
      rw [same]
      rfl
    | optionalComma =>
      rcases spans.comma_cons with ⟨-, same, rest⟩ | rest
      · refine .plain ?_ (ih later rest)
        rw [same]
        rfl
      · exact ih later rest

theorem enumeration_enlists (closed : Closed tokens) (valid : Catalog.isValidName name = true)
    (spans : Spans tokens (enumYield name texts) i j) (inside : j < tokens.size) :
    Enlists tokens outlineDeclaration .enumeration name i j := by
  obtain ⟨m, rfl, word, opener, closer, members, keyword, -⟩ := enumeration_frame spans inside
  have body : Returns tokens skipBody (fun _ => True) (i + 2) (m + 1) := by
    intro s here
    have opened : tokens.next s = .openCurly := by rw [Stream.next, here, opener]
    have inner : Nested tokens true (s.step tokens).pos (State.mk m 0 .initial).pos := by
      rw [closed.step_pos (by rw [opened]; decide), here]
      exact (members.nested (listed_plain texts) (Nat.lt_of_succ_lt inside)).weaken
    have after : ((State.mk m 0 .initial).step tokens).pos = m + 1 :=
      closed.step_pos (by rw [Stream.next, closer]; decide)
    exact ⟨(), _, skipBody_nested closed opened rfl inner closer, trivial, after⟩
  refine .bind .kind .kind ?_
  rintro next rfl
  rw [word]
  refine .bind (.keywordName _) keyword ?_
  rintro found rfl
  exact .claim valid _ (.bind body fun _ _ => .pure rfl)

theorem outline_single {owner : Owner} (enlists : Enlists tokens outlineDeclaration owner name i j) (here : s.pos = i)
    (free : s.catalog.owner? name = none) (first : i < tokens.size) (live : (tokens.token i).kind ≠ .endOfFile)
    (ended : (tokens.token j).kind = .endOfFile) : ∃ t, outline tokens s = .ok [⟨owner, name, i, j⟩] t := by
  subst here
  obtain ⟨t, ran, there⟩ := enlists s rfl free
  have more : (decide (s.pos < tokens.size) && decide (tokens.next s ≠ .endOfFile)) = true := by
    simp [Stream.next, first, live]
  have finished : ¬(decide (t.pos < tokens.size) && decide (tokens.next t ≠ .endOfFile)) = true := by
    rw [Stream.next, there, ended]
    simp
  obtain ⟨bound, count⟩ : ∃ bound, tokens.size = bound + 1 := ⟨tokens.size - 1, by omega⟩
  have rest : entries (bound + 1) tokens t = .ok [] t := by
    rw [entries, more_bind, if_neg finished]
    rfl
  refine ⟨t, ?_⟩
  rw [outline, bounded, count, entries, more_bind, if_pos more, index_bind, bind_of_ok ran]
  dsimp only
  rw [index_bind, bind_of_ok rest, there]
  rfl

theorem wholeFile_single (entry : Entry) {wanted : Declaration → Prop}
    (returns : Returns tokens declaration wanted entry.start entry.stop) (s : State) :
    ∃ decl t, wholeFile [entry] tokens s = .ok ⟨tokens.file, [decl]⟩ t ∧ wanted decl := by
  obtain ⟨decl, t, ran, right, there⟩ := returns (s.moved entry.start) rfl
  refine ⟨decl, t, ?_, right⟩
  have parsed : declarations [entry] tokens s = .ok [decl] t := by
    rw [declarations, seek_bind, bind_of_ok ran, index_bind, if_pos there]
    rfl
  rw [wholeFile, bind_of_ok parsed]
  rfl

theorem wholeFile_raises (entry : Entry) {cause : Cause} (raises : Raises tokens declaration cause entry.start)
    (s : State) : ∃ place t, wholeFile [entry] tokens s = .error ⟨cause, place⟩ t := by
  obtain ⟨place, t, failed⟩ := raises (s.moved entry.start) rfl
  refine ⟨place, t, ?_⟩
  have parsed : declarations [entry] tokens s = .error ⟨cause, place⟩ t := by
    rw [declarations, seek_bind, bind_of_error failed]
  rw [wholeFile, bind_of_error parsed]

section
variable {numeral : SignedNumeral} (unread : Number.Signed64.ofText? numeral.digits = none)
include unread

theorem integer_misreads (inside : i < tokens.size) (number : (tokens.token i).kind = .number)
    (value : (tokens.token i).value = numeral.digits) : Raises tokens integer (.badNumber numeral.digits) i := by
  refine .after (.expect inside number) ?_
  rintro _ rfl
  simp only [value, unread]
  exact .raise _

theorem signedInteger_misreads (spans : Spans tokens numeral.yield i j) :
    Raises tokens signedInteger (.badNumber numeral.digits) i := by
  unfold SignedNumeral.yield at spans
  split at spans
  · obtain ⟨first, dash, -, spans⟩ := spans.token_cons
    obtain ⟨second, number, value, -⟩ := spans.token_cons
    exact .kind_is dash (.after (.skip first) fun _ _ => (integer_misreads unread second number value).first)
  · obtain ⟨first, number, value, -⟩ := spans.token_cons
    exact .kind_is number (integer_misreads unread first number value)

-- The digits are read before the minus counts, so that an integer of 64 bits is refused if its magnitude is none.
theorem enumeration_misreads {member : String} (spans : Spans tokens (enumYield name [⟨member, some numeral⟩]) i j)
    (inside : j < tokens.size) : Raises tokens enumeration (.badNumber numeral.digits) i := by
  obtain ⟨m, rfl, -, -, -, members, -, -⟩ := enumeration_frame spans inside
  obtain ⟨first, word, -, rest⟩ := members.token_cons
  obtain ⟨second, sign, -, rest⟩ := rest.token_cons
  obtain ⟨_, stated, -⟩ := Spans.split rest
  have valued (found : Token) : Raises tokens (memberValue found none) (.badNumber numeral.digits) (i + 3 + 1) :=
    .kind_is sign (.after (.skip second) fun _ _ => .after .place fun _ _ => (signedInteger_misreads unread stated).first)
  have member : Raises tokens (enumMember none) (.badNumber numeral.digits) (i + 3) :=
    .after (.expect first word) fun found _ => (valued found).first
  exact enumeration_raises_of_members spans inside (.kind_is word member.first)

end

end Grammar

section
variable {text path : String} {tokens : Grammar.Stream} {entries : List Grammar.Entry} {named : Grammar.State}
  (scanned : Source.scan ⟨path, text⟩ = .ok tokens)
  (outlined : Grammar.outline tokens (.start tokens 0 .initial) = .ok entries named)
include scanned outlined

theorem parseAlone_of_ok {file : File} {t : Grammar.State}
    (parsed : Grammar.wholeFile entries tokens (.start tokens 0 named.catalog) = .ok file t) :
    parseAlone text path = .ok (file, t.nextId, t.catalog) := by
  unfold parseAlone
  rw [scanned]
  simp only [Except.mapError, bind, Except.bind, outlined, parseStream, parsed]

theorem parseAlone_of_error {error : Error} {t : Grammar.State}
    (failed : Grammar.wholeFile entries tokens (.start tokens 0 named.catalog) = .error error t) :
    parseAlone text path = .error (error, t.catalog) := by
  unfold parseAlone
  rw [scanned]
  simp only [Except.mapError, bind, Except.bind, outlined, parseStream, failed]

end

open Grammar

theorem enumWords_spell (value : Int) :
    Spells (MemberText.enumYield "E" [⟨"A", some (.ofInt value)⟩]) (enumWords value) := by
  have stated : Spells (SignedNumeral.ofInt value).yield (SignedNumeral.ofInt value).words := by
    unfold SignedNumeral.yield SignedNumeral.words
    split
    · exact .token (.token .nil)
    · exact .token .nil
  have last : Spells [.optionalComma, .fixed .closeCurly] [(.closeCurly, "\x7d")] := .noComma (.token .nil)
  simp only [MemberText.enumYield, Mark.listed, MemberText.yield, MemberText.valueYield, Option.elim_some,
    List.cons_append, List.append_assoc]
  exact .token (.token (.token (.token (.token (stated.append last)))))

def File.StatesOnly (value : Int) (file : File) : Prop :=
  ∃ decl, file.declarations = [.enumeration decl] ∧ decl.name = "E" ∧ decl.members.map Member.name = ["A"] ∧
    decl.members.map Member.value = [value]

theorem enumSource_parses {value : Int} (low : least ≤ value) (high : value ≤ greatest) (path : String) :
    (∃ tokens entries named, Source.scan ⟨path, enumSource value⟩ = .ok tokens ∧
      outline tokens (.start tokens 0 .initial) = .ok entries named) ∧
    (value ≠ least → ∃ file nextId catalog, parseAlone (enumSource value) path = .ok (file, nextId, catalog) ∧
      file.StatesOnly value) ∧
    (value = least → ∃ place catalog, parseAlone (enumSource value) path =
      .error (⟨.badNumber "9223372036854775808", place⟩, catalog)) := by
  obtain ⟨list, scanned, whole⟩ := Stream.Whole.of_lexes (enumSource_lexes value) path
  have stream := Stream.Scanned.of_scan scanned
  have source : Source.scan ⟨path, enumSource value⟩ = .ok list.toArray := except_bind_ok.mpr ⟨list, scanned, rfl⟩
  have spans := whole.spans _ (enumWords_spell value)
  obtain ⟨first, word, -⟩ := spans.token_cons
  have enlists := enumeration_enlists stream.closed (by decide) spans whole.inside
  have begun : (State.start list.toArray 0 .initial).pos = 1 := whole.first
  obtain ⟨named, outlined⟩ := outline_single enlists begun rfl first (by rw [word]; decide) whole.last
  refine ⟨⟨_, _, named, source, outlined⟩, fun other => ?_, fun same => ?_⟩
  · have small : ((SignedNumeral.ofInt value).magnitude : Int) ≤ greatest := by
      rw [SignedNumeral.ofInt_magnitude]
      unfold least at low other
      unfold greatest at high ⊢
      omega
    have fits : ∀ text ∈ [MemberText.mk "A" (some (.ofInt value))], text.Fits := by
      simpa [MemberText.Fits] using ⟨SignedNumeral.ofInt_digits value, small⟩
    have orderly : MemberText.Orderly none [⟨"A", some (.ofInt value)⟩] :=
      ⟨MemberText.keeps_stated rfl (by simp), trivial⟩
    have returns : Returns list.toArray declaration _ 1 _ :=
      .kind_is word (enumeration_returns spans whole.inside fits orderly)
    obtain ⟨_, t, parsed, decl, rfl, name, names, values⟩ :=
      wholeFile_single ⟨.enumeration, "E", 1, _⟩ returns (.start list.toArray 0 named.catalog)
    refine ⟨_, _, _, parseAlone_of_ok source outlined parsed, decl, rfl, name, names, ?_⟩
    rw [values, MemberText.valuesAfter, MemberText.valuesAfter]
    exact congrArg (fun value => [value]) (SignedNumeral.ofInt_value value)
  · subst same
    have unread : Number.Signed64.ofText? (SignedNumeral.ofInt least).digits = none := by decide +kernel
    have raises : Raises list.toArray declaration _ 1 := .kind_is word (enumeration_misreads unread spans whole.inside)
    obtain ⟨place, t, failed⟩ :=
      wholeFile_raises ⟨.enumeration, "E", 1, _⟩ raises (.start list.toArray 0 named.catalog)
    exact ⟨place, t.catalog, parseAlone_of_error source outlined failed⟩

theorem enumSource_parses_nearLeast :
    least ≤ least + 1 ∧ least + 1 ≤ greatest ∧ enumSource (least + 1) = "enum E \x7b A = -9223372036854775807 \x7d" ∧
      ∃ file nextId catalog, parseAlone (enumSource (least + 1)) "main.sc" = .ok (file, nextId, catalog) ∧
        file.StatesOnly (-9223372036854775807) := by
  have low : least ≤ least + 1 := by decide
  have high : least + 1 ≤ greatest := by decide
  exact ⟨low, high, by decide +kernel, (enumSource_parses low high "main.sc").2.1 (by decide)⟩

-- The least integer has no magnitude that is an integer of 64 bits.
theorem least_not_written :
    least ≤ least ∧ least ≤ greatest ∧ enumSource least = "enum E \x7b A = -9223372036854775808 \x7d" ∧
      ¬∃ file nextId catalog, parseAlone (enumSource least) "main.sc" = .ok (file, nextId, catalog) := by
  have tested : rejects (fun _ => true) (parseAlone (enumSource least) "main.sc") = true := by decide +kernel
  obtain ⟨error, failed, -⟩ := rejects_error tested
  refine ⟨by decide, by decide, by decide +kernel, ?_⟩
  rintro ⟨file, nextId, catalog, parsed⟩
  rw [failed] at parsed
  cases parsed

end TypedScript
