import TypedScript.Proofs.Grammar.Interfaces
import TypedScript.Proofs.Tree.MemberText

namespace TypedScript.Grammar

open MemberText
open Number.Signed64 (least greatest)

variable {α β : Type} {tokens : Stream} {s t : State} {i j k : Nat} {cause : Cause} {text : MemberText}
  {texts : List MemberText}

def Raises (tokens : Stream) (rule : Rule α) (cause : Cause) (i : Nat) : Prop :=
  ∀ s : State, s.pos = i → ∃ place t, rule tokens s = .error ⟨cause, place⟩ t

namespace Raises

theorem raise (place : Position) : Raises tokens (raise cause place : Rule α) cause i := fun s _ => ⟨place, s, rfl⟩

theorem first {rule : Rule α} {next : α → Rule β} (raises : Raises tokens rule cause i) :
    Raises tokens (rule >>= next) cause i := by
  intro s here
  obtain ⟨place, t, failed⟩ := raises s here
  exact ⟨place, t, bind_of_error failed⟩

theorem after {rule : Rule α} {next : α → Rule β} {middle : α → Prop} (start : Returns tokens rule middle i j)
    (rest : ∀ found, middle found → Raises tokens (next found) cause j) : Raises tokens (rule >>= next) cause i := by
  intro s here
  obtain ⟨found, m, ran, right, there⟩ := start s here
  obtain ⟨place, t, failed⟩ := rest found right m there
  exact ⟨place, t, (bind_of_ok ran).trans failed⟩

theorem kind_is {wanted : Kind} {next : Kind → Rule β} (here : (tokens.token i).kind = wanted)
    (rest : Raises tokens (next wanted) cause i) : Raises tokens (kind >>= next) cause i := by
  refine after .kind ?_
  rintro _ rfl
  rwa [here]

end Raises

theorem Spans.inside (closed : Closed tokens) {marks : List Mark} {kind : Kind} {value : String}
    (spans : Spans tokens (marks ++ [.token kind value]) i j) (live : kind ≠ .endOfFile) : j < tokens.size := by
  obtain ⟨k, -, last⟩ := spans.split
  obtain ⟨-, found, -, le, spells⟩ := last.token_cons
  have room : k + 1 < tokens.size := closed.inside (found ▸ live)
  have length : (tokens.lexemes (k + 1) j).length = min (j - (k + 1)) (tokens.size - (k + 1)) :=
    Stream.lexemes_length
  generalize tokens.lexemes (k + 1) j = rest at spells length
  cases spells
  rw [List.length_nil] at length
  omega

theorem integer_returns {value : Int} (inside : i < tokens.size) (number : (tokens.token i).kind = .number)
    (read : Number.Signed64.ofText? (tokens.token i).value = some value) :
    Returns tokens integer (· = value) i (i + 1) := by
  refine .bind (.expect inside number) ?_
  rintro _ rfl
  simp only [read]
  exact .pure rfl

theorem negate_natCast (magnitude : Nat) : Number.Signed64.negate magnitude = -(magnitude : Int) := by
  have other : (magnitude : Int) ≠ Number.Signed64.least := by
    unfold Number.Signed64.least
    omega
  rw [Number.Signed64.negate, if_neg other]

theorem signedInteger_returns {numeral : SignedNumeral} (fits : numeral.Fits)
    (spans : Spans tokens numeral.yield i j) (inside : j < tokens.size) :
    Returns tokens signedInteger (· = numeral.value) i j := by
  have read : Number.Signed64.ofText? numeral.digits = some (numeral.magnitude : Int) :=
    (Number.Signed64.ofText?_numeral (.inl fits.digits)).mpr ⟨fits.digits, rfl, fits.small⟩
  unfold SignedNumeral.yield at spans
  unfold SignedNumeral.value
  split at spans
  · obtain ⟨first, dash, -, spans⟩ := spans.token_cons
    obtain ⟨second, number, value, rest⟩ := spans.token_cons
    cases rest.nil_eq inside
    refine .kind_is dash (.bind (.skip first) fun _ _ => .bind (integer_returns second number (value ▸ read)) ?_)
    rintro _ rfl
    apply Returns.pure
    simp [*, negate_natCast]
  · obtain ⟨first, number, value, rest⟩ := spans.token_cons
    cases rest.nil_eq inside
    refine .kind_is number ((integer_returns first number (value ▸ read)).imp ?_)
    simp [*]

section
variable {member : Token} {previous : Option Int} (named : member.value = text.name) (fits : text.Fits)
  (spans : Spans tokens text.valueYield i j) (inside : j < tokens.size) (ends : (tokens.token j).kind ≠ .assign)
include fits spans inside ends

theorem memberValue_returns (before : ∀ value ∈ previous, Bounded value)
    (keeps : ∀ cause, ¬text.Offends previous cause) :
    Returns tokens (memberValue member previous) (· = text.value previous) i j := by
  unfold valueYield at spans
  unfold MemberText.value
  cases stated : text.stated with
  | some numeral =>
    rw [stated] at spans
    obtain ⟨here, sign, -, rest⟩ := spans.token_cons
    have read := signedInteger_returns (fits numeral stated) rest inside
    refine .kind_is sign (.bind (.skip here) fun _ _ => .bind .place fun start _ => .bind read ?_)
    rintro _ rfl
    cases previous with
    | none => exact .pure rfl
    | some minimum =>
      have above : ¬numeral.value < minimum := fun below => keeps _ (.decreases stated rfl below)
      simp only [if_neg above]
      exact .pure rfl
  | none =>
    rw [stated] at spans
    cases spans.nil_eq inside
    refine .bind .kind ?_
    rintro _ rfl
    rw [if_neg ends]
    cases previous with
    | none => exact .pure rfl
    | some last =>
      have less : last < greatest := by
        have high := (before last rfl).2
        have other : last ≠ greatest := by
          rintro rfl
          exact keeps _ (.overflows stated rfl)
        omega
      simp only [impliedValue, Number.Signed64.next?, if_pos less]
      exact .pure rfl

include named in
theorem memberValue_raises (offends : text.Offends previous cause) :
    Raises tokens (memberValue member previous) cause i := by
  unfold valueYield at spans
  cases offends with
  | @decreases numeral minimum stated after below =>
    subst after
    rw [stated] at spans
    obtain ⟨here, sign, -, rest⟩ := spans.token_cons
    have read := signedInteger_returns (fits numeral stated) rest inside
    refine .kind_is sign (.after (.skip here) fun _ _ => .after .place fun start _ => .after read ?_)
    rintro _ rfl
    simp only [if_pos below, named]
    exact .raise start
  | overflows implied after =>
    subst after
    rw [implied] at spans
    cases spans.nil_eq inside
    refine .after .kind ?_
    rintro _ rfl
    rw [if_neg ends]
    simp only [impliedValue, Number.Signed64.next?, Int.lt_irrefl, if_false, named]
    exact .raise _

end

theorem enumMember_outcome {others : List MemberText} (fits : text.Fits)
    (spans : Spans tokens (Mark.listed MemberText.yield (text :: others)) i j) (inside : j < tokens.size)
    (closes : (tokens.token j).kind = .closeCurly) :
    ∃ m, i < m ∧ (tokens.token i).kind = .identifier ∧ Spans tokens (Mark.listed MemberText.yield others) m j ∧
      ∀ previous : Option Member,
        ((∀ value ∈ previous.map Member.value, Bounded value) →
          (∀ cause, ¬text.Offends (previous.map Member.value) cause) →
          Returns tokens (enumMember previous) (text.Makes (previous.map Member.value)) i m) ∧
        ∀ cause, text.Offends (previous.map Member.value) cause → Raises tokens (enumMember previous) cause i := by
  obtain ⟨here, word, name, rest⟩ := spans.token_cons
  obtain ⟨p, valued, rest⟩ := Spans.split rest
  rw [← List.singleton_append] at rest
  obtain ⟨m, separating, rest⟩ := rest.split
  have first := valued.le
  have second := separating.le
  have third := rest.le
  have last : others = [] → m = j := by
    rintro rfl
    exact rest.nil_eq inside
  obtain ⟨separated, level⟩ := separator_returns [",", "\x7d"] separating third last inside closes rfl
  have ends : (tokens.token p).kind ≠ .assign := by
    intro same
    rw [same] at level
    cases level
  refine ⟨m, by omega, word, rest, fun previous => ⟨fun before keeps => ?_, fun cause offends => ?_⟩⟩
  · have value : Returns tokens (memberValue (tokens.token i) (previous.map Member.value))
        (· = text.value (previous.map Member.value)) (i + 1) p :=
      memberValue_returns fits valued (by omega) ends before keeps
    refine .bind (.expect here word) ?_
    rintro _ rfl
    refine .bind value fun made same => .bind (.spanSince _) fun span _ => .bind separated fun _ _ => .pure ?_
    exact ⟨name, same⟩
  · refine .after (.expect here word) ?_
    rintro _ rfl
    exact (memberValue_raises name fits valued (by omega) ends offends).first

section
variable {bound : Nat} (previous : Option Member) (fits : ∀ text ∈ texts, text.Fits)
  (spans : Spans tokens (Mark.listed MemberText.yield texts) i j) (inside : j < tokens.size)
  (closes : (tokens.token j).kind = .closeCurly) (enough : j - i < bound)
include fits spans inside closes enough

theorem members_return (orderly : Orderly (previous.map Member.value) texts)
    (before : ∀ value ∈ previous.map Member.value, Bounded value) :
    Returns tokens (itemsFrom .closeCurly enumMember bound previous)
      (fun made => made.map Member.name = texts.map MemberText.name ∧
        made.map Member.value = valuesAfter (previous.map Member.value) texts) i j := by
  obtain ⟨fewer, rfl⟩ : ∃ fewer, bound = fewer + 1 := ⟨bound - 1, by omega⟩
  induction texts generalizing i previous fewer with
  | nil =>
    cases spans.nil_eq inside
    exact .kind_is closes (.pure ⟨rfl, rfl⟩)
  | cons text others ih =>
    obtain ⟨keeps, orderly⟩ := orderly
    obtain ⟨fit, later⟩ := List.forall_mem_cons.mp fits
    obtain ⟨m, lt, word, rest, outcome⟩ := enumMember_outcome fit spans inside closes
    have short := rest.le
    obtain ⟨fewest, rfl⟩ : ∃ fewest, fewer = fewest + 1 := ⟨fewer - 1, by omega⟩
    refine .kind_is word (.bind ((outcome previous).1 before keeps) fun made makes => ?_)
    have bounded := (value_bounded before fit keeps).1
    have others : Returns tokens (itemsFrom .closeCurly enumMember (fewest + 1) (some made)) _ m j :=
      ih (some made) later rest (by rwa [makes.last]) (by simpa [makes.last] using bounded) fewest (by omega)
    refine .bind others fun list each => .pure ?_
    rw [makes.last] at each
    simp [valuesAfter, makes.name, makes.value, each.1, each.2]

theorem members_raise (offence : FirstOffence (previous.map Member.value) texts cause)
    (before : ∀ value ∈ previous.map Member.value, Bounded value) :
    Raises tokens (itemsFrom .closeCurly enumMember bound previous) cause i := by
  obtain ⟨fewer, rfl⟩ : ∃ fewer, bound = fewer + 1 := ⟨bound - 1, by omega⟩
  induction texts generalizing i previous fewer with
  | nil => cases offence
  | cons text others ih =>
    obtain ⟨fit, later⟩ := List.forall_mem_cons.mp fits
    obtain ⟨m, lt, word, rest, outcome⟩ := enumMember_outcome fit spans inside closes
    have short := rest.le
    obtain ⟨fewest, rfl⟩ : ∃ fewest, fewer = fewest + 1 := ⟨fewer - 1, by omega⟩
    cases offence with
    | here offends => exact .kind_is word ((outcome previous).2 cause offends).first
    | later keeps offence =>
      refine .kind_is word (.after ((outcome previous).1 before keeps) fun made makes => ?_)
      have bounded := (value_bounded before fit keeps).1
      have others : Raises tokens (itemsFrom .closeCurly enumMember (fewest + 1) (some made)) cause m :=
        ih (some made) later rest (by rwa [makes.last]) (by simpa [makes.last] using bounded) fewest (by omega)
      exact others.first

end

section
variable {name : String} (spans : Spans tokens (enumYield name texts) i j) (inside : j < tokens.size)
include spans inside

theorem enumeration_frame :
    ∃ m, j = m + 1 ∧ (tokens.token i).kind = .enumWord ∧ (tokens.token (i + 2)).kind = .openCurly ∧
      (tokens.token m).kind = .closeCurly ∧ Spans tokens (Mark.listed MemberText.yield texts) (i + 3) m ∧
      Returns tokens (keywordName .enumWord) (fun found => found.value = name) i (i + 2) ∧
      Returns tokens (expect .openCurly) (fun _ => True) (i + 2) (i + 3) := by
  obtain ⟨first, word, -, rest⟩ := spans.token_cons
  obtain ⟨second, kind, value, rest⟩ := rest.token_cons
  obtain ⟨third, opener, -, rest⟩ := rest.token_cons
  obtain ⟨m, members, rest⟩ := rest.split
  obtain ⟨-, closer, -, rest⟩ := rest.token_cons
  refine ⟨m, (rest.nil_eq inside).symm, word, opener, closer, members, ?_, ?_⟩
  · refine (keywordName_returns first word second kind).imp ?_
    rintro _ rfl
    exact value
  · exact (Returns.expect third opener).imp fun _ _ => trivial

theorem enumeration_raises_of_members
    (raises : Raises tokens (itemsFrom .closeCurly enumMember (tokens.size + 1) none) cause (i + 3)) :
    Raises tokens enumeration cause i := by
  obtain ⟨_, -, -, -, -, -, named, opened⟩ := enumeration_frame spans inside
  have list : Raises tokens (items .closeCurly enumMember) cause (i + 3) := Raises.first fun s here => raises s here
  exact .after .place fun _ _ => .after named fun found _ => .after opened fun _ _ => list.first

variable (fits : ∀ text ∈ texts, text.Fits)
include fits

theorem enumeration_returns (orderly : Orderly none texts) :
    Returns tokens enumeration (fun made => ∃ decl, made = .enumeration decl ∧ decl.name = name ∧
      decl.members.map Member.name = texts.map MemberText.name ∧
      decl.members.map Member.value = valuesAfter none texts) i j := by
  obtain ⟨m, rfl, -, -, closer, members, named, opened⟩ := enumeration_frame spans inside
  have room : m < tokens.size := Nat.lt_of_succ_lt inside
  have list : Returns tokens (items .closeCurly enumMember) (fun made =>
      made.map Member.name = texts.map MemberText.name ∧ made.map Member.value = valuesAfter none texts)
      (i + 3) (m + 1) := by
    refine .bind (j := m) ?_ fun made each => .bind (.expect room closer) fun _ _ => .pure each
    intro s here
    exact members_return none fits members room closer (by omega) orderly (by simp) s here
  refine .bind .place fun _ _ => .bind named fun found same => .bind opened fun _ _ => ?_
  refine .bind list fun made each => .bind (.enter _) fun _ _ => .bind (.spanSince _) fun span _ => .pure ?_
  exact ⟨_, rfl, same, each⟩

theorem enumeration_raises (offence : FirstOffence none texts cause) : Raises tokens enumeration cause i := by
  obtain ⟨m, rfl, -, -, closer, members, -, -⟩ := enumeration_frame spans inside
  apply enumeration_raises_of_members spans inside
  exact members_raise none fits members (Nat.lt_of_succ_lt inside) closer (by omega) offence (by simp)

end

theorem numeral_of_scan {source file : String} {list : List Token} (scanned : Token.scan source file = .ok list)
    (pos : Nat) (number : (Stream.token list.toArray pos).kind = .number) :
    IsNumeral (Stream.token list.toArray pos).value.toList := by
  have each : ∀ token ∈ list, token.kind = .number → IsNumeral token.value.toList :=
    Token.scan_forall scanned (by simp [Token.fileMarker]) (by simp [Token.endMarker])
      fun token isRead => isRead.numeral
  have some := (Stream.Scanned.of_scan scanned).closed.1
  rw [Stream.token, Array.getElem?_eq_getElem (by omega), Option.getD_some] at number ⊢
  exact each _ (by simp) number

section
variable (scanned : tokens.Scanned)
  (numerals : ∀ pos, (tokens.token pos).kind = .number → IsNumeral (tokens.token pos).value.toList)

include numerals in
theorem integer_digits {value : Int} (ran : integer tokens s = .ok value t) :
    AreDigits (tokens.token s.pos).value.toList ∧ value = Number.ofDigits (tokens.token s.pos).value.toList ∧
      (Number.ofDigits (tokens.token s.pos).value.toList : Int) ≤ greatest := by
  obtain ⟨_, _, found, ran⟩ := bind_ok.mp ran
  obtain ⟨number, rfl, rfl⟩ := expect_ok.mp found
  cases read : Number.Signed64.ofText? (tokens.token s.pos).value with
  | some value =>
    simp only [read] at ran
    obtain ⟨rfl, -⟩ := pure_ok.mp ran
    exact (Number.Signed64.ofText?_numeral (numerals s.pos number)).mp read
  | none =>
    simp only [read] at ran
    exact (raise_ok.mp ran).elim

include scanned in
theorem Spans.number (found : tokens.next s = .number) :
    Spans tokens [.token .number (tokens.token s.pos).value] s.pos (s.step tokens).pos := by
  refine .take scanned (by rw [found]; decide) ?_
  rw [← found]
  exact .token .nil

include scanned numerals

theorem signedInteger_text {value : Int} (ran : signedInteger tokens s = .ok value t) :
    ∃ numeral : SignedNumeral, numeral.Fits ∧ Spans tokens numeral.yield s.pos t.pos ∧ value = numeral.value := by
  simp only [signedInteger, kind_bind] at ran
  split at ran
  · rename_i dash
    simp only [skip_bind, bind_ok, pure_ok] at ran
    obtain ⟨_, _, ran, rfl, rfl⟩ := ran
    obtain ⟨digits, rfl, small⟩ := integer_digits numerals ran
    obtain ⟨number, rfl⟩ := integer_ok ran
    refine ⟨⟨true, _⟩, ⟨digits, small⟩, ?_, negate_natCast _⟩
    exact (Spans.fixed scanned dash rfl).append (.number scanned number)
  · obtain ⟨digits, rfl, small⟩ := integer_digits numerals ran
    obtain ⟨number, rfl⟩ := integer_ok ran
    exact ⟨⟨false, _⟩, ⟨digits, small⟩, .number scanned number, rfl⟩

theorem memberValue_text {member : Token} {previous : Option Int} {value : Int}
    (ran : memberValue member previous tokens s = .ok value t) :
    ∃ text : MemberText, text.name = member.value ∧ text.Fits ∧ Spans tokens text.valueYield s.pos t.pos ∧
      value = text.value previous ∧ ∀ cause, ¬text.Offends previous cause := by
  simp only [memberValue, kind_bind] at ran
  split at ran
  · rename_i sign
    simp only [skip_bind, statedValue, place_bind, bind_ok] at ran
    obtain ⟨_, m, read, ran⟩ := ran
    obtain ⟨numeral, fits, spans, rfl⟩ := signedInteger_text scanned numerals read
    have settled : (∀ minimum ∈ previous, minimum ≤ numeral.value) ∧ value = numeral.value ∧ m = t := by
      cases previous with
      | none =>
        obtain ⟨rfl, rfl⟩ := pure_ok.mp ran
        exact ⟨by simp, rfl, rfl⟩
      | some minimum =>
        simp only at ran
        split at ran
        · exact (raise_ok.mp ran).elim
        · rename_i above
          obtain ⟨rfl, rfl⟩ := pure_ok.mp ran
          exact ⟨by simpa using above, rfl, rfl⟩
    obtain ⟨above, rfl, rfl⟩ := settled
    refine ⟨⟨member.value, some numeral⟩, rfl, by simpa [MemberText.Fits] using fits, ?_, rfl, keeps_stated rfl above⟩
    exact (Spans.fixed scanned sign rfl).append spans
  · have settled : greatest ∉ previous ∧ value = previous.elim 0 (· + 1) ∧ s = t := by
      cases previous with
      | none =>
        obtain ⟨rfl, rfl⟩ := pure_ok.mp ran
        exact ⟨by simp, rfl, rfl⟩
      | some last =>
        simp only [impliedValue, Number.Signed64.next?] at ran
        by_cases less : last < greatest
        · simp only [if_pos less] at ran
          obtain ⟨rfl, rfl⟩ := pure_ok.mp ran
          exact ⟨by simpa using Int.ne_of_lt less, rfl, rfl⟩
        · simp only [if_neg less] at ran
          exact (raise_ok.mp ran).elim
    obtain ⟨free, rfl, rfl⟩ := settled
    exact ⟨⟨member.value, none⟩, rfl, by simp [MemberText.Fits], .nil, rfl, keeps_implied rfl free⟩

theorem members_text {previous : Option Member} {members : List Member}
    (reads : ReadsItems tokens .closeCurly (ReadsMember tokens) previous members s t) :
    ∃ texts : List MemberText, (∀ text ∈ texts, text.Fits) ∧ Orderly (previous.map Member.value) texts ∧
      Spans tokens (Mark.listed MemberText.yield texts) s.pos t.pos ∧
      members.map Member.name = texts.map MemberText.name ∧
      members.map Member.value = valuesAfter (previous.map Member.value) texts := by
  induction reads with
  | none _ => exact ⟨[], List.forall_mem_nil _, trivial, .nil, rfl, rfl⟩
  | @item s n t previous first others head rest ih =>
    obtain ⟨texts, fits, orderly, spans, names, values⟩ := ih
    cases head with
    | @mk s m n value found valued separated =>
      obtain ⟨text, name, fit, body, rfl, keeps⟩ := memberValue_text scanned numerals valued
      have goesOn : texts ≠ [] → tokens.next n ≠ .closeCurly := by
        cases rest with
        | none _ => exact fun more => absurd (List.map_eq_nil_iff.mp names.symm) more
        | item head =>
          cases head with
          | mk found => exact fun _ => by rw [found]; decide
      refine ⟨text :: texts, List.forall_mem_cons.mpr ⟨fit, fits⟩, ⟨keeps, orderly⟩, ?_, ?_, ?_⟩
      · have whole := (Spans.name scanned found).append (body.append ((separated.spans scanned goesOn).append spans))
        rw [← name] at whole
        exact whole
      · rw [List.map_cons, List.map_cons, names, name]
      · rw [List.map_cons, values]
        rfl

end

-- The values of an enumeration are those that its text gives, and it is refused for the first member that goes below
-- its predecessor or past the integers of 64 bits, and for no other reason.
theorem enumValues_exact {source file : String} {list : List Token} (scanned : Token.scan source file = .ok list)
    (s : State) :
    (∀ found t, enumeration list.toArray s = .ok found t → ∃ decl texts, found = .enumeration decl ∧
      Spans list.toArray (enumYield decl.name texts) s.pos t.pos ∧
      (∀ text ∈ texts, ∀ numeral ∈ text.stated, AreDigits numeral.digits.toList) ∧
      decl.members.map Member.name = texts.map MemberText.name ∧
      decl.members.map Member.value = valuesAfter none texts ∧
      (∀ member ∈ decl.members, least ≤ member.value ∧ member.value ≤ greatest) ∧
      decl.members.Pairwise (·.value ≤ ·.value)) ∧
    ∀ name texts j, Spans list.toArray (enumYield name texts) s.pos j →
      (∀ text ∈ texts, ∀ numeral ∈ text.stated, AreDigits numeral.digits.toList ∧ numeral.magnitude ≤ greatest) →
      ∀ cause, (∃ place t, enumeration list.toArray s = .error ⟨cause, place⟩ t) ↔ FirstOffence none texts cause := by
  have stream := Stream.Scanned.of_scan scanned
  constructor
  · intro found t ran
    obtain ⟨decl, m, rfl, rfl, ⟨word, named, opener, inner, closer⟩⟩ := enumeration_reads ran
    obtain ⟨texts, fits, orderly, spans, names, values⟩ := members_text stream (numeral_of_scan scanned) inner
    obtain ⟨each, ordered⟩ := orderly.values (by simp) fits
    refine ⟨_, texts, rfl, ?_, ?_, names, values, ?_, ?_⟩
    · have body := spans.append (.fixed stream closer rfl)
      exact (Spans.fixed stream word rfl).append ((Spans.name stream named).append
        ((Spans.fixed stream opener rfl).append body))
    · exact fun text member numeral stated => (fits text member numeral stated).digits
    · intro member inside
      have listed : member.value ∈ valuesAfter none texts := values ▸ List.mem_map_of_mem inside
      exact (each member.value listed).1
    · exact List.pairwise_map.mp (values ▸ ordered)
  · intro name texts j spans small cause
    have fits : ∀ text ∈ texts, text.Fits := fun text member numeral stated =>
      ⟨(small text member numeral stated).1, (small text member numeral stated).2⟩
    have whole : Spans list.toArray ((.fixed .enumWord :: .token .identifier name :: .fixed .openCurly ::
        Mark.listed MemberText.yield texts) ++ [.fixed .closeCurly]) s.pos j := spans
    have inside := whole.inside stream.closed (by decide)
    constructor
    · rintro ⟨place, t, failed⟩
      -- A text has a first offence or none. Which one decides what the rule does, so that a failure tells it apart.
      rcases orderly_or_offence none texts with orderly | ⟨other, offence⟩
      · obtain ⟨_, _, ran, -⟩ := enumeration_returns spans inside fits orderly s rfl
        rw [ran] at failed
        cases failed
      · obtain ⟨_, _, raised⟩ := enumeration_raises spans inside fits offence s rfl
        rw [raised] at failed
        cases failed
        exact offence
    · intro offence
      exact enumeration_raises spans inside fits offence s rfl

def twoEnums : String := "enum A \x7b low = -2, mid, top = 007 \x7d enum B \x7b a = 9223372036854775807, b, \x7d"

def twoEnumsWords : List Lexeme :=
  [(.file, "main.sc"), (.enumWord, "enum"), (.identifier, "A"), (.openCurly, "\x7b"),
    (.identifier, "low"), (.assign, "="), (.dash, "-"), (.number, "2"), (.comma, ","), (.identifier, "mid"),
    (.comma, ","), (.identifier, "top"), (.assign, "="), (.number, "007"), (.closeCurly, "\x7d"),
    (.enumWord, "enum"), (.identifier, "B"), (.openCurly, "\x7b"), (.identifier, "a"), (.assign, "="),
    (.number, "9223372036854775807"), (.comma, ","), (.identifier, "b"), (.comma, ","), (.closeCurly, "\x7d"),
    (.endOfFile, "EOF")]

def upToSeven : List MemberText := [⟨"low", some ⟨true, "2"⟩⟩, ⟨"mid", none⟩, ⟨"top", some ⟨false, "007"⟩⟩]

def pastGreatest : List MemberText := [⟨"a", some ⟨false, "9223372036854775807"⟩⟩, ⟨"b", none⟩]

-- The comma after the last member is in the text too.
theorem enumValues_exact_twoEnums :
    ∃ list decl t place m, Token.scan twoEnums "main.sc" = .ok list ∧
      enumeration list.toArray ⟨1, 0, .initial⟩ = .ok (.enumeration decl) t ∧
      decl.members.map Member.value = [-2, -1, 7] ∧ decl.members.Pairwise (·.value ≤ ·.value) ∧
      Spans list.toArray (enumYield "B" pastGreatest) 15 25 ∧
      enumeration list.toArray ⟨15, 0, .initial⟩ = .error ⟨.enumOverflow "b", place⟩ m := by
  have tested : yields (fun list => List.map Token.lexeme list == twoEnumsWords) (Token.scan twoEnums "main.sc") = true := by
    decide +kernel
  obtain ⟨list, scanned, found⟩ := yields_ok tested
  have same : list.map Token.lexeme = twoEnumsWords := eq_of_beq found
  have first : Spans list.toArray (enumYield "A" upToSeven) 1 15 := by
    refine ⟨by decide, ?_⟩
    rw [Stream.lexemes, List.map_take, List.map_drop, List.toList_toArray, same]
    exact .token (.token (.token (.token (.token (.token (.token (.token (.token (.token (.token (.token (.token
      (.noComma (.token .nil))))))))))))))
  have second : Spans list.toArray (enumYield "B" pastGreatest) 15 25 := by
    refine ⟨by decide, ?_⟩
    rw [Stream.lexemes, List.map_take, List.map_drop, List.toList_toArray, same]
    exact .token (.token (.token (.token (.token (.token (.token (.token (.comma (.token .nil)))))))))
  have orderly : Orderly none upToSeven :=
    ⟨keeps_stated rfl (by simp), keeps_implied rfl (by decide +kernel), keeps_stated rfl (by decide +kernel), trivial⟩
  have digits (text : String) (all : (!text.toList.isEmpty && text.toList.all Number.isDigit) = true) :
      AreDigits text.toList := by simpa [AreDigits] using all
  have small : ∀ text ∈ upToSeven, text.Fits := by
    simp only [upToSeven, List.forall_mem_cons, MemberText.Fits, Option.mem_def, Option.some.injEq, forall_eq']
    exact ⟨⟨digits _ rfl, by decide +kernel⟩, by simp, ⟨digits _ rfl, by decide +kernel⟩, List.forall_mem_nil _⟩
  have within : ∀ text ∈ pastGreatest, ∀ numeral ∈ text.stated,
      AreDigits numeral.digits.toList ∧ numeral.magnitude ≤ greatest := by
    simp only [pastGreatest, List.forall_mem_cons, Option.mem_def, Option.some.injEq, forall_eq']
    exact ⟨⟨digits _ rfl, by decide +kernel⟩, by simp, List.forall_mem_nil _⟩
  have offence : FirstOffence none pastGreatest (.enumOverflow "b") :=
    .later (keeps_stated rfl (by simp)) (.here (.overflows rfl (by decide +kernel)))
  obtain ⟨inside, -⟩ := second.token_cons
  obtain ⟨_, t, ran, ⟨decl, rfl, -, -, values⟩, -⟩ :=
    enumeration_returns first inside small orderly ⟨1, 0, .initial⟩ rfl
  obtain ⟨_, _, alike, -, -, -, -, -, ordered⟩ := (enumValues_exact scanned ⟨1, 0, .initial⟩).1 _ t ran
  cases alike
  have failed := (enumValues_exact scanned ⟨15, 0, .initial⟩).2 "B" pastGreatest 25 second within (.enumOverflow "b")
  obtain ⟨place, m, failed⟩ := failed.mpr offence
  have seven : valuesAfter none upToSeven = [-2, -1, 7] := by decide +kernel
  exact ⟨list, decl, t, place, m, scanned, ran, values.trans seven, ordered, second, failed⟩

end TypedScript.Grammar
