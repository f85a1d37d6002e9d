import Mathlib.Data.List.Forall2
import TypedScript.Proofs.Grammar.Yielding
import TypedScript.Proofs.Tree.Nodes

namespace TypedScript.Grammar

variable {α β : Type} {tokens : Stream} {s t : State} {i j k n bound : Nat} {next : Kind} {level : Level}
  {expr : Expr} {inner : Inner}

theorem Spans.nil_eq (spans : Spans tokens [] i j) (inside : j < tokens.size) : i = j := by
  obtain ⟨le, spells⟩ := spans
  generalize found : tokens.lexemes i j = lexemes at spells
  cases spells with
  | nil =>
    have length : (tokens.lexemes i j).length = 0 := by rw [found, List.length_nil]
    rw [Stream.lexemes_length] at length
    omega

-- What stands at a level: the start of an expression does so at every level.
def Fits (level : Level) (expr : Expr) : Prop :=
  level.rank < expr.level.rank ∨ Level.unary.rank ≤ expr.level.rank

theorem Fits.of_suffixed (suffixed : expr.IsSuffixed) : Fits level expr :=
  .inr (Nat.le_trans (by decide) suffixed)

theorem binary_lt_unary (operator : BinaryOp) : operator.level.rank < Level.unary.rank := by
  cases operator <;> decide

theorem ne_openBracket (low : (Level.ofKind next).rank ≤ Level.unary.rank) : next ≠ .openBracket := by
  rintro rfl
  exact absurd low (by decide)

theorem Admits.of_stops (low : level.rank ≤ Level.unary.rank) (fits : Fits level expr)
    (stops : (Level.ofKind next).rank ≤ level.rank) : Admits next expr := by
  cases expr with
  | setName | setMember | setIndex =>
    have least : level.rank < Level.assignment.rank := fits.resolve_right (by simp [Expr.level, Level.rank])
    exact Nat.le_trans stops (Nat.le_of_lt_succ least)
  | binary _ operator =>
    have below : level.rank < operator.level.rank :=
      fits.resolve_right (Nat.not_le_of_lt (binary_lt_unary operator))
    refine Nat.le_trans stops (Nat.le_of_lt_succ (Nat.lt_of_lt_of_le below ?_))
    cases operator <;> decide
  | unary _ _ _ after =>
    cases after with
    | false => exact Nat.le_trans stops low
    | true => trivial
  | cast => exact ne_openBracket (Nat.le_trans stops low)
  | _ => trivial

theorem Admits.of_suffixed (suffixed : expr.IsSuffixed) (free : expr.isCast = true → next ≠ .openBracket) :
    Admits next expr := by
  cases expr with
  | setName | setMember | setIndex => simp [Expr.IsSuffixed, Expr.level, Level.rank] at suffixed
  | binary _ operator =>
    exact absurd (Nat.lt_of_lt_of_le (binary_lt_unary operator) (by decide)) (Nat.not_lt_of_le suffixed)
  | unary _ _ _ after =>
    cases after with
    | false => simp [Expr.IsSuffixed, Expr.level, Level.rank] at suffixed
    | true => trivial
  | cast => exact free rfl
  | _ => trivial

theorem le_operandLevel {operator other : BinaryOp} (chain : operator ≠ .power)
    (least : operator.level.rank ≤ other.level.rank) :
    operator.level.rank ≤ (operandLevel other.kind).rank := by
  by_cases power : other = .power
  · subst power
    cases operator <;> first | decide | exact absurd rfl chain
  · rw [operandLevel_eq power]
    exact least

theorem operandLevel_low (operator : BinaryOp) : (operandLevel operator.kind).rank ≤ Level.unary.rank :=
  Nat.le_trans (operandLevel_le operator).2 (by decide)

theorem levels_of_holds {operator : BinaryOp} {left right : Level} (holds : operator.Holds left right) :
    operator.level.rank ≤ left.rank ∧ (operandLevel operator.kind).rank < right.rank := by
  unfold BinaryOp.Holds at holds
  split at holds
  · rename_i power
    subst power
    exact ⟨Nat.le_trans (by decide) holds.1, holds.2⟩
  · rename_i chain
    rw [operandLevel_eq chain]
    exact holds

theorem Admits.of_holds {operator : BinaryOp} {left : Expr} {right : Level}
    (holds : operator.Holds left.level right) : Admits operator.kind left := by
  have low : operator.level.rank ≤ Level.unary.rank := Nat.le_of_lt (binary_lt_unary operator)
  by_cases tight : Level.unary.rank ≤ left.level.rank
  · exact .of_stops low (Or.inr tight : Fits operator.level left) (Nat.le_refl _)
  · have chain : operator ≠ .power := by
      intro power
      rw [BinaryOp.Holds, if_pos power] at holds
      exact tight holds.1
    rw [BinaryOp.Holds, if_neg chain] at holds
    obtain ⟨least, -⟩ := holds
    cases left with
    | setName | setMember | setIndex =>
      have above : Level.assignment.rank < operator.level.rank := by cases operator <;> decide
      exact absurd least (Nat.not_le_of_lt above)
    | binary _ other => exact le_operandLevel chain least
    | unary _ _ _ after => exact absurd (by cases after <;> simp [Expr.level, Level.rank]) tight
    | _ => exact absurd (by simp [Expr.level, Level.rank]) tight

def Returns (tokens : Stream) (rule : Rule α) (wanted : α → Prop) (i j : Nat) : Prop :=
  ∀ s : State, s.pos = i → ∃ made t, rule tokens s = .ok made t ∧ wanted made ∧ t.pos = j

namespace Returns

theorem pure {wanted : α → Prop} {value : α} (right : wanted value) :
    Returns tokens (Pure.pure value) wanted i i :=
  fun s here => ⟨value, s, rfl, right, here⟩

theorem bind {first : Rule α} {later : α → Rule β} {middle : α → Prop} {wanted : β → Prop}
    (start : Returns tokens first middle i j)
    (rest : ∀ found, middle found → Returns tokens (later found) wanted j k) :
    Returns tokens (first >>= later) wanted i k := by
  intro s here
  obtain ⟨found, m, ran, right, there⟩ := start s here
  obtain ⟨made, t, last, holds, stop⟩ := rest found right m there
  exact ⟨made, t, (bind_of_ok ran).trans last, holds, stop⟩

theorem imp {rule : Rule α} {wanted other : α → Prop} (returns : Returns tokens rule wanted i j)
    (weaker : ∀ made, wanted made → other made) : Returns tokens rule other i j := by
  intro s here
  obtain ⟨made, t, ran, right, there⟩ := returns s here
  exact ⟨made, t, ran, weaker made right, there⟩

theorem kind : Returns tokens kind (· = (tokens.token i).kind) i i := by
  rintro s rfl
  exact ⟨_, s, rfl, rfl, rfl⟩

theorem advance (inside : i < tokens.size) : Returns tokens advance (· = tokens.token i) i (i + 1) := by
  rintro s rfl
  refine ⟨_, _, rfl, rfl, ?_⟩
  rw [if_pos inside]

theorem skip (inside : i < tokens.size) : Returns tokens skip (fun _ => True) i (i + 1) := by
  rintro s rfl
  refine ⟨_, _, rfl, trivial, ?_⟩
  rw [if_pos inside]

theorem expect {wanted : Kind} (inside : i < tokens.size) (same : (tokens.token i).kind = wanted) :
    Returns tokens (expect wanted) (· = tokens.token i) i (i + 1) := by
  rintro s rfl
  obtain ⟨found, t, ran, right, there⟩ := advance inside s rfl
  cases ran
  exact ⟨_, _, expect_ok.mpr ⟨same, rfl, rfl⟩, right, there⟩

theorem node (span : Span) : Returns tokens (node span) (fun _ => True) i i :=
  fun s here => ⟨_, s.numbered, rfl, trivial, here⟩

theorem nodeFrom (start : Position) : Returns tokens (nodeFrom start) (fun _ => True) i i := by
  have span : Returns tokens (spanSince start) (fun _ => True) i i :=
    fun s here => ⟨_, s, spanSince_run start, trivial, here⟩
  exact bind span fun span _ => node span

end Returns

-- A rule that starts with one part and goes on in a loop has come to the end of a range, in fewer steps of the
-- loop than the range has tokens.
def Arrives (tokens : Stream) (start : Rule α) (loop : Nat → α → Rule α) (wanted : α → Prop) (i j : Nat) : Prop :=
  ∀ s : State, s.pos = i → ∃ made t used, wanted made ∧ t.pos = j ∧ used < j - i ∧
    ∀ rest, (start >>= loop (used + rest)) tokens s = loop rest made tokens t

namespace Arrives

variable {start : Rule α} {loop : Nat → α → Rule α} {wanted middle : α → Prop}

theorem of_start (first : Returns tokens start wanted i j) (lt : i < j) : Arrives tokens start loop wanted i j := by
  intro s here
  obtain ⟨made, t, ran, right, there⟩ := first s here
  refine ⟨made, t, 0, right, there, Nat.sub_pos_of_lt lt, fun rest => ?_⟩
  rw [bind_of_ok ran, Nat.zero_add]

theorem go (before : Arrives tokens start loop middle i j) (lt : j < k)
    (step : ∀ made, middle made → ∀ t : State, t.pos = j →
      ∃ wider m, (∀ rest, loop (rest + 1) made tokens t = loop rest wider tokens m) ∧ wanted wider ∧ m.pos = k) :
    Arrives tokens start loop wanted i k := by
  intro s here
  obtain ⟨made, t, used, right, there, few, ran⟩ := before s here
  obtain ⟨wider, m, goes, holds, stop⟩ := step made right t there
  refine ⟨wider, m, used + 1, holds, stop, by omega, fun rest => ?_⟩
  have count : used + 1 + rest = used + (rest + 1) := by omega
  rw [count, ran, goes]

theorem lt (arrives : Arrives tokens start loop wanted i j) : i < j := by
  obtain ⟨_, _, used, _, _, few, _⟩ := arrives ⟨i, 0, .initial⟩ rfl
  omega

theorem finish (arrives : Arrives tokens start loop wanted i j) (inside : j ≤ tokens.size)
    (stops : ∀ made rest, ∀ t : State, t.pos = j → loop (rest + 1) made tokens t = .ok made t) :
    Returns tokens (start >>= fun made => bounded fun steps => loop steps made) wanted i j := by
  intro s here
  obtain ⟨made, t, used, right, there, few, ran⟩ := arrives s here
  refine ⟨made, t, ?_, right, there⟩
  have count : tokens.size + 1 = used + ((tokens.size - used) + 1) := by omega
  show (start >>= loop (tokens.size + 1)) tokens s = _
  rw [count, ran, stops made _ t there]

end Arrives

theorem typeHead_returns {name : String} (inside : i < tokens.size)
    (kind : (tokens.token i).kind = Kind.ofTypeName name) (value : (tokens.token i).value = name) :
    Returns tokens typeHead (· = .named name) i (i + 1) := by
  refine .bind .kind ?_
  rintro found rfl
  have begins : ((Kind.ofTypeName name).isTypeWord || Kind.ofTypeName name = .identifier) = true :=
    Kind.ofTypeName_begins name
  rw [kind, if_pos begins]
  refine .bind (.advance inside) ?_
  rintro found rfl
  exact .pure (congrArg Ty.named value)

theorem typeSuffix_returns {inside : Rule Ty} {left wider : Ty} (opened : i < tokens.size)
    (opener : (tokens.token i).kind = .openBracket)
    (between : Returns tokens (bracketed inside left) (· = wider) (i + 1) j) (closed : j < tokens.size)
    (closer : (tokens.token j).kind = .closeBracket) :
    Returns tokens (typeSuffix inside left) (· = wider) i (j + 1) := by
  refine .bind (.expect opened opener) fun _ _ => .bind between ?_
  rintro found rfl
  refine .bind (.expect closed closer) fun _ _ s here => ?_
  exact ⟨found, s.entered fun catalog => catalog.addType found, rfl, rfl, here⟩

theorem typeSuffixes_go {start : Rule Ty} {inside : Rule Ty} {left wider : Ty}
    (before : Arrives tokens start (typeSuffixes inside .lowest) (· = left) i j)
    (opener : (tokens.token j).kind = .openBracket) (lt : j < k)
    (suffix : Returns tokens (typeSuffix inside left) (· = wider) j k) :
    Arrives tokens start (typeSuffixes inside .lowest) (· = wider) i k := by
  refine before.go lt ?_
  rintro made rfl t there
  obtain ⟨_, m, ran, rfl, stop⟩ := suffix t there
  refine ⟨_, m, fun rest => ?_, rfl, stop⟩
  have next : tokens.next t = .openBracket := by rw [Stream.next, there, opener]
  simp only [typeSuffixes, kind_bind, next]
  rw [if_neg (by decide), bind_of_ok ran]

theorem typeSuffixes_stop {inside : Rule Ty} (ends : (tokens.token j).kind ≠ .openBracket) (made : Ty)
    (rest : Nat) (t : State) (there : t.pos = j) :
    typeSuffixes inside .lowest (rest + 1) made tokens t = .ok made t := by
  have none : Level.ofKindInType (tokens.next t) = .lowest := by
    rw [Stream.next, there]
    generalize (tokens.token j).kind = next at ends
    cases next <;> first | rfl | exact absurd rfl ends
  simp only [typeSuffixes, kind_bind, none]
  rfl

theorem typeWithin_returns {bound : Nat} {type : Ty}
    (arrives : Arrives tokens typeHead (typeSuffixes (typeWithin bound .lowest) .lowest) (· = type) i j)
    (inside : j < tokens.size) (ends : (tokens.token j).kind ≠ .openBracket) :
    Returns tokens (typeWithin (bound + 1) .lowest) (· = type) i j :=
  arrives.finish (Nat.le_of_lt inside) (typeSuffixes_stop ends)

theorem type_arrives (type : Ty) {bound : Nat} (spans : Spans tokens type.yield i j) (inside : j < tokens.size)
    (enough : j - i ≤ bound) :
    Arrives tokens typeHead (typeSuffixes (typeWithin bound .lowest) .lowest) (· = type) i j := by
  induction type generalizing i j bound with
  | named name =>
    obtain ⟨start, kind, value, rest⟩ := spans.token_cons
    cases rest.nil_eq inside
    exact .of_start (typeHead_returns start kind value) (Nat.lt_succ_self i)
  | array element ih =>
    obtain ⟨m, before, after⟩ := spans.split
    obtain ⟨opened, opener, -, after⟩ := after.token_cons
    obtain ⟨closed, closer, -, rest⟩ := after.token_cons
    cases rest.nil_eq inside
    have between : Returns tokens (bracketed (typeWithin bound .lowest) element) (· = .array element)
        (m + 1) (m + 1) := by
      refine .bind .kind ?_
      rintro found rfl
      rw [if_pos closer]
      exact .pure rfl
    have le := before.le
    refine typeSuffixes_go (ih before opened (by omega)) opener (by omega) ?_
    exact typeSuffix_returns opened opener between closed closer
  | map key value first second =>
    obtain ⟨m, before, after⟩ := spans.split
    obtain ⟨opened, opener, -, after⟩ := after.token_cons
    obtain ⟨q, middle, after⟩ := after.split
    obtain ⟨closed, closer, -, rest⟩ := after.token_cons
    cases rest.nil_eq inside
    have le := before.le
    have also := middle.le
    -- The key is read one level deeper than the value, and its text is shorter by the brackets.
    obtain ⟨less, rfl⟩ : ∃ less, bound = less + 1 := ⟨bound - 1, by omega⟩
    have keyed := typeWithin_returns (first middle closed (show q - (m + 1) ≤ less by omega)) closed
      (by rw [closer]; nofun)
    have between : Returns tokens (bracketed (typeWithin (less + 1) .lowest) value) (· = .map key value)
        (m + 1) q := by
      -- A key begins with a name or a type word, so that the brackets are not taken for those of an array.
      have open_ : (tokens.token (m + 1)).kind ≠ .closeBracket := by
        obtain ⟨_, _, ran, -, -⟩ := keyed ⟨m + 1, 0, .initial⟩ rfl
        intro same
        have begins := (typeWithin_reads _ ran).begins
        rw [Stream.next, same] at begins
        cases begins
      refine .bind .kind ?_
      rintro found rfl
      rw [if_neg open_]
      refine .bind keyed ?_
      rintro found rfl
      exact .pure rfl
    refine typeSuffixes_go (second before opened (by omega)) opener (by omega) ?_
    exact typeSuffix_returns opened opener between closed closer

theorem typeName_returns {type : Ty} (spans : Spans tokens type.yield i j) (inside : j < tokens.size)
    (ends : (tokens.token j).kind ≠ .openBracket) : Returns tokens (typeName .lowest) (· = type) i j :=
  fun s here => typeWithin_returns (type_arrives type spans inside (by omega)) inside ends s here

def CopyOf (expr made : Expr) : Prop := made.bare = expr.bare

theorem extensions_go {left : Expr} (before : Arrives tokens (head inner) (extensions inner level) (CopyOf left) i j)
    (above : level.rank < (Level.ofKind (tokens.token j).kind).rank) (lt : j < k)
    (wider : ∀ made, CopyOf left made → Returns tokens (extend inner (tokens.token j).kind made) (CopyOf expr) j k) :
    Arrives tokens (head inner) (extensions inner level) (CopyOf expr) i k := by
  refine before.go lt fun made same t there => ?_
  obtain ⟨whole, m, ran, right, stop⟩ := wider made same t there
  refine ⟨whole, m, fun rest => ?_, right, stop⟩
  have next : tokens.next t = (tokens.token j).kind := by rw [Stream.next, there]
  simp only [extensions, kind_bind, next]
  rw [if_neg (Nat.not_le_of_lt above), bind_of_ok ran]

def Recovered (tokens : Stream) (expr : Expr) (i j : Nat) : Prop :=
  ∀ level bound, j - i ≤ bound → level.rank ≤ Level.unary.rank → Fits level expr →
    Admits (tokens.token j).kind expr →
      Arrives tokens (head (expressionWithin bound)) (extensions (expressionWithin bound) level) (CopyOf expr) i j

theorem Recovered.returns (recovered : Recovered tokens expr i j) (enough : j - i ≤ bound)
    (inside : j < tokens.size) (low : level.rank ≤ Level.unary.rank) (fits : Fits level expr)
    (stops : (Level.ofKind (tokens.token j).kind).rank ≤ level.rank) :
    Returns tokens (expressionWithin (bound + 1) level) (CopyOf expr) i j := by
  refine (recovered level bound enough low fits (.of_stops low fits stops)).finish (Nat.le_of_lt inside) ?_
  intro made rest t there
  have ends : (Level.ofKind (tokens.next t)).rank ≤ level.rank := by rw [Stream.next, there]; exact stops
  simp only [extensions, kind_bind]
  rw [if_pos ends]
  rfl

-- All expressions whose text is shorter than a range are read back from it.
def Shorter (tokens : Stream) (n : Nat) : Prop :=
  ∀ expr i j, expr.Normal → Spans tokens expr.yield i j → j < tokens.size → j - i < n → Recovered tokens expr i j

theorem Shorter.reads (shorter : Shorter tokens n) (enough : n ≤ bound) (normal : expr.Normal)
    (spans : Spans tokens expr.yield i j) (inside : j < tokens.size) (less : j - i < n)
    (low : level.rank ≤ Level.unary.rank) (fits : Fits level expr)
    (stops : (Level.ofKind (tokens.token j).kind).rank ≤ level.rank) :
    Returns tokens (expressionWithin bound level) (CopyOf expr) i j := by
  obtain ⟨fewer, rfl⟩ : ∃ fewer, bound = fewer + 1 := ⟨bound - 1, by omega⟩
  exact (shorter expr i j normal spans inside less).returns (by omega) inside low fits stops

theorem fits_lowest (expr : Expr) : Fits .lowest expr := by
  refine .inl ?_
  cases expr with
  | unary _ _ _ after => cases after <;> simp [Expr.level, Level.rank]
  | binary _ operator => cases operator <;> simp [Expr.level, BinaryOp.level, BinaryOp.kind, Level.ofKind, Level.rank]
  | _ => simp [Expr.level, Level.rank]

theorem literalOf_of_spans {value : Literal} (spans : Spans tokens [value.mark] i j) (inside : j < tokens.size) :
    i < tokens.size ∧ literalOf? (tokens.token i) = some value ∧ j = i + 1 := by
  cases value with
  | number value =>
    obtain ⟨start, kind, denotes, rest⟩ := spans.numeral_cons
    exact ⟨start, by simp [literalOf?, kind, denotes], (rest.nil_eq inside).symm⟩
  | bool value =>
    cases value <;>
      obtain ⟨start, kind, -, rest⟩ := spans.token_cons <;>
      exact ⟨start, by simp [literalOf?, kind], (rest.nil_eq inside).symm⟩
  | char value =>
    obtain ⟨start, kind, text, rest⟩ := spans.token_cons
    exact ⟨start, by simp [literalOf?, kind, text], (rest.nil_eq inside).symm⟩
  | string value =>
    obtain ⟨start, kind, text, rest⟩ := spans.token_cons
    exact ⟨start, by simp [literalOf?, kind, text], (rest.nil_eq inside).symm⟩
  | null =>
    obtain ⟨start, kind, -, rest⟩ := spans.token_cons
    exact ⟨start, by simp [literalOf?, kind], (rest.nil_eq inside).symm⟩

theorem literal_returns {value : Literal} {node : Node} (inside : i < tokens.size)
    (found : literalOf? (tokens.token i) = some value) :
    Returns tokens (head inner) (CopyOf (.literal node value)) i (i + 1) := by
  have made (span : Span) : Returns tokens (literal value span) (CopyOf (.literal node value)) (i + 1) (i + 1) :=
    .bind (.node span) fun _ _ => .pure rfl
  refine .bind .kind ?_
  rintro _ rfl
  have primary : Returns tokens primary (CopyOf (.literal node value)) i (i + 1) := by
    refine .bind (.advance inside) ?_
    rintro _ rfl
    unfold literalOf? at found
    generalize (tokens.token i).kind = kind at found
    cases kind with
    | number =>
      obtain ⟨number, denotes, rfl⟩ := Option.map_eq_some_iff.mp found
      simp only [denotes]
      exact made _
    | character =>
      obtain ⟨c, first, rfl⟩ := Option.map_eq_some_iff.mp found
      obtain ⟨rest, text⟩ := List.head?_eq_some_iff.mp first
      simp only [text]
      exact made _
    | text | trueWord | falseWord | nullWord =>
      cases found
      exact made _
    | _ => cases found
  unfold literalOf? at found
  generalize (tokens.token i).kind = kind at found
  cases kind <;> first | exact primary | cases found

theorem name_returns {text : String} {node : Node} (inside : i < tokens.size)
    (kind : (tokens.token i).kind = .identifier) (value : (tokens.token i).value = text) :
    Returns tokens (head inner) (CopyOf (.name node text)) i (i + 1) := by
  refine .bind .kind ?_
  rintro _ rfl
  rw [kind]
  refine .bind (.advance inside) ?_
  rintro _ rfl
  simp only [kind]
  refine .bind (.node _) fun _ _ => .pure ?_
  rw [value]
  rfl

theorem leading_returns {operator : UnaryOp} {operand : Expr} {node : Node} (inside : i < tokens.size)
    (kind : (tokens.token i).kind = operator.kind)
    (body : Returns tokens (inner .unary) (CopyOf operand) (i + 1) j) :
    Returns tokens (head inner) (CopyOf (.unary node operator operand false)) i j := by
  refine .bind .kind ?_
  rintro _ rfl
  have leading : Returns tokens (leading inner) (CopyOf (.unary node operator operand false)) i j := by
    refine .bind (.advance inside) ?_
    rintro _ rfl
    simp only [UnaryOp.ofKind?_eq_some.mpr kind]
    refine .bind body fun made same => .bind (.node _) fun _ _ => .pure ?_
    simp only [CopyOf, Expr.bare, Expr.relabel] at same ⊢
    rw [same]
  rw [kind]
  cases operator <;> exact leading

theorem group_returns {body : Expr} {node : Node} (opened : i < tokens.size)
    (opener : (tokens.token i).kind = .openParen)
    (between : Returns tokens (inner .lowest) (CopyOf body) (i + 1) j) (closed : j < tokens.size)
    (closer : (tokens.token j).kind = .closeParen) :
    Returns tokens (head inner) (CopyOf (.group node body)) i (j + 1) := by
  refine .bind .kind ?_
  rintro _ rfl
  rw [opener]
  refine .bind (.advance opened) fun _ _ => .bind between fun made same => ?_
  refine .bind (.expect closed closer) fun _ _ => .bind (.nodeFrom _) fun _ _ => .pure ?_
  simp only [CopyOf, Expr.bare, Expr.relabel] at same ⊢
  rw [same]

theorem construct_returns {target : Ty} {exprs : List Expr} {node : Node} (opened : i < tokens.size)
    (word : (tokens.token i).kind = .newWord) (type : Returns tokens (typeName .lowest) (· = target) (i + 1) j)
    (listed : j < tokens.size) (opener : (tokens.token j).kind = .openParen)
    (between : Returns tokens (arguments inner .closeParen) (fun made => made.map Expr.bare = exprs.map Expr.bare)
      (j + 1) k) :
    Returns tokens (head inner) (CopyOf (.construct node target exprs)) i k := by
  refine .bind .kind ?_
  rintro _ rfl
  rw [word]
  refine .bind (.advance opened) fun _ _ => .bind type ?_
  rintro _ rfl
  refine .bind (.expect listed opener) fun _ _ => .bind between fun made same => ?_
  refine .bind (.nodeFrom _) fun _ _ => .pure ?_
  simp only [CopyOf, Expr.bare, Expr.relabel, Expr.relabelAll_eq] at same ⊢
  rw [same]

theorem closing_ends {closer : Kind} (closing : closer.isClosing = true) :
    closer ≠ .comma ∧ closer.beginsExpr = false ∧ Level.ofKind closer = .lowest := by
  cases closer <;> first | decide | cases closing

theorem separator_returns {ι : Type} {closer : Kind} (expected : List String) {others : List ι}
    (spans : Spans tokens [Mark.separator others] i k) (le : k ≤ j) (last : others = [] → k = j)
    (inside : j < tokens.size) (closes : (tokens.token j).kind = closer) (closing : closer.isClosing = true) :
    Returns tokens (separator closer expected) (fun _ => True) i k ∧ Level.ofKind (tokens.token i).kind = .lowest := by
  obtain ⟨other, -, ends⟩ := closing_ends closing
  have comma (here : i < tokens.size) (sign : (tokens.token i).kind = .comma) (rest : Spans tokens [] (i + 1) k) :
      Returns tokens (separator closer expected) (fun _ => True) i k ∧
        Level.ofKind (tokens.token i).kind = .lowest := by
    cases rest.nil_eq (by omega)
    refine ⟨.bind .kind ?_, by rw [sign]; rfl⟩
    rintro _ rfl
    rw [if_pos sign]
    exact .skip here
  cases others with
  | nil =>
    rcases spans.comma_cons with ⟨here, sign, rest⟩ | rest
    · exact comma here sign rest
    · cases last rfl
      cases rest.nil_eq inside
      refine ⟨.bind .kind ?_, by rw [closes, ends]⟩
      rintro _ rfl
      rw [closes, if_neg other, if_pos rfl]
      exact .pure trivial
  | cons first others =>
    obtain ⟨here, sign, -, rest⟩ := spans.token_cons
    exact comma here sign rest

theorem itemsFrom_returns {ι : Type} {closer : Kind} {item : Rule α} {wanted : ι → α → Prop}
    {text : ι → List ι → List Mark} {texts : List ι → List Mark} (empty : texts [] = [])
    (follows : ∀ first others, texts (first :: others) = text first others ++ texts others) {list : List ι}
    (each : ∀ first ∈ list, ∀ others p q, i ≤ p → q ≤ j → Spans tokens (text first others) p q →
      (others = [] → q = j) → p < q ∧ (tokens.token p).kind ≠ closer ∧ Returns tokens item (wanted first) p q)
    (spans : Spans tokens (texts list) i j) (inside : j < tokens.size) (closes : (tokens.token j).kind = closer)
    (previous : Option α) (enough : j - i < bound) :
    Returns tokens (itemsFrom closer (fun _ => item) bound previous) (List.Forall₂ wanted list) i j := by
  obtain ⟨fewer, rfl⟩ : ∃ fewer, bound = fewer + 1 := ⟨bound - 1, by omega⟩
  induction list generalizing i previous fewer with
  | nil =>
    rw [empty] at spans
    cases spans.nil_eq inside
    refine .bind .kind ?_
    rintro _ rfl
    rw [if_pos closes]
    exact .pure .nil
  | cons first others ih =>
    rw [follows] at spans
    obtain ⟨m, before, rest⟩ := spans.split
    have short := rest.le
    have last : others = [] → m = j := by
      rintro rfl
      rw [empty] at rest
      exact rest.nil_eq inside
    obtain ⟨lt, other, reads⟩ := each first List.mem_cons_self others i m (Nat.le_refl i) short before last
    obtain ⟨fewest, rfl⟩ : ∃ fewest, fewer = fewest + 1 := ⟨fewer - 1, by omega⟩
    refine .bind .kind ?_
    rintro _ rfl
    rw [if_neg other]
    refine .bind reads fun made same => ?_
    refine .bind (ih ?_ rest (some made) fewest (by omega)) fun list others => .pure (.cons same others)
    exact fun next member others p q low => each next (List.mem_cons_of_mem _ member) others p q (by omega)

theorem listed_returns {ι : Type} {closer : Kind} {expected : List String} {item : Rule α} {wanted : ι → α → Prop}
    {yield : ι → List Mark} {list : List ι}
    (each : ∀ first ∈ list, ∀ p q, i ≤ p → q ≤ j → Spans tokens (yield first) p q →
      Level.ofKind (tokens.token q).kind = .lowest →
        p < q ∧ (tokens.token p).kind ≠ closer ∧ Returns tokens item (wanted first) p q)
    (spans : Spans tokens (Mark.listed yield list) i j) (inside : j < tokens.size)
    (closes : (tokens.token j).kind = closer) (closing : closer.isClosing = true) :
    Returns tokens (listed closer expected item) (List.Forall₂ wanted list) i (j + 1) := by
  have follows (first : ι) (others : List ι) :
      Mark.listed yield (first :: others) = (yield first ++ [Mark.separator others]) ++ Mark.listed yield others := by
    rw [Mark.listed, List.append_assoc, List.singleton_append]
  refine .bind (j := j) ?_ fun made lists => .bind (.expect inside closes) fun _ _ => .pure lists
  intro s here
  refine itemsFrom_returns rfl follows ?_ spans inside closes none (by omega) s here
  intro first member others p q low high text last
  obtain ⟨m, before, after⟩ := text.split
  have le := after.le
  obtain ⟨separated, ends⟩ := separator_returns expected after high last inside closes closing
  obtain ⟨lt, other, reads⟩ := each first member p m low (by omega) before ends
  exact ⟨by omega, other, .bind reads fun made same => .bind separated fun _ _ => .pure same⟩

def Covers (tokens : Stream) (rule : Rule Expr) (exprs : List Expr) (i j : Nat) : Prop :=
  ∀ expr ∈ exprs, ∀ p q, i ≤ p → q ≤ j → Spans tokens expr.yield p q →
    Level.ofKind (tokens.token q).kind = .lowest →
      p < q ∧ (tokens.token p).kind.beginsExpr = true ∧ Returns tokens rule (CopyOf expr) p q

theorem arguments_returns {closer : Kind} {exprs : List Expr}
    (covers : Covers tokens (inner .lowest) exprs i j) (spans : Spans tokens (Expr.yieldAll exprs) i j)
    (inside : j < tokens.size) (closes : (tokens.token j).kind = closer) (closing : closer.isClosing = true) :
    Returns tokens (arguments inner closer) (fun made => made.map Expr.bare = exprs.map Expr.bare) i (j + 1) := by
  rw [Expr.yieldAll_eq] at spans
  have list : Returns tokens (arguments inner closer) (List.Forall₂ CopyOf exprs) i (j + 1) := by
    refine listed_returns ?_ spans inside closes closing
    intro first member p q low high text ends
    obtain ⟨lt, begins, reads⟩ := covers first member p q low high text ends
    refine ⟨lt, ?_, reads⟩
    intro same
    rw [same, (closing_ends closing).2.1] at begins
    cases begins
  refine list.imp fun made copies => ?_
  rw [← List.forall₂_eq_eq_eq, List.forall₂_map_left_iff, List.forall₂_map_right_iff]
  exact copies.flip

section
variable (shorter : Shorter tokens n) (enough : n ≤ bound)
include shorter enough

theorem Shorter.covers {exprs : List Expr} (normal : Expr.NormalAll exprs) (inside : j < tokens.size)
    (less : j - i < n) : Covers tokens (expressionWithin bound .lowest) exprs i j := by
  intro expr member p q low high spans ends
  have normal := Expr.normalAll_iff.mp normal expr member
  have stops : (Level.ofKind (tokens.token q).kind).rank ≤ Level.lowest.rank := Nat.le_of_eq (congrArg Level.rank ends)
  have recovered := shorter expr p q normal spans (by omega) (by omega)
  have returns := shorter.reads enough normal spans (by omega) (by omega) (by decide) (fits_lowest expr) stops
  have arrives := recovered .lowest bound (by omega) (by decide) (fits_lowest expr)
    (.of_stops (by decide) (fits_lowest expr) stops)
  obtain ⟨made, t, ran, -, -⟩ := returns ⟨p, 0, .initial⟩ rfl
  exact ⟨arrives.lt, (expressionWithin_reads bound _ _ _ _ ran).1.begins, returns⟩

theorem Shorter.arguments {closer : Kind} {exprs : List Expr} (normal : Expr.NormalAll exprs)
    (spans : Spans tokens (Expr.yieldAll exprs) i j) (inside : j < tokens.size) (less : j - i < n)
    (closes : (tokens.token j).kind = closer) (closing : closer.isClosing = true) :
    Returns tokens (Grammar.arguments (expressionWithin bound) closer)
      (fun made => made.map Expr.bare = exprs.map Expr.bare) i (j + 1) :=
  arguments_returns (shorter.covers enough normal inside less) spans inside closes closing

end

theorem Shorter.extends {left : Expr} (shorter : Shorter tokens (k - i)) (enough : k - i ≤ bound)
    (low : level.rank ≤ Level.unary.rank) (normal : left.Normal) (before : Spans tokens left.yield i j)
    (inside : j < tokens.size) (lt : j < k) (fits : Fits level left) (admits : Admits (tokens.token j).kind left)
    (above : level.rank < (Level.ofKind (tokens.token j).kind).rank)
    (wider : ∀ made, CopyOf left made →
      Returns tokens (extend (expressionWithin bound) (tokens.token j).kind made) (CopyOf expr) j k) :
    Arrives tokens (head (expressionWithin bound)) (extensions (expressionWithin bound) level) (CopyOf expr) i k := by
  have le := before.le
  have start := shorter left i j normal before inside (by omega) level bound (by omega) low fits admits
  exact extensions_go start above lt wider

theorem Shorter.suffix {left : Expr} (shorter : Shorter tokens (k - i)) (enough : k - i ≤ bound)
    (low : level.rank ≤ Level.unary.rank) (normal : left.Normal) (suffixed : left.IsSuffixed)
    (before : Spans tokens left.yield i j) (inside : j < tokens.size) (lt : j < k)
    (free : left.isCast = true → (tokens.token j).kind ≠ .openBracket)
    (tight : Level.unary.rank < (Level.ofKind (tokens.token j).kind).rank)
    (wider : ∀ made, CopyOf left made →
      Returns tokens (extend (expressionWithin bound) (tokens.token j).kind made) (CopyOf expr) j k) :
    Arrives tokens (head (expressionWithin bound)) (extensions (expressionWithin bound) level) (CopyOf expr) i k :=
  shorter.extends enough low normal before inside lt (.of_suffixed suffixed) (.of_suffixed suffixed free)
    (Nat.lt_of_le_of_lt low tight) wider

section
variable {node : Node} (shorter : Shorter tokens (k - i)) (inside : k < tokens.size)
include shorter inside

theorem member_recovered {object : Expr} {field : String} (normal : (Expr.member node object field).Normal)
    (spans : Spans tokens (Expr.member node object field).yield i k) :
    Recovered tokens (.member node object field) i k := by
  intro level bound enough low fits admits
  obtain ⟨whole, suffixed⟩ := normal
  obtain ⟨j, before, after⟩ := spans.split
  obtain ⟨dotted, dot, -, after⟩ := after.token_cons
  obtain ⟨named, name, value, rest⟩ := after.token_cons
  cases rest.nil_eq inside
  refine shorter.suffix enough low whole suffixed before dotted (by omega) (by rw [dot]; nofun)
    (by rw [dot]; decide) fun made same => ?_
  rw [dot]
  refine .bind (.skip dotted) fun _ _ => .bind (.expect named name) ?_
  rintro _ rfl
  refine .bind (.nodeFrom _) fun _ _ => .pure ?_
  simp only [CopyOf, Expr.bare, Expr.relabel] at same ⊢
  rw [same, value]

theorem cast_recovered {operand : Expr} {target : Ty} (normal : (Expr.cast node operand target).Normal)
    (spans : Spans tokens (Expr.cast node operand target).yield i k) :
    Recovered tokens (.cast node operand target) i k := by
  intro level bound enough low fits admits
  obtain ⟨whole, suffixed⟩ := normal
  obtain ⟨j, before, after⟩ := spans.split
  obtain ⟨here, word, -, type⟩ := after.token_cons
  refine shorter.suffix enough low whole suffixed before here type.le (by rw [word]; nofun)
    (by rw [word]; decide) fun made same => ?_
  rw [word]
  refine .bind (.skip here) fun _ _ => .bind (typeName_returns type inside admits) ?_
  rintro _ rfl
  refine .bind (.nodeFrom _) fun _ _ => .pure ?_
  simp only [CopyOf, Expr.bare, Expr.relabel] at same ⊢
  rw [same]

theorem trailing_recovered {operator : UnaryOp} {operand : Expr}
    (normal : (Expr.unary node operator operand true).Normal)
    (spans : Spans tokens (Expr.unary node operator operand true).yield i k) :
    Recovered tokens (.unary node operator operand true) i k := by
  intro level bound enough low fits admits
  obtain ⟨whole, suffixed, sort⟩ := normal
  obtain ⟨j, before, after⟩ := spans.split
  obtain ⟨here, sign, -, rest⟩ := after.token_cons
  cases rest.nil_eq inside
  have tight : Level.ofKind operator.kind = .suffix ∧ operator.kind ≠ .openBracket := by
    rcases sort with rfl | rfl <;> decide
  refine shorter.suffix enough low whole suffixed before here (Nat.lt_succ_self j)
    (by rw [sign]; exact fun _ => tight.2) (by rw [sign, tight.1]; decide) fun made same => ?_
  have trailing : Returns tokens (trailing made) (CopyOf (.unary node operator operand true)) j (j + 1) := by
    refine .bind (.advance here) ?_
    rintro _ rfl
    refine .bind (.node _) fun _ _ => .pure ?_
    simp only [CopyOf, Expr.bare, Expr.relabel] at same ⊢
    rw [same, sign]
    rcases sort with rfl | rfl <;> rfl
  rw [sign]
  rcases sort with rfl | rfl <;> exact trailing

theorem bracketed_recovered {callee whole : Expr} {exprs : List Expr} {opener closer : Kind}
    {build : Node → Expr → List Expr → Expr} (normal : callee.Normal) (suffixed : callee.IsSuffixed)
    (each : Expr.NormalAll exprs)
    (spans : Spans tokens (callee.yield ++ .fixed opener :: (Expr.yieldAll exprs ++ [.fixed closer])) i k)
    (free : callee.isCast = true → opener ≠ .openBracket)
    (tight : Level.ofKind opener = .call) (closing : closer.isClosing = true)
    (built : ∀ inner left, extend inner opener left = do
      skip
      let found ← arguments inner closer
      let made ← nodeFrom left.start
      pure (build made left found))
    (copies : ∀ made left found, CopyOf callee left → found.map Expr.bare = exprs.map Expr.bare →
      CopyOf whole (build made left found)) : Recovered tokens whole i k := by
  intro level bound enough low fits admits
  obtain ⟨j, before, after⟩ := spans.split
  obtain ⟨opened, start, -, after⟩ := after.token_cons
  obtain ⟨q, list, after⟩ := after.split
  obtain ⟨closed, stop, -, rest⟩ := after.token_cons
  cases rest.nil_eq inside
  have first := before.le
  have second := list.le
  refine shorter.suffix enough low normal suffixed before opened (by omega) (by rw [start]; exact free)
    (by rw [start, tight]; decide) fun made same => ?_
  rw [start, built]
  refine .bind (.skip opened) fun _ _ => .bind (shorter.arguments enough each list closed (by omega) stop closing) ?_
  intro found also
  exact .bind (.nodeFrom _) fun _ _ => .pure (copies _ _ _ same also)

theorem call_recovered {callee : Expr} {exprs : List Expr} (normal : (Expr.call node callee exprs).Normal)
    (spans : Spans tokens (Expr.call node callee exprs).yield i k) :
    Recovered tokens (.call node callee exprs) i k := by
  obtain ⟨whole, suffixed, each⟩ := normal
  refine bracketed_recovered shorter inside whole suffixed each spans nofun rfl rfl (fun _ _ => rfl) ?_
  intro made left found same also
  simp only [CopyOf, Expr.bare, Expr.relabel, Expr.relabelAll_eq] at same also ⊢
  rw [same, also]

theorem index_recovered {callee : Expr} {exprs : List Expr} (normal : (Expr.index node callee exprs).Normal)
    (spans : Spans tokens (Expr.index node callee exprs).yield i k) :
    Recovered tokens (.index node callee exprs) i k := by
  obtain ⟨whole, suffixed, free, each⟩ := normal
  refine bracketed_recovered shorter inside whole suffixed each spans (by rw [free]; nofun) rfl rfl (fun _ _ => rfl) ?_
  intro made left found same also
  simp only [CopyOf, Expr.bare, Expr.relabel, Expr.relabelAll_eq] at same also ⊢
  rw [same, also]

theorem binary_recovered {operator : BinaryOp} {left right : Expr}
    (normal : (Expr.binary node operator left right).Normal)
    (spans : Spans tokens (Expr.binary node operator left right).yield i k) :
    Recovered tokens (.binary node operator left right) i k := by
  intro level bound enough low fits admits
  obtain ⟨whole, other, holds⟩ : left.Normal ∧ right.Normal ∧ operator.Holds left.level right.level := normal
  obtain ⟨j, before, after⟩ := spans.split
  obtain ⟨here, sign, -, after⟩ := after.token_cons
  have first := before.le
  have second := after.le
  have above : level.rank < operator.level.rank :=
    fits.resolve_right (Nat.not_le_of_lt (binary_lt_unary operator))
  obtain ⟨least, tight⟩ := levels_of_holds holds
  have operand := shorter.reads enough other after inside (by omega) (operandLevel_low operator) (.inl tight) admits
  refine shorter.extends enough low whole before here (by omega) (.inl (Nat.lt_of_lt_of_le above least))
    (by rw [sign]; exact .of_holds holds) (by rw [sign]; exact above) fun made same => ?_
  have binary : Returns tokens (binary (expressionWithin bound) (operandLevel operator.kind) made)
      (CopyOf (.binary node operator left right)) j k := by
    refine .bind (.advance here) ?_
    rintro _ rfl
    simp only [BinaryOp.ofKind?_eq_some.mpr sign]
    refine .bind operand fun found also => .bind (.node _) fun _ _ => .pure ?_
    simp only [CopyOf, Expr.bare, Expr.relabel] at same also ⊢
    rw [same, also]
  rw [sign]
  cases operator <;> exact binary

theorem assignment_recovered (operator : AssignOp) (target value : Expr) (normal : target.Normal)
    (suffixed : target.IsSuffixed) (free : target.isCast = false) (other : value.Normal)
    (fitsLow : ∀ level, Fits level expr → level.rank < Level.assignment.rank)
    (ends : ∀ next, Admits next expr → (Level.ofKind next).rank ≤ Level.lowest.rank)
    (text : expr.yield = target.yield ++ .fixed operator.kind :: value.yield)
    (assigns : ∀ made found, CopyOf target made → CopyOf value found →
      Returns tokens (assignTo operator made found) (CopyOf expr) k k)
    (spans : Spans tokens expr.yield i k) : Recovered tokens expr i k := by
  intro level bound enough low fits admits
  rw [text] at spans
  obtain ⟨j, before, after⟩ := spans.split
  obtain ⟨here, sign, -, after⟩ := after.token_cons
  have first := before.le
  have second := after.le
  have given := shorter.reads enough other after inside (by omega) (by decide) (fits_lowest value) (ends _ admits)
  refine shorter.extends enough low normal before here (by omega) (.of_suffixed suffixed)
    (.of_suffixed suffixed (by rw [free]; nofun)) (by rw [sign, level_assign]; exact fitsLow level fits)
    fun made same => ?_
  have assignment : Returns tokens (assignment (expressionWithin bound) made) (CopyOf expr) j k := by
    refine .bind (.advance here) ?_
    rintro _ rfl
    simp only [AssignOp.ofKind?_eq_some.mpr sign]
    exact .bind given fun found also => assigns made found same also
  rw [sign]
  cases operator <;> exact assignment

theorem setName_recovered {text : String} {operator : AssignOp} {value : Expr}
    (normal : (Expr.setName node text operator value).Normal)
    (spans : Spans tokens (Expr.setName node text operator value).yield i k) :
    Recovered tokens (.setName node text operator value) i k := by
  have target : (Expr.name node text).IsSuffixed := by simp [Expr.IsSuffixed, Expr.level, Level.rank]
  refine assignment_recovered shorter inside operator (.name node text) value trivial target rfl normal
    (fun level fits => fits.resolve_right (by simp [Expr.level, Level.rank])) (fun next admits => admits) rfl ?_ spans
  intro made found same also
  cases made with
  | name other word =>
    refine .bind (.node _) fun _ _ => .pure ?_
    simp only [CopyOf, Expr.bare, Expr.relabel, Expr.name.injEq, true_and] at same also ⊢
    rw [same, also]
  | _ => simp [CopyOf, Expr.bare, Expr.relabel] at same

theorem setMember_recovered {object : Expr} {field : String} {operator : AssignOp} {value : Expr}
    (normal : (Expr.setMember node object field operator value).Normal)
    (spans : Spans tokens (Expr.setMember node object field operator value).yield i k) :
    Recovered tokens (.setMember node object field operator value) i k := by
  obtain ⟨whole, suffixed, other⟩ := normal
  have target : (Expr.member node object field).IsSuffixed := by simp [Expr.IsSuffixed, Expr.level, Level.rank]
  refine assignment_recovered shorter inside operator (.member node object field) value ⟨whole, suffixed⟩ target
    rfl other (fun level fits => fits.resolve_right (by simp [Expr.level, Level.rank])) (fun next admits => admits)
    (by simp [Expr.yield]) ?_ spans
  intro made found same also
  cases made with
  | member other made word =>
    refine .bind (.node _) fun _ _ => .pure ?_
    simp only [CopyOf, Expr.bare, Expr.relabel, Expr.member.injEq, true_and] at same also ⊢
    rw [same.1, same.2, also]
  | _ => simp [CopyOf, Expr.bare, Expr.relabel] at same

theorem setIndex_recovered {object key : Expr} {operator : AssignOp} {value : Expr}
    (normal : (Expr.setIndex node object key operator value).Normal)
    (spans : Spans tokens (Expr.setIndex node object key operator value).yield i k) :
    Recovered tokens (.setIndex node object key operator value) i k := by
  obtain ⟨whole, suffixed, free, each, other⟩ := normal
  have target : (Expr.index node object [key]).IsSuffixed := by simp [Expr.IsSuffixed, Expr.level, Level.rank]
  refine assignment_recovered shorter inside operator (.index node object [key]) value
    ⟨whole, suffixed, free, each, trivial⟩ target rfl other
    (fun level fits => fits.resolve_right (by simp [Expr.level, Level.rank])) (fun next admits => admits)
    (by simp [Expr.yield, Expr.yieldAll, Mark.separator]) ?_ spans
  intro made found same also
  cases made with
  | index other made keys =>
    simp only [CopyOf, Expr.bare, Expr.relabel, Expr.relabelAll_eq, Expr.index.injEq, true_and] at same
    obtain ⟨same, one⟩ := same
    obtain ⟨word, rfl⟩ : ∃ word, keys = [word] := List.length_eq_one_iff.mp (by
      have length := congrArg List.length one
      simpa using length)
    refine .bind (.node _) fun _ _ => .pure ?_
    simp only [CopyOf, Expr.bare, Expr.relabel, List.map_cons, List.cons.injEq] at one also ⊢
    rw [same, one.1, also]
  | _ => simp [CopyOf, Expr.bare, Expr.relabel] at same

theorem expr_recovered (normal : expr.Normal) (spans : Spans tokens expr.yield i k) :
    Recovered tokens expr i k := by
  cases expr with
  | literal node value =>
    obtain ⟨start, found, rfl⟩ := literalOf_of_spans spans inside
    exact fun _ _ _ _ _ _ => .of_start (literal_returns start found) (Nat.lt_succ_self i)
  | name node text =>
    obtain ⟨start, kind, value, rest⟩ := spans.token_cons
    cases rest.nil_eq inside
    exact fun _ _ _ _ _ _ => .of_start (name_returns start kind value) (Nat.lt_succ_self i)
  | group node body =>
    obtain ⟨opened, opener, -, after⟩ := spans.token_cons
    obtain ⟨q, before, after⟩ := after.split
    obtain ⟨closed, closer, -, rest⟩ := after.token_cons
    cases rest.nil_eq inside
    intro level bound enough low fits admits
    have le := before.le
    have whole : body.Normal := normal
    have between := shorter.reads enough whole before closed (by omega) (by decide) (fits_lowest body)
      (by rw [closer]; decide)
    exact .of_start (group_returns opened opener between closed closer) (by omega)
  | construct node target exprs =>
    obtain ⟨opened, word, -, after⟩ := spans.token_cons
    obtain ⟨m, type, after⟩ := after.split
    obtain ⟨listed, opener, -, after⟩ := after.token_cons
    obtain ⟨q, list, after⟩ := after.split
    obtain ⟨closed, closer, -, rest⟩ := after.token_cons
    cases rest.nil_eq inside
    intro level bound enough low fits admits
    have first := type.le
    have second := list.le
    have between := shorter.arguments enough normal list closed (by omega) closer rfl
    have target := typeName_returns type listed (by rw [opener]; nofun)
    exact .of_start (construct_returns opened word target listed opener between) (by omega)
  | unary node operator operand after =>
    cases after with
    | true => exact trailing_recovered shorter inside normal spans
    | false =>
      obtain ⟨whole, tight⟩ := normal
      obtain ⟨here, sign, -, after⟩ := spans.token_cons
      intro level bound enough low fits admits
      have le := after.le
      have body := shorter.reads enough whole after inside (by omega) (Nat.le_refl _) (.inr tight) admits
      exact .of_start (leading_returns here sign body) (by omega)
  | member => exact member_recovered shorter inside normal spans
  | cast => exact cast_recovered shorter inside normal spans
  | call => exact call_recovered shorter inside normal spans
  | index => exact index_recovered shorter inside normal spans
  | binary => exact binary_recovered shorter inside normal spans
  | setName => exact setName_recovered shorter inside normal spans
  | setMember => exact setMember_recovered shorter inside normal spans
  | setIndex => exact setIndex_recovered shorter inside normal spans

end

-- The induction is on the length of the text, not on the tree: the target of an assignment is read as an
-- expression that is no part of it.
theorem shorter_all (n : Nat) : Shorter tokens n := by
  induction n with
  | zero =>
    intro expr i j _ _ _ less
    exact absurd less (Nat.not_lt_zero _)
  | succ n ih =>
    intro expr i j normal spans inside less
    have shorter : Shorter tokens (j - i) := fun expr p q normal spans inside short =>
      ih expr p q normal spans inside (by omega)
    exact expr_recovered shorter inside normal spans

end TypedScript.Grammar
