import TypedScript.Proofs.Grammar.Nesting

namespace TypedScript

-- What is expected where a bound is spent, or where a rule is entered at a token that it does not start with.
-- No rule says so of a file.
def unexplained : List (List String) :=
  [[], ["operator"], ["="], ["!", "-", "++", "--"], ["\x7b", "(", "["]]

theorem Kind.name_explained (kind : Kind) : [kind.name] ∉ unexplained := by
  cases kind <;> decide

theorem Kind.comma_name_explained (kind : Kind) : [",", kind.name] ∉ unexplained := by
  cases kind <;> decide

namespace Grammar

-- All that a rule can fail with in a closed stream. Whether an integer may stand where the rule is, is left
-- to `integers`: only the members of an enumeration have one.
inductive Fault (tokens : Stream) (integers : Prop) : Error → Prop where
  | unexpected {found : String} {expected : List String} {place : Position}
      (explained : expected ∉ unexplained) : Fault tokens integers ⟨.unexpected found expected, place⟩
  | unnamed {found : String} {place : Position} :
      Fault tokens integers ⟨.unexpectedNear found "expected identifier during variable declaration", place⟩
  | number {i : Nat} {place : Position} (literal : (tokens.token i).kind = .number)
      (unread : Number.Binary64.ofText? (tokens.token i).value = none) :
      Fault tokens integers ⟨.badNumber (tokens.token i).value, place⟩
  | character {i : Nat} {place : Position} (literal : (tokens.token i).kind = .character)
      (empty : (tokens.token i).value.toList = []) :
      Fault tokens integers ⟨.unrecognised (tokens.token i).value, place⟩
  | integer {text : String} {place : Position} (allowed : integers) :
      Fault tokens integers ⟨.badNumber text, place⟩
  | badTarget {place : Position} : Fault tokens integers ⟨.badTarget, place⟩
  | enumDecreasing {name : String} {value minimum : Int} {place : Position} :
      Fault tokens integers ⟨.enumDecreasing name value minimum, place⟩
  | enumOverflow {name : String} {place : Position} : Fault tokens integers ⟨.enumOverflow name, place⟩
  | claim {i : Nat} {catalog left : Catalog} {owner : Owner} {place : Position} {error : Error}
      (named : (tokens.token i).kind = .identifier)
      (rejected : catalog.claim (tokens.token i).value owner place = .error error left) :
      Fault tokens integers error

-- How a run ends: inside the stream, whether it succeeds or fails. A run that succeeds ends at `low` or
-- later, and one that fails has a fault.
inductive Lands (tokens : Stream) (integers : Prop) (low : Nat) {α : Type} :
    EStateM.Result Error State α → Prop where
  | ok {value : α} {t : State} (past : low ≤ t.pos) (inside : t.pos < tokens.size) :
      Lands tokens integers low (.ok value t)
  | error {error : Error} {t : State} (inside : t.pos < tokens.size) (fault : Fault tokens integers error) :
      Lands tokens integers low (.error error t)

def Progresses (tokens : Stream) (integers : Prop) (after : Nat) {α : Type} (rule : Rule α) : Prop :=
  ∀ s : State, after ≤ s.pos → s.pos < tokens.size → Lands tokens integers (s.pos + 1) (rule tokens s)

variable {α β : Type} {tokens : Stream} {integers : Prop} {low high after bound : Nat} {s t : State}

theorem Fault.grant {granted : Prop} {error : Error} (fault : Fault tokens integers error)
    (given : integers → granted) : Fault tokens granted error := by
  cases fault with
  | unexpected explained => exact .unexpected explained
  | unnamed => exact .unnamed
  | number literal unread => exact .number literal unread
  | character literal empty => exact .character literal empty
  | integer allowed => exact .integer (given allowed)
  | badTarget => exact .badTarget
  | enumDecreasing => exact .enumDecreasing
  | enumOverflow => exact .enumOverflow
  | claim named rejected => exact .claim named rejected

namespace Lands

theorem mono {outcome : EStateM.Result Error State α} (lands : Lands tokens integers high outcome)
    (less : low ≤ high) : Lands tokens integers low outcome := by
  cases lands with
  | ok past inside => exact .ok (Nat.le_trans less past) inside
  | error inside fault => exact .error inside fault

theorem grant {granted : Prop} {outcome : EStateM.Result Error State α} (lands : Lands tokens integers low outcome)
    (given : granted) : Lands tokens granted low outcome := by
  cases lands with
  | ok past inside => exact .ok past inside
  | error inside fault => exact .error inside (fault.grant fun _ => given)

theorem bind {first : Rule α} {next : α → Rule β} (start : Lands tokens integers low (first tokens s))
    (rest : ∀ found m, first tokens s = .ok found m → low ≤ m.pos → m.pos < tokens.size →
      Lands tokens integers high (next found tokens m)) :
    Lands tokens integers high ((first >>= next) tokens s) := by
  cases ran : first tokens s with
  | ok found m =>
    rw [ran] at start
    rw [bind_of_ok ran]
    cases start with
    | ok past inside => exact rest found m ran past inside
  | error error m =>
    rw [ran] at start
    rw [bind_of_error ran]
    cases start with
    | error inside fault => exact .error inside fault

theorem answer {first : Rule α} {value : α → β} (start : Lands tokens integers low (first tokens s)) :
    Lands tokens integers low ((first >>= fun found => pure (value found)) tokens s) :=
  start.bind fun _ _ _ past inside => .ok past inside

theorem spanned {first : Rule α} {start : α → Position} {value : α → Span → β}
    (lands : Lands tokens integers low (first tokens s)) :
    Lands tokens integers low
      ((first >>= fun found => spanSince (start found) >>= fun span => pure (value found span)) tokens s) := by
  refine lands.bind fun _ _ _ past inside => ?_
  rw [spanSince_bind]
  exact .ok past inside

theorem unexpected {expected : List String} (inside : s.pos < tokens.size) (explained : expected ∉ unexplained) :
    Lands tokens integers low ((unexpected expected : Rule α) tokens s) :=
  .error inside (.unexpected explained)

theorem pure {value : α} (past : low ≤ s.pos) (inside : s.pos < tokens.size) :
    Lands tokens integers low ((pure value : Rule α) tokens s) := .ok past inside

theorem bounded {rule : Nat → Rule α} (within : Lands tokens integers low (rule (tokens.size + 1) tokens s)) :
    Lands tokens integers low (bounded rule tokens s) := within

end Lands

theorem Closed.stepped (closed : Closed tokens) (live : tokens.next s ≠ .endOfFile) :
    (s.step tokens).pos = s.pos + 1 ∧ (s.step tokens).pos < tokens.size := by
  have room : s.pos + 1 < tokens.size := closed.inside live
  have further := closed.step_pos live
  omega

theorem itemsFrom_lands (closer : Kind) {item : Option α → Rule α} (previous : Option α)
    (each : ∀ previous, Progresses tokens integers after (item previous)) (later : after ≤ s.pos)
    (inside : s.pos < tokens.size) (enough : tokens.size < s.pos + bound) :
    Lands tokens integers s.pos (itemsFrom closer item bound previous tokens s) := by
  induction bound generalizing s previous with
  | zero => omega
  | succ bound ih =>
    simp only [itemsFrom, kind_bind]
    split
    · exact .pure (Nat.le_refl _) inside
    · refine (each previous s later inside).bind fun first m _ past inside => ?_
      have rest := ih (some first) (s := m) (by omega) inside (by omega)
      exact (rest.mono (by omega)).answer

section
variable (closed : Closed tokens)
include closed

theorem advance_lands (live : tokens.next s ≠ .endOfFile) :
    Lands tokens integers (s.pos + 1) (advance tokens s) := by
  obtain ⟨further, room⟩ := closed.stepped live
  rw [advance_run]
  exact .ok (by omega) room

theorem expect_progresses {wanted : Kind} (wanting : wanted ≠ .endOfFile) :
    Progresses tokens integers 0 (expect wanted) := by
  intro s _ inside
  simp only [expect, kind_bind]
  split
  · rename_i same
    exact advance_lands closed (by rw [same]; exact wanting)
  · exact .unexpected inside wanted.name_explained

theorem items_progresses {closer : Kind} {item : Option α → Rule α}
    (each : ∀ previous, Progresses tokens integers after (item previous)) (wanting : closer ≠ .endOfFile) :
    Progresses tokens integers after (items closer item) := by
  intro s later inside
  have found : Lands tokens integers s.pos _ :=
    itemsFrom_lands closer none each later inside (show tokens.size < s.pos + (tokens.size + 1) by omega)
  refine (Lands.bounded found).bind fun _ m _ past inside => ?_
  exact ((expect_progresses closed wanting m (Nat.zero_le _) inside).mono (by omega)).answer

theorem separator_lands {closer : Kind} {expected : List String} (explained : expected ∉ unexplained)
    (inside : s.pos < tokens.size) :
    Lands tokens integers s.pos (separator closer expected tokens s) := by
  simp only [separator, kind_bind]
  split
  · rename_i comma
    exact ((advance_lands closed (by rw [comma]; decide)).mono (by omega)).answer
  · split
    · exact .pure (Nat.le_refl _) inside
    · exact .unexpected inside explained

theorem listed_progresses {closer : Kind} {expected : List String} {item : Rule α}
    (each : Progresses tokens integers after item) (wanting : closer ≠ .endOfFile)
    (explained : expected ∉ unexplained) : Progresses tokens integers after (listed closer expected item) := by
  refine items_progresses closed (fun _ s later inside => ?_) wanting
  refine (each s later inside).bind fun _ m _ past inside => ?_
  exact ((separator_lands closed explained inside).mono past).answer

theorem typeHead_progresses : Progresses tokens integers 0 typeHead := by
  intro s _ inside
  simp only [typeHead, kind_bind]
  split
  · rename_i word
    have live : tokens.next s ≠ .endOfFile := by
      intro ended
      rw [ended] at word
      cases word
    exact (advance_lands closed live).answer
  · exact .unexpected inside (by decide)

theorem typeSuffix_lands {inner : Rule Ty} (each : Progresses tokens integers after inner) (left : Ty)
    (later : after ≤ s.pos + 1) (inside : s.pos < tokens.size) :
    Lands tokens integers (s.pos + 1) (typeSuffix inner left tokens s) := by
  unfold typeSuffix
  refine (expect_progresses closed (by decide) s (Nat.zero_le _) inside).bind fun _ m _ past inside => ?_
  have between : Lands tokens integers m.pos (bracketed inner left tokens m) := by
    simp only [bracketed, kind_bind]
    split
    · exact .pure (Nat.le_refl _) inside
    · exact ((each m (by omega) inside).mono (by omega)).answer
  refine between.bind fun _ n _ past inside => ?_
  refine (expect_progresses closed (by decide) n (Nat.zero_le _) inside).bind fun _ n _ past inside => ?_
  rw [enter_bind]
  exact .pure (show s.pos + 1 ≤ n.pos by omega) inside

theorem typeSuffixes_lands {inner : Rule Ty} {level : Level} (each : Progresses tokens integers after inner)
    (left : Ty) (later : after ≤ s.pos + 1) (inside : s.pos < tokens.size)
    (enough : tokens.size < s.pos + bound) :
    Lands tokens integers s.pos (typeSuffixes inner level bound left tokens s) := by
  induction bound generalizing s left with
  | zero => omega
  | succ bound ih =>
    simp only [typeSuffixes, kind_bind]
    split
    · exact .pure (Nat.le_refl _) inside
    · refine (typeSuffix_lands closed each left later inside).bind fun wider m _ past inside => ?_
      exact (ih wider (by omega) inside (by omega)).mono (by omega)

-- Each level of nesting takes a token, so that a bound above the number of tokens left is never spent.
theorem typeWithin_progresses (bound : Nat) (level : Level) :
    Progresses tokens integers (tokens.size + 1 - bound) (typeWithin bound level) := by
  induction bound generalizing level with
  | zero =>
    intro s later inside
    omega
  | succ bound ih =>
    intro s later inside
    refine (typeHead_progresses closed s (Nat.zero_le _) inside).bind fun left m _ past inside => ?_
    exact (Lands.bounded (typeSuffixes_lands closed (ih .lowest) left (by omega) inside (by omega))).mono past

theorem typeName_progresses (level : Level) : Progresses tokens integers 0 (typeName level) :=
  fun s _ inside => .bounded (typeWithin_progresses closed _ level s (by omega) inside)

theorem primary_lands (live : tokens.next s ≠ .endOfFile) :
    Lands tokens integers (s.pos + 1) (primary tokens s) := by
  obtain ⟨further, room⟩ := closed.stepped live
  have made : ∀ value span, Lands tokens integers (s.pos + 1) (literal value span tokens (s.step tokens)) :=
    fun _ _ => .pure (Nat.le_of_eq further.symm) room
  simp only [primary, advance_bind]
  generalize same : (tokens.token s.pos).kind = found
  cases found with
  | number =>
    cases read : Number.Binary64.ofText? (tokens.token s.pos).value with
    | some value => exact made _ _
    | none => exact .error room (.number same read)
  | character =>
    cases read : (tokens.token s.pos).value.toList with
    | cons value rest => exact made _ _
    | nil => exact .error room (.character same read)
  | text | trueWord | falseWord | nullWord => exact made _ _
  | identifier => exact .pure (Nat.le_of_eq further.symm) room
  | _ => exact .error room (.unexpected (by decide))

section
variable {inner : Inner} (each : ∀ level, Progresses tokens integers after (inner level))
  (later : after ≤ s.pos + 1)
include each later

theorem leading_lands {operator : UnaryOp} (known : UnaryOp.ofKind? (tokens.next s) = some operator) :
    Lands tokens integers (s.pos + 1) (leading inner tokens s) := by
  have live : tokens.next s ≠ .endOfFile := Kind.ne_end_of_isPlain (unaryOp_plain known)
  unfold leading
  refine (advance_lands closed live).bind fun _ m ran past inside => ?_
  cases ran
  simp only [show UnaryOp.ofKind? (tokens.token s.pos).kind = some operator from known]
  refine (each _ _ (by omega) inside).bind fun _ n _ past inside => ?_
  rw [node_bind]
  exact .pure (show s.pos + 1 ≤ n.pos by omega) inside

theorem group_lands (live : tokens.next s ≠ .endOfFile) :
    Lands tokens integers (s.pos + 1) (group inner tokens s) := by
  unfold group
  refine (advance_lands closed live).bind fun _ m _ past inside => ?_
  refine (each _ m (by omega) inside).bind fun _ n _ past inside => ?_
  refine (expect_progresses closed (by decide) n (Nat.zero_le _) inside).bind fun _ k _ past inside => ?_
  rw [nodeFrom_bind]
  exact .pure (show s.pos + 1 ≤ k.pos by omega) inside

omit later in
theorem arguments_progresses {closer : Kind} (wanting : closer ≠ .endOfFile) :
    Progresses tokens integers after (arguments inner closer) :=
  listed_progresses closed (each _) wanting closer.comma_name_explained

theorem construct_lands (live : tokens.next s ≠ .endOfFile) :
    Lands tokens integers (s.pos + 1) (construct inner tokens s) := by
  unfold construct
  refine (advance_lands closed live).bind fun _ m _ past inside => ?_
  refine (typeName_progresses closed _ m (Nat.zero_le _) inside).bind fun _ n _ past inside => ?_
  refine (expect_progresses closed (by decide) n (Nat.zero_le _) inside).bind fun _ k _ past inside => ?_
  refine (arguments_progresses closed each (by decide) k (by omega) inside).bind fun _ l _ past inside => ?_
  rw [nodeFrom_bind]
  exact .pure (show s.pos + 1 ≤ l.pos by omega) inside

theorem head_lands (inside : s.pos < tokens.size) :
    Lands tokens integers (s.pos + 1) (head inner tokens s) := by
  simp only [head, kind_bind]
  generalize same : tokens.next s = found
  cases found with
  | number | text | character | trueWord | falseWord | nullWord | identifier =>
    exact primary_lands closed (by rw [same]; decide)
  | not | dash | plusPlus | minusMinus => exact leading_lands closed each later (by rw [same]; rfl)
  | openParen => exact group_lands closed each later (by rw [same]; decide)
  | newWord => exact construct_lands closed each later (by rw [same]; decide)
  | _ => exact .unexpected inside (by decide)

theorem binary_lands {level : Level} {left : Expr} {operator : BinaryOp}
    (known : BinaryOp.ofKind? (tokens.next s) = some operator) :
    Lands tokens integers (s.pos + 1) (binary inner level left tokens s) := by
  have live : tokens.next s ≠ .endOfFile := Kind.ne_end_of_isPlain (binaryOp_plain known)
  unfold binary
  refine (advance_lands closed live).bind fun _ m ran past inside => ?_
  cases ran
  simp only [show BinaryOp.ofKind? (tokens.token s.pos).kind = some operator from known]
  refine (each _ _ (by omega) inside).bind fun _ n _ past inside => ?_
  rw [node_bind]
  exact .pure (show s.pos + 1 ≤ n.pos by omega) inside

theorem assignment_lands {left : Expr} {operator : AssignOp}
    (known : AssignOp.ofKind? (tokens.next s) = some operator) :
    Lands tokens integers (s.pos + 1) (assignment inner left tokens s) := by
  have live : tokens.next s ≠ .endOfFile := Kind.ne_end_of_isPlain (assignOp_plain known)
  unfold assignment
  refine (advance_lands closed live).bind fun _ m ran past inside => ?_
  cases ran
  simp only [show AssignOp.ofKind? (tokens.token s.pos).kind = some operator from known]
  refine (each _ _ (by omega) inside).bind fun _ n _ past inside => ?_
  have late : s.pos + 1 ≤ n.pos := by omega
  unfold assignTo
  split
  · exact .pure late inside
  · exact .pure late inside
  · exact .pure late inside
  · exact .error inside .badTarget

theorem enclosed_lands {closer : Kind} {start : Position} (make : Node → List Expr → Expr)
    (wanting : closer ≠ .endOfFile) (live : tokens.next s ≠ .endOfFile) :
    Lands tokens integers (s.pos + 1) ((skip >>= fun _ => arguments inner closer >>= fun given =>
      nodeFrom start >>= fun node => pure (make node given)) tokens s) := by
  refine (advance_lands closed live).answer.bind fun _ m _ past inside => ?_
  refine (arguments_progresses closed each wanting m (by omega) inside).bind fun _ n _ past inside => ?_
  rw [nodeFrom_bind]
  exact .pure (show s.pos + 1 ≤ n.pos by omega) inside

end

theorem trailing_lands {left : Expr} (live : tokens.next s ≠ .endOfFile) :
    Lands tokens integers (s.pos + 1) (trailing left tokens s) := by
  unfold trailing
  refine (advance_lands closed live).bind fun _ m _ past inside => ?_
  rw [node_bind]
  exact .pure past inside

theorem member_lands {left : Expr} (live : tokens.next s ≠ .endOfFile) :
    Lands tokens integers (s.pos + 1) (member left tokens s) := by
  unfold member
  refine (advance_lands closed live).answer.bind fun _ m _ past inside => ?_
  refine (expect_progresses closed (by decide) m (Nat.zero_le _) inside).bind fun _ n _ past inside => ?_
  rw [nodeFrom_bind]
  exact .pure (show s.pos + 1 ≤ n.pos by omega) inside

theorem cast_lands {left : Expr} (live : tokens.next s ≠ .endOfFile) :
    Lands tokens integers (s.pos + 1) (cast left tokens s) := by
  unfold cast
  refine (advance_lands closed live).answer.bind fun _ m _ past inside => ?_
  refine (typeName_progresses closed _ m (Nat.zero_le _) inside).bind fun _ n _ past inside => ?_
  rw [nodeFrom_bind]
  exact .pure (show s.pos + 1 ≤ n.pos by omega) inside

section
variable {inner : Inner} (each : ∀ level, Progresses tokens integers after (inner level))
include each

theorem extend_lands {left : Expr} (later : after ≤ s.pos + 1)
    (goesOn : Level.ofKind (tokens.next s) ≠ .lowest) :
    Lands tokens integers (s.pos + 1) (extend inner (tokens.next s) left tokens s) := by
  generalize same : tokens.next s = next at goesOn
  cases next with
  | assign | plusEquals | minusEquals | starEquals | slashEquals | percentEquals =>
    exact assignment_lands closed each later (by rw [same]; rfl)
  | and | or | equals | notEquals | tildeEquals | less | lessEquals | greater | greaterEquals | plus | dash
  | star | slash | percent | caret => exact binary_lands closed each later (by rw [same]; rfl)
  | plusPlus | minusMinus =>
    exact trailing_lands closed (by rw [same]; decide)
  | asWord => exact cast_lands closed (by rw [same]; decide)
  | openParen =>
    exact enclosed_lands closed each later (fun node given => .call node left given) (by decide) (by rw [same]; decide)
  | openBracket =>
    exact enclosed_lands closed each later (fun node given => .index node left given) (by decide) (by rw [same]; decide)
  | dot => exact member_lands closed (by rw [same]; decide)
  | _ => exact (goesOn rfl).elim

theorem extensions_lands {level : Level} (left : Expr) (later : after ≤ s.pos + 1)
    (inside : s.pos < tokens.size) (enough : tokens.size < s.pos + bound) :
    Lands tokens integers s.pos (extensions inner level bound left tokens s) := by
  induction bound generalizing s left with
  | zero => omega
  | succ bound ih =>
    simp only [extensions, kind_bind]
    split
    · exact .pure (Nat.le_refl _) inside
    · rename_i above
      have goesOn : Level.ofKind (tokens.next s) ≠ .lowest := fun lowest => above (by rw [lowest]; exact Nat.zero_le _)
      refine (extend_lands closed each later goesOn).bind fun wider m _ past inside => ?_
      exact (ih wider (by omega) inside (by omega)).mono (by omega)

end

theorem expressionWithin_progresses (bound : Nat) (level : Level) :
    Progresses tokens integers (tokens.size + 1 - bound) (expressionWithin bound level) := by
  induction bound generalizing level with
  | zero =>
    intro s later inside
    omega
  | succ bound ih =>
    intro s later inside
    refine (head_lands closed ih (by omega) inside).bind fun left m _ past inside => ?_
    exact (Lands.bounded (extensions_lands closed ih left (by omega) inside (by omega))).mono past

theorem expression_progresses (level : Level) : Progresses tokens integers 0 (expression level) :=
  fun s _ inside => .bounded (expressionWithin_progresses closed _ level s (by omega) inside)

theorem initializer_lands (inside : s.pos < tokens.size) : Lands tokens integers s.pos (initializer tokens s) := by
  simp only [initializer, kind_bind]
  split
  · rename_i sign
    refine (advance_lands closed (by rw [sign]; decide)).answer.bind fun _ m _ past inside => ?_
    exact ((expression_progresses closed _ m (Nat.zero_le _) inside).mono (by omega)).answer
  · exact .pure (Nat.le_refl _) inside

theorem boundName_progresses : Progresses tokens integers 0 boundName := by
  intro s _ inside
  simp only [boundName, kind_bind]
  split
  · rename_i named
    exact advance_lands closed (by rw [named]; decide)
  · exact .error inside .unnamed

theorem binding_progresses : Progresses tokens integers 0 binding := by
  intro s _ inside
  unfold binding
  rw [place_bind]
  refine (typeName_progresses closed _ s (Nat.zero_le _) inside).bind fun _ m _ past inside => ?_
  refine (boundName_progresses closed m (Nat.zero_le _) inside).bind fun _ n _ past inside => ?_
  exact ((initializer_lands closed inside).mono (by omega)).spanned

theorem bindingLine_progresses : Progresses tokens integers 0 bindingLine := by
  intro s _ inside
  unfold bindingLine
  refine (binding_progresses closed s (Nat.zero_le _) inside).bind fun _ m _ past inside => ?_
  exact ((expect_progresses closed (by decide) m (Nat.zero_le _) inside).mono (by omega)).spanned

theorem condition_progresses : Progresses tokens integers 0 condition := by
  intro s _ inside
  unfold condition
  refine (expect_progresses closed (by decide) s (Nat.zero_le _) inside).bind fun _ m _ past inside => ?_
  refine (expression_progresses closed _ m (Nat.zero_le _) inside).bind fun _ n _ past inside => ?_
  exact ((expect_progresses closed (by decide) n (Nat.zero_le _) inside).mono (by omega)).answer

theorem opening_progresses : Progresses tokens integers 0 opening := by
  intro s _ inside
  obtain ⟨starts, looked⟩ := startsVariable_run tokens s
  unfold opening
  rw [bind_of_ok looked]
  split
  · exact (binding_progresses closed s (Nat.zero_le _) inside).answer
  · exact (expression_progresses closed _ s (Nat.zero_le _) inside).answer

theorem optionalExpression_lands (inside : s.pos < tokens.size) :
    Lands tokens integers s.pos (optionalExpression tokens s) := by
  simp only [optionalExpression, kind_bind]
  split
  · exact .pure (Nat.le_refl _) inside
  · exact ((expression_progresses closed _ s (Nat.zero_le _) inside).mono (by omega)).answer

theorem returning_lands (live : tokens.next s ≠ .endOfFile) :
    Lands tokens integers (s.pos + 1) (returning tokens s) := by
  unfold returning
  refine (advance_lands closed live).bind fun _ m _ past inside => ?_
  refine (optionalExpression_lands closed inside).bind fun _ n _ past inside => ?_
  exact ((expect_progresses closed (by decide) n (Nat.zero_le _) inside).mono (by omega)).spanned

theorem jump_lands {kind : Jump} (live : tokens.next s ≠ .endOfFile) :
    Lands tokens integers (s.pos + 1) (jump kind tokens s) := by
  unfold jump
  refine (advance_lands closed live).bind fun _ m _ past inside => ?_
  exact ((expect_progresses closed (by decide) m (Nat.zero_le _) inside).mono (by omega)).spanned

theorem simple_progresses : Progresses tokens integers 0 simple := by
  intro s _ inside
  obtain ⟨starts, looked⟩ := startsVariable_run tokens s
  unfold simple
  rw [bind_of_ok looked]
  split
  · exact (bindingLine_progresses closed s (Nat.zero_le _) inside).answer
  · refine (expression_progresses closed _ s (Nat.zero_le _) inside).bind fun _ m _ past inside => ?_
    exact ((expect_progresses closed (by decide) m (Nat.zero_le _) inside).mono (by omega)).spanned

section
variable {inner : Rule Stmt} (each : Progresses tokens integers after inner) (later : after ≤ s.pos + 1)
include each later

theorem blockOf_lands (inside : s.pos < tokens.size) :
    Lands tokens integers (s.pos + 1) (blockOf inner tokens s) := by
  have item : Progresses tokens integers after (more >>= fun left => if left then inner else unexpected ["\x7d"]) := by
    intro m later inside
    rw [more_bind]
    split
    · exact each m later inside
    · exact .unexpected inside (by decide)
  unfold blockOf
  refine (expect_progresses closed (by decide) s (Nat.zero_le _) inside).bind fun _ m _ past inside => ?_
  exact ((items_progresses closed (fun _ => item) (by decide) m (by omega) inside).mono (by omega)).spanned

theorem ifElse_lands (live : tokens.next s ≠ .endOfFile) :
    Lands tokens integers (s.pos + 1) (ifElse inner tokens s) := by
  unfold ifElse
  refine (advance_lands closed live).bind fun _ m _ past inside => ?_
  refine (condition_progresses closed m (Nat.zero_le _) inside).bind fun _ n _ past inside => ?_
  refine (each n (by omega) inside).bind fun _ k _ past inside => ?_
  rw [kind_bind]
  split
  · rename_i word
    refine (advance_lands closed (by rw [word]; decide)).answer.bind fun _ l _ past inside => ?_
    exact ((each l (by omega) inside).mono (by omega)).spanned
  · rw [spanSince_bind]
    exact .pure (by omega) inside

theorem whileLoop_lands (live : tokens.next s ≠ .endOfFile) :
    Lands tokens integers (s.pos + 1) (whileLoop inner tokens s) := by
  unfold whileLoop
  refine (advance_lands closed live).bind fun _ m _ past inside => ?_
  refine (condition_progresses closed m (Nat.zero_le _) inside).bind fun _ n _ past inside => ?_
  exact ((each n (by omega) inside).mono (by omega)).spanned

theorem forLoop_lands (live : tokens.next s ≠ .endOfFile) :
    Lands tokens integers (s.pos + 1) (forLoop inner tokens s) := by
  have openings : Progresses tokens integers 0 (listed .semicolon [",", ";"] opening) :=
    listed_progresses closed (opening_progresses closed) (by decide) (by decide)
  have iterators : Progresses tokens integers 0 (listed .closeParen [",", ")"] (expression .lowest)) :=
    listed_progresses closed (expression_progresses closed _) (by decide) (by decide)
  unfold forLoop
  refine (advance_lands closed live).bind fun _ m _ past inside => ?_
  refine (expect_progresses closed (by decide) m (Nat.zero_le _) inside).bind fun _ n _ past inside => ?_
  refine (openings n (Nat.zero_le _) inside).bind fun _ k _ past inside => ?_
  refine (optionalExpression_lands closed inside).bind fun _ l _ past inside => ?_
  refine (expect_progresses closed (by decide) l (Nat.zero_le _) inside).bind fun _ m _ past inside => ?_
  refine (iterators m (Nat.zero_le _) inside).bind fun _ n _ past inside => ?_
  exact ((each n (by omega) inside).mono (by omega)).spanned

end

theorem statementWithin_progresses (bound : Nat) :
    Progresses tokens integers (tokens.size + 1 - bound) (statementWithin bound) := by
  induction bound with
  | zero =>
    intro s later inside
    omega
  | succ bound ih =>
    intro s later inside
    have deeper : tokens.size + 1 - bound ≤ s.pos + 1 := by omega
    simp only [statementWithin, kind_bind]
    generalize same : tokens.next s = found
    cases found with
    | openCurly => exact (blockOf_lands closed ih deeper inside).answer
    | ifWord => exact ifElse_lands closed ih deeper (by rw [same]; decide)
    | whileWord => exact whileLoop_lands closed ih deeper (by rw [same]; decide)
    | forWord => exact forLoop_lands closed ih deeper (by rw [same]; decide)
    | returnWord => exact returning_lands closed (by rw [same]; decide)
    | breakWord | continueWord => exact jump_lands closed (by rw [same]; decide)
    | _ => exact simple_progresses closed s (Nat.zero_le _) inside

theorem statement_progresses : Progresses tokens integers 0 statement :=
  fun s _ inside => .bounded (statementWithin_progresses closed _ s (by omega) inside)

theorem block_progresses : Progresses tokens integers 0 block :=
  fun _ _ inside => blockOf_lands closed (statement_progresses closed) (Nat.zero_le _) inside

theorem keywordName_progresses {keyword : Kind} (wanting : keyword ≠ .endOfFile) :
    Progresses tokens integers 0 (keywordName keyword) := by
  intro s _ inside
  unfold keywordName
  refine (expect_progresses closed wanting s (Nat.zero_le _) inside).bind fun _ m _ past inside => ?_
  exact (expect_progresses closed (by decide) m (Nat.zero_le _) inside).mono (by omega)

theorem struct_progresses : Progresses tokens integers 0 struct := by
  intro s _ inside
  unfold struct
  rw [place_bind]
  refine (keywordName_progresses closed (by decide) s (Nat.zero_le _) inside).bind fun _ m _ past inside => ?_
  refine (expect_progresses closed (by decide) m (Nat.zero_le _) inside).bind fun _ n _ past inside => ?_
  refine (items_progresses closed (fun _ => bindingLine_progresses closed) (by decide) n (Nat.zero_le _) inside).bind
    fun _ k _ past inside => ?_
  rw [enter_bind, spanSince_bind]
  exact .pure (show s.pos + 1 ≤ k.pos by omega) inside

section
variable (allowed : integers)
include allowed

theorem integer_progresses : Progresses tokens integers 0 integer := by
  intro s _ inside
  unfold integer
  refine (expect_progresses closed (by decide) s (Nat.zero_le _) inside).bind fun found m _ past inside => ?_
  cases Number.Signed64.ofText? found.value with
  | some value => exact .pure past inside
  | none => exact .error inside (.integer allowed)

theorem signedInteger_progresses : Progresses tokens integers 0 signedInteger := by
  intro s _ inside
  simp only [signedInteger, kind_bind]
  split
  · rename_i sign
    refine (advance_lands closed (by rw [sign]; decide)).answer.bind fun _ m _ past inside => ?_
    exact ((integer_progresses closed allowed m (Nat.zero_le _) inside).mono (by omega)).answer
  · exact integer_progresses closed allowed s (Nat.zero_le _) inside

theorem memberValue_lands {member : Token} {previous : Option Int} (inside : s.pos < tokens.size) :
    Lands tokens integers s.pos (memberValue member previous tokens s) := by
  simp only [memberValue, kind_bind]
  split
  · rename_i sign
    refine (advance_lands closed (by rw [sign]; decide)).answer.bind fun _ m _ past inside => ?_
    unfold statedValue
    rw [place_bind]
    refine (signedInteger_progresses closed allowed m (Nat.zero_le _) inside).bind fun _ n _ past inside => ?_
    split
    · exact .pure (by omega) inside
    · split
      · exact .error inside .enumDecreasing
      · exact .pure (by omega) inside
  · cases previous with
    | none => exact .pure (Nat.le_refl _) inside
    | some value =>
      simp only [impliedValue]
      cases Number.Signed64.next? value with
      | some value => exact .pure (Nat.le_refl _) inside
      | none => exact .error inside .enumOverflow

theorem enumMember_progresses (previous : Option Member) : Progresses tokens integers 0 (enumMember previous) := by
  intro s _ inside
  unfold enumMember
  refine (expect_progresses closed (by decide) s (Nat.zero_le _) inside).bind fun _ m _ past inside => ?_
  refine (memberValue_lands closed allowed inside).bind fun _ n _ past inside => ?_
  rw [spanSince_bind]
  exact ((separator_lands closed (by decide) inside).mono (by omega)).answer

theorem enumeration_progresses : Progresses tokens integers 0 enumeration := by
  intro s _ inside
  unfold enumeration
  rw [place_bind]
  refine (keywordName_progresses closed (by decide) s (Nat.zero_le _) inside).bind fun _ m _ past inside => ?_
  refine (expect_progresses closed (by decide) m (Nat.zero_le _) inside).bind fun _ n _ past inside => ?_
  refine (items_progresses closed (enumMember_progresses closed allowed) (by decide) n (Nat.zero_le _) inside).bind
    fun _ k _ past inside => ?_
  rw [enter_bind, spanSince_bind]
  exact .pure (show s.pos + 1 ≤ k.pos by omega) inside

end

theorem delegateParameter_progresses : Progresses tokens integers 0 delegateParameter := by
  intro s _ inside
  unfold delegateParameter
  refine (typeName_progresses closed _ s (Nat.zero_le _) inside).bind fun _ m _ past inside => ?_
  rw [kind_bind]
  split
  · rename_i named
    exact ((advance_lands closed (by rw [named]; decide)).mono (by omega)).answer.answer
  · exact .pure past inside

theorem delegateHead_progresses : Progresses tokens integers 0 delegateHead := by
  intro s _ inside
  have parameters : Progresses tokens integers 0 (listed .closeParen [",", ")"] delegateParameter) :=
    listed_progresses closed (delegateParameter_progresses closed) (by decide) (by decide)
  unfold delegateHead
  refine (expect_progresses closed (by decide) s (Nat.zero_le _) inside).bind fun _ m _ past inside => ?_
  refine (typeName_progresses closed _ m (Nat.zero_le _) inside).bind fun _ n _ past inside => ?_
  refine (expect_progresses closed (by decide) n (Nat.zero_le _) inside).bind fun _ k _ past inside => ?_
  refine (expect_progresses closed (by decide) k (Nat.zero_le _) inside).bind fun _ l _ past inside => ?_
  refine (parameters l (Nat.zero_le _) inside).bind fun _ m _ past inside => ?_
  exact ((expect_progresses closed (by decide) m (Nat.zero_le _) inside).mono (by omega)).spanned

theorem delegate_progresses : Progresses tokens integers 0 delegate := by
  intro s _ inside
  unfold delegate
  refine (delegateHead_progresses closed s (Nat.zero_le _) inside).bind fun _ _ _ past inside => ?_
  rw [enter_bind]
  exact .pure past inside

theorem parameter_progresses : Progresses tokens integers 0 parameter := by
  intro s _ inside
  unfold parameter
  rw [place_bind]
  refine (typeName_progresses closed _ s (Nat.zero_le _) inside).bind fun _ m _ past inside => ?_
  exact ((expect_progresses closed (by decide) m (Nat.zero_le _) inside).mono (by omega)).spanned

theorem functionHead_progresses : Progresses tokens integers 0 functionHead := by
  intro s _ inside
  have parameters : Progresses tokens integers 0 (listed .closeParen [",", ")"] parameter) :=
    listed_progresses closed (parameter_progresses closed) (by decide) (by decide)
  unfold functionHead
  refine (typeName_progresses closed _ s (Nat.zero_le _) inside).bind fun _ m _ past inside => ?_
  refine (expect_progresses closed (by decide) m (Nat.zero_le _) inside).bind fun _ n _ past inside => ?_
  refine (expect_progresses closed (by decide) n (Nat.zero_le _) inside).bind fun _ k _ past inside => ?_
  exact ((parameters k (Nat.zero_le _) inside).mono (by omega)).answer

theorem function_progresses : Progresses tokens integers 0 function := by
  intro s _ inside
  unfold function
  rw [place_bind]
  refine (functionHead_progresses closed s (Nat.zero_le _) inside).bind fun _ m _ past inside => ?_
  refine (block_progresses closed m (Nat.zero_le _) inside).bind fun (body, span) n _ past inside => ?_
  simp only
  rw [enter_bind, spanSince_bind]
  exact .pure (show s.pos + 1 ≤ n.pos by omega) inside

theorem global_progresses : Progresses tokens integers 0 global := by
  intro s _ inside
  unfold global
  refine (bindingLine_progresses closed s (Nat.zero_le _) inside).bind fun _ _ _ past inside => ?_
  rw [enter_bind]
  exact .pure past inside

theorem typedName_progresses : Progresses tokens integers 0 typedName := by
  intro s _ inside
  unfold typedName
  refine (typeName_progresses closed _ s (Nat.zero_le _) inside).bind fun _ m _ past inside => ?_
  exact ((expect_progresses closed (by decide) m (Nat.zero_le _) inside).mono (by omega)).answer

-- The look ahead goes back to where it started.
theorem typedDeclaration_progresses : Progresses tokens integers 0 typedDeclaration := by
  intro s _ inside
  unfold typedDeclaration
  rw [index_bind]
  refine (typedName_progresses closed s (Nat.zero_le _) inside).bind fun _ m _ past _ => ?_
  rw [kind_bind, seek_bind]
  have back : (m.moved s.pos).pos < tokens.size := inside
  split
  · exact function_progresses closed (m.moved s.pos) (Nat.zero_le _) back
  · exact global_progresses closed (m.moved s.pos) (Nat.zero_le _) back

theorem declaration_lands (inside : s.pos < tokens.size) :
    Lands tokens (tokens.next s = .enumWord) (s.pos + 1) (declaration tokens s) := by
  simp only [declaration, kind_bind]
  generalize same : tokens.next s = found
  cases found with
  | structWord => exact struct_progresses closed s (Nat.zero_le _) inside
  | enumWord => exact enumeration_progresses closed rfl s (Nat.zero_le _) inside
  | delegateWord => exact delegate_progresses closed s (Nat.zero_le _) inside
  | _ => exact typedDeclaration_progresses closed s (Nat.zero_le _) inside

end

end Grammar

end TypedScript
