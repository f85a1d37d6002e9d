import TypedScript.Proofs.Grammar.StatementReading
import TypedScript.Proofs.Tree.Yield

namespace TypedScript

def BinaryOp.level (operator : BinaryOp) : Level := Level.ofKind operator.kind

-- The operands that an operator takes without parentheses: chains nest to the left, those of exponents to
-- the right, and the base of an exponent is no chain.
def BinaryOp.Holds (operator : BinaryOp) (left right : Level) : Prop :=
  if operator = .power then Level.unary.rank ≤ left.rank ∧ Level.power.rank ≤ right.rank
  else operator.level.rank ≤ left.rank ∧ operator.level.rank < right.rank

namespace Expr

def level : Expr → Level
  | .setName .. | .setMember .. | .setIndex .. => .assignment
  | .binary _ operator _ _ => operator.level
  | .unary _ _ _ false => .unary
  | .unary _ _ _ true => .suffix
  | .cast .. => .cast
  | .member .. | .call .. | .index .. => .call
  | .group .. | .literal .. | .name .. | .construct .. => .primary

def IsSuffixed (expr : Expr) : Prop := Level.suffix.rank ≤ expr.level.rank

def isCast : Expr → Bool
  | .cast .. => true
  | _ => false

mutual

def Normal : Expr → Prop
  | .literal .. | .name .. => True
  | .group _ inner => Normal inner
  | .member _ object _ => Normal object ∧ object.IsSuffixed
  | .setName _ _ _ value => Normal value
  | .setMember _ object _ _ value => Normal object ∧ object.IsSuffixed ∧ Normal value
  | .setIndex _ object key _ value =>
    Normal object ∧ object.IsSuffixed ∧ object.isCast = false ∧ Normal key ∧ Normal value
  | .unary _ _ operand false => Normal operand ∧ Level.unary.rank ≤ operand.level.rank
  | .unary _ operator operand true =>
    Normal operand ∧ operand.IsSuffixed ∧ (operator = .increment ∨ operator = .decrement)
  | .binary _ operator left right => Normal left ∧ Normal right ∧ operator.Holds left.level right.level
  | .call _ callee arguments => Normal callee ∧ callee.IsSuffixed ∧ NormalAll arguments
  -- After a cast, the bracket would go on with its type.
  | .index _ callee arguments =>
    Normal callee ∧ callee.IsSuffixed ∧ callee.isCast = false ∧ NormalAll arguments
  | .cast _ operand _ => Normal operand ∧ operand.IsSuffixed
  | .construct _ _ arguments => NormalAll arguments

def NormalAll : List Expr → Prop
  | [] => True
  | first :: others => Normal first ∧ NormalAll others

end

theorem normalAll_iff {exprs : List Expr} : NormalAll exprs ↔ ∀ expr ∈ exprs, expr.Normal := by
  induction exprs with
  | nil => simp [NormalAll]
  | cons first others ih => simp [NormalAll, ih]

end Expr

namespace Grammar

variable {tokens : Stream} {s t : State} {next : Kind}

theorem level_assign (operator : AssignOp) : Level.ofKind operator.kind = .assignment := by
  cases operator <;> rfl

theorem operandLevel_le (operator : BinaryOp) :
    (operandLevel operator.kind).rank ≤ operator.level.rank ∧
      (operandLevel operator.kind).rank ≤ Level.multiplicative.rank := by
  cases operator <;> decide

theorem operandLevel_eq {operator : BinaryOp} (chain : operator ≠ .power) :
    operandLevel operator.kind = operator.level := by
  cases operator <;> first | rfl | exact absurd rfl chain

-- An expression that a token does not go on with at its end. Whatever ends in a closed part takes any token.
def Admits (next : Kind) : Expr → Prop
  | .setName .. | .setMember .. | .setIndex .. => (Level.ofKind next).rank ≤ Level.lowest.rank
  | .binary _ operator _ _ => (Level.ofKind next).rank ≤ (operandLevel operator.kind).rank
  | .unary _ _ _ false => (Level.ofKind next).rank ≤ Level.unary.rank
  | .cast .. => next ≠ .openBracket
  | _ => True

theorem Admits.rank_le {expr : Expr} (admits : Admits next expr) :
    (Level.ofKind next).rank ≤ expr.level.rank ∨ expr.IsSuffixed := by
  cases expr with
  | setName | setMember | setIndex => exact .inl (Nat.le_trans admits (Nat.zero_le _))
  | binary _ operator => exact .inl (Nat.le_trans admits (operandLevel_le operator).1)
  | unary _ _ _ after =>
    cases after with
    | false => exact .inl admits
    | true => exact .inr (Nat.le_refl _)
  | _ => exact .inr (by simp [Expr.IsSuffixed, Expr.level, Level.rank])

theorem Admits.unary_le {expr : Expr} (admits : Admits next expr)
    (tight : Level.power.rank ≤ (Level.ofKind next).rank) : Level.unary.rank ≤ expr.level.rank := by
  cases expr with
  | setName | setMember | setIndex => exact absurd (Nat.le_trans tight admits) (by decide)
  | binary _ operator =>
    have low := Nat.le_trans admits (operandLevel_le operator).2
    exact absurd (Nat.le_trans tight low) (by decide)
  | unary _ _ _ after => cases after <;> simp [Expr.level, Level.rank]
  | _ => simp [Expr.level, Level.rank]

theorem Admits.suffixed {expr : Expr} (admits : Admits next expr)
    (tight : Level.suffix.rank ≤ (Level.ofKind next).rank) : expr.IsSuffixed := by
  rcases admits.rank_le with below | suffixed
  · exact Nat.le_trans tight below
  · exact suffixed

theorem Admits.holds {operator : BinaryOp} {left right : Expr} (admits : Admits operator.kind left)
    (above : (operandLevel operator.kind).rank < right.level.rank) :
    operator.Holds left.level right.level := by
  unfold BinaryOp.Holds
  split
  · rename_i power
    subst power
    exact ⟨admits.unary_le (Nat.le_refl _), above⟩
  · rename_i chain
    rw [operandLevel_eq chain] at above
    refine ⟨?_, above⟩
    rcases admits.rank_le with below | suffixed
    · exact below
    · have low : operator.level.rank ≤ Level.suffix.rank := by cases operator <;> decide
      exact Nat.le_trans low suffixed

-- What holds of a phrase that has been read, at the token after it. Whatever starts an expression is read at
-- every level; all that goes on with it is above the level.
def Formed (tokens : Stream) : Phrase → State → Prop
  | .expr level expr, t => expr.Normal ∧ Admits (tokens.next t) expr ∧
      (level.rank < expr.level.rank ∨ Level.unary.rank ≤ expr.level.rank)
  | .arguments _ exprs, _ => Expr.NormalAll exprs

theorem Reads.formed {phrase : Phrase} (reads : Reads tokens phrase s t) : Formed tokens phrase t := by
  induction reads with
  | literal _ | name _ => exact ⟨trivial, trivial, .inr (by simp [Expr.level, Level.rank])⟩
  | leading _ _ stops inside =>
    obtain ⟨normal, -, above⟩ := inside
    exact ⟨⟨normal, above.elim Nat.le_of_lt id⟩, stops, .inr (Nat.le_refl _)⟩
  | group _ _ _ inside => exact ⟨inside.1, trivial, .inr (by simp [Expr.level, Level.rank])⟩
  | construct _ _ _ _ _ inside => exact ⟨inside, trivial, .inr (by simp [Expr.level, Level.rank])⟩
  | binary _ above found _ stops before inside =>
    obtain ⟨normal, admits, -⟩ := before
    obtain ⟨operand, -, tight⟩ := inside
    rw [BinaryOp.ofKind?_eq_some] at found
    rw [found] at admits above tight stops
    -- The second operand was read above the level of the operator, or it starts with a sign, which is tighter than
    -- any operator.
    refine ⟨⟨normal, operand, admits.holds (tight.elim id fun high => ?_)⟩, stops, .inl above⟩
    exact Nat.lt_of_le_of_lt (operandLevel_le _).2 (Nat.lt_of_lt_of_le (by decide) high)
  | trailing _ above found before =>
    obtain ⟨normal, admits, -⟩ := before
    rcases found with ⟨sign, rfl⟩ | ⟨sign, rfl⟩ <;> rw [sign] at admits above
    · exact ⟨⟨normal, admits.suffixed (by decide), .inl rfl⟩, trivial, .inl above⟩
    · exact ⟨⟨normal, admits.suffixed (by decide), .inr rfl⟩, trivial, .inl above⟩
  | setName _ above found _ stops _ inside =>
    rw [AssignOp.ofKind?_eq_some.mp found, level_assign] at above
    exact ⟨inside.1, stops, .inl above⟩
  | setMember _ above found _ stops before inside =>
    obtain ⟨⟨normal, suffixed⟩, -, -⟩ := before
    rw [AssignOp.ofKind?_eq_some.mp found, level_assign] at above
    exact ⟨⟨normal, suffixed, inside.1⟩, stops, .inl above⟩
  | setIndex _ above found _ stops before inside =>
    obtain ⟨⟨normal, suffixed, bare, key, -⟩, -, -⟩ := before
    rw [AssignOp.ofKind?_eq_some.mp found, level_assign] at above
    exact ⟨⟨normal, suffixed, bare, key, inside.1⟩, stops, .inl above⟩
  | call _ above opener _ _ before inside =>
    obtain ⟨normal, admits, -⟩ := before
    rw [opener] at admits above
    exact ⟨⟨normal, admits.suffixed (by decide), inside⟩, trivial, .inl above⟩
  | @element _ _ _ _ left _ _ above opener _ _ before inside =>
    obtain ⟨normal, admits, -⟩ := before
    rw [opener] at admits above
    -- The type of a cast would have taken the bracket.
    have bare : left.isCast = false := by
      cases left with
      | cast => exact absurd rfl admits
      | _ => rfl
    exact ⟨⟨normal, admits.suffixed (by decide), bare, inside⟩, trivial, .inl above⟩
  | member _ above dot _ before =>
    obtain ⟨normal, admits, -⟩ := before
    rw [dot] at admits above
    exact ⟨⟨normal, admits.suffixed (by decide)⟩, trivial, .inl above⟩
  | cast _ above word _ ended before =>
    obtain ⟨normal, admits, -⟩ := before
    rw [word] at admits above
    exact ⟨⟨normal, admits.suffixed (by decide)⟩, ended, .inl above⟩
  | none _ => exact trivial
  | argument _ _ _ _ first rest => exact ⟨first.1, rest⟩

end Grammar

end TypedScript
