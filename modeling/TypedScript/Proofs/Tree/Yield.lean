import TypedScript.Proofs.Number.Reading
import TypedScript.Proofs.Token.Spelling
import TypedScript.Proofs.Tree.Items

namespace TypedScript

namespace AssignOp

def kind : AssignOp → Kind
  | set => .assign
  | add => .plusEquals
  | subtract => .minusEquals
  | multiply => .starEquals
  | divide => .slashEquals
  | remainder => .percentEquals

theorem ofKind?_eq_some {kind : Kind} {operator : AssignOp} :
    ofKind? kind = some operator ↔ kind = operator.kind := by
  constructor
  · intro found
    cases kind <;> cases found <;> rfl
  · rintro rfl
    cases operator <;> rfl

end AssignOp

namespace UnaryOp

def kind : UnaryOp → Kind
  | not => .not
  | negate => .dash
  | increment => .plusPlus
  | decrement => .minusMinus

theorem ofKind?_eq_some {kind : Kind} {operator : UnaryOp} :
    ofKind? kind = some operator ↔ kind = operator.kind := by
  constructor
  · intro found
    cases kind <;> cases found <;> rfl
  · rintro rfl
    cases operator <;> rfl

end UnaryOp

namespace BinaryOp

def kind : BinaryOp → Kind
  | and => .and
  | or => .or
  | equals => .equals
  | notEquals => .notEquals
  | approxEquals => .tildeEquals
  | less => .less
  | lessEquals => .lessEquals
  | greater => .greater
  | greaterEquals => .greaterEquals
  | add => .plus
  | subtract => .dash
  | multiply => .star
  | divide => .slash
  | remainder => .percent
  | power => .caret

theorem ofKind?_eq_some {kind : Kind} {operator : BinaryOp} :
    ofKind? kind = some operator ↔ kind = operator.kind := by
  constructor
  · intro found
    cases kind <;> cases found <;> rfl
  · rintro rfl
    cases operator <;> rfl

end BinaryOp

def Jump.kind : Jump → Kind
  | returning => .returnWord
  | breaking => .breakWord
  | continuing => .continueWord

abbrev Lexeme := Kind × String

def Token.lexeme (token : Token) : Lexeme := (token.kind, token.value)

-- What a tree says about a place of its text: a token stands there, a number in any of its spellings, or a
-- comma that can be left out.
inductive Mark where
  | token (kind : Kind) (value : String)
  | numeral (value : Number.Binary64)
  | optionalComma
deriving DecidableEq

namespace Mark

def fixed (kind : Kind) : Mark := token kind kind.spelling

def separator {α : Type} : List α → Mark
  | [] => optionalComma
  | _ :: _ => fixed .comma

def listed {α : Type} (yield : α → List Mark) : List α → List Mark
  | [] => []
  | first :: others => yield first ++ separator others :: listed yield others

end Mark

inductive Spells : List Mark → List Lexeme → Prop where
  | nil : Spells [] []
  | token {kind : Kind} {value : String} {marks : List Mark} {rest : List Lexeme} (others : Spells marks rest) :
      Spells (.token kind value :: marks) ((kind, value) :: rest)
  | numeral {value : Number.Binary64} {text : String} {marks : List Mark} {rest : List Lexeme}
      (denotes : Number.Binary64.Denotes text value) (others : Spells marks rest) :
      Spells (.numeral value :: marks) ((.number, text) :: rest)
  | comma {marks : List Mark} {rest : List Lexeme} (others : Spells marks rest) :
      Spells (.optionalComma :: marks) ((.comma, Kind.comma.spelling) :: rest)
  | noComma {marks : List Mark} {rest : List Lexeme} (others : Spells marks rest) :
      Spells (.optionalComma :: marks) rest

theorem Spells.append {left right : List Mark} {first second : List Lexeme} (before : Spells left first)
    (after : Spells right second) : Spells (left ++ right) (first ++ second) := by
  induction before with
  | nil => exact after
  | token _ ih => exact .token ih
  | numeral denotes _ ih => exact .numeral denotes ih
  | comma _ ih => exact .comma ih
  | noComma _ ih => exact .noComma ih

theorem Spells.split {left right : List Mark} {lexemes : List Lexeme} (spells : Spells (left ++ right) lexemes) :
    ∃ first second, lexemes = first ++ second ∧ Spells left first ∧ Spells right second := by
  induction left generalizing lexemes with
  | nil => exact ⟨[], lexemes, rfl, .nil, spells⟩
  | cons mark marks ih =>
    cases spells with
    | token others =>
      obtain ⟨first, second, rfl, before, after⟩ := ih others
      exact ⟨_, second, rfl, .token before, after⟩
    | numeral denotes others =>
      obtain ⟨first, second, rfl, before, after⟩ := ih others
      exact ⟨_, second, rfl, .numeral denotes before, after⟩
    | comma others =>
      obtain ⟨first, second, rfl, before, after⟩ := ih others
      exact ⟨_, second, rfl, .comma before, after⟩
    | noComma others =>
      obtain ⟨first, second, rfl, before, after⟩ := ih others
      exact ⟨first, second, rfl, .noComma before, after⟩

def Ty.yield : Ty → List Mark
  | .named name => [.token (Kind.ofTypeName name) name]
  | .array element => element.yield ++ [.fixed .openBracket, .fixed .closeBracket]
  | .map key value => value.yield ++ .fixed .openBracket :: (key.yield ++ [.fixed .closeBracket])

def Literal.mark : Literal → Mark
  | .bool true => .fixed .trueWord
  | .bool false => .fixed .falseWord
  | .char value => .token .character (String.ofList [value])
  | .number value => .numeral value
  | .string value => .token .text value
  | .null => .fixed .nullWord

namespace Expr

mutual

-- The text of an expression. Any argument list may end in a comma, that of an assigned element too.
def yield : Expr → List Mark
  | .group _ inner => .fixed .openParen :: (yield inner ++ [.fixed .closeParen])
  | .literal _ value => [value.mark]
  | .name _ text => [.token .identifier text]
  | .member _ object field => yield object ++ [.fixed .dot, .token .identifier field]
  | .setName _ text operator value => .token .identifier text :: .fixed operator.kind :: yield value
  | .setMember _ object field operator value =>
    yield object ++ .fixed .dot :: .token .identifier field :: .fixed operator.kind :: yield value
  | .setIndex _ object key operator value =>
    yield object ++ .fixed .openBracket :: (yield key ++
      .optionalComma :: .fixed .closeBracket :: .fixed operator.kind :: yield value)
  | .unary _ operator operand false => .fixed operator.kind :: yield operand
  | .unary _ operator operand true => yield operand ++ [.fixed operator.kind]
  | .binary _ operator left right => yield left ++ .fixed operator.kind :: yield right
  | .call _ callee arguments => yield callee ++ .fixed .openParen :: (yieldAll arguments ++ [.fixed .closeParen])
  | .index _ callee arguments =>
    yield callee ++ .fixed .openBracket :: (yieldAll arguments ++ [.fixed .closeBracket])
  | .cast _ operand target => yield operand ++ .fixed .asWord :: target.yield
  | .construct _ target arguments =>
    .fixed .newWord :: (target.yield ++ .fixed .openParen :: (yieldAll arguments ++ [.fixed .closeParen]))

def yieldAll : List Expr → List Mark
  | [] => []
  | first :: others => yield first ++ Mark.separator others :: yieldAll others

end

theorem yieldAll_eq (exprs : List Expr) : yieldAll exprs = Mark.listed yield exprs := by
  induction exprs with
  | nil => rfl
  | cons first others ih => rw [yieldAll, Mark.listed, ih]

def yieldOptional : Option Expr → List Mark
  | none => []
  | some expr => expr.yield

end Expr

def Variable.yield (decl : Variable) : List Mark :=
  decl.type.yield ++ .token .identifier decl.name ::
    match decl.initializer with
    | none => []
    | some value => .fixed .assign :: value.yield

def Opening.yield : Opening → List Mark
  | .declare decl => decl.yield
  | .evaluate expr => expr.yield

namespace Stmt

def header (condition : Expr) : List Mark :=
  .fixed .openParen :: (condition.yield ++ [.fixed .closeParen])

mutual

def yield : Stmt → List Mark
  | .block _ body => .fixed .openCurly :: (yieldAll body ++ [.fixed .closeCurly])
  | .declare decl => decl.yield ++ [.fixed .semicolon]
  | .evaluate _ expr => expr.yield ++ [.fixed .semicolon]
  | .jump _ kind value => .fixed kind.kind :: (Expr.yieldOptional value ++ [.fixed .semicolon])
  | .ifThen _ condition body => .fixed .ifWord :: (header condition ++ yield body)
  | .ifElse _ condition body other =>
    .fixed .ifWord :: (header condition ++ yield body ++ .fixed .elseWord :: yield other)
  | .whileLoop _ condition body => .fixed .whileWord :: (header condition ++ yield body)
  | .forLoop _ openings condition iterators body =>
    .fixed .forWord :: .fixed .openParen :: (Mark.listed Opening.yield openings ++ .fixed .semicolon ::
      (Expr.yieldOptional condition ++ .fixed .semicolon ::
        (Mark.listed Expr.yield iterators ++ .fixed .closeParen :: yield body)))

def yieldAll : List Stmt → List Mark
  | [] => []
  | first :: others => yield first ++ yieldAll others

end

end Stmt

end TypedScript
