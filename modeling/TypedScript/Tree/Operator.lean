import TypedScript.Token.Kind

namespace TypedScript

inductive AssignOp where
  | set
  | add
  | subtract
  | multiply
  | divide
  | remainder
deriving DecidableEq

namespace AssignOp

def ofKind? : Kind → Option AssignOp
  | .assign => some set
  | .plusEquals => some add
  | .minusEquals => some subtract
  | .starEquals => some multiply
  | .slashEquals => some divide
  | .percentEquals => some remainder
  | _ => none

def symbol : AssignOp → String
  | set => "="
  | add => "+="
  | subtract => "-="
  | multiply => "*="
  | divide => "/="
  | remainder => "%="

end AssignOp

inductive UnaryOp where
  | not
  | negate
  | increment
  | decrement
deriving DecidableEq

namespace UnaryOp

def ofKind? : Kind → Option UnaryOp
  | .not => some not
  | .dash => some negate
  | .plusPlus => some increment
  | .minusMinus => some decrement
  | _ => none

def symbol : UnaryOp → String
  | not => "!"
  | negate => "-"
  | increment => "++"
  | decrement => "--"

end UnaryOp

inductive BinaryOp where
  | and
  | or
  | equals
  | notEquals
  | approxEquals
  | less
  | lessEquals
  | greater
  | greaterEquals
  | add
  | subtract
  | multiply
  | divide
  | remainder
  | power
deriving DecidableEq

namespace BinaryOp

def ofKind? : Kind → Option BinaryOp
  | .and => some and
  | .or => some or
  | .equals => some equals
  | .notEquals => some notEquals
  | .tildeEquals => some approxEquals
  | .less => some less
  | .lessEquals => some lessEquals
  | .greater => some greater
  | .greaterEquals => some greaterEquals
  | .plus => some add
  | .dash => some subtract
  | .star => some multiply
  | .slash => some divide
  | .percent => some remainder
  | .caret => some power
  | _ => none

def symbol : BinaryOp → String
  | and => "&&"
  | or => "||"
  | equals => "=="
  | notEquals => "!="
  | approxEquals => "~="
  | less => "<"
  | lessEquals => "<="
  | greater => ">"
  | greaterEquals => ">="
  | add => "+"
  | subtract => "-"
  | multiply => "*"
  | divide => "/"
  | remainder => "%"
  | power => "^"

def isEquality : BinaryOp → Bool
  | equals | notEquals | approxEquals => true
  | _ => false

def isComparison : BinaryOp → Bool
  | less | lessEquals | greater | greaterEquals => true
  | _ => false

end BinaryOp

inductive Level where
  | lowest
  | assignment
  | logical
  | equality
  | relational
  | additive
  | multiplicative
  | power
  | unary
  | suffix
  | cast
  | call
  | primary
deriving DecidableEq

namespace Level

def rank : Level → Nat
  | lowest => 0
  | assignment => 1
  | logical => 2
  | equality => 3
  | relational => 4
  | additive => 5
  | multiplicative => 6
  | power => 7
  | unary => 8
  | suffix => 9
  | cast => 10
  | call => 11
  | primary => 12

def ofKind : Kind → Level
  | .assign | .plusEquals | .minusEquals | .starEquals | .slashEquals | .percentEquals => assignment
  | .and | .or => logical
  | .equals | .notEquals | .tildeEquals => equality
  | .less | .lessEquals | .greater | .greaterEquals => relational
  | .plus | .dash => additive
  | .star | .slash | .percent => multiplicative
  | .caret => power
  | .plusPlus | .minusMinus => suffix
  | .asWord => cast
  | .openParen | .openBracket | .dot => call
  | _ => lowest

def ofKindInType : Kind → Level
  | .openBracket => call
  | _ => lowest

end Level

end TypedScript
