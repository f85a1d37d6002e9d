import TypedScript.Text.Quoted

namespace TypedScript

inductive Stage where
  | scanning
  | parsing
  | naming
  | checking
deriving DecidableEq

def Stage.name : Stage → String
  | scanning => "Scanner"
  | parsing => "Parser"
  | naming => "TypeDatabase"
  | checking => "TypeChecker"

inductive Category where
  | lexical
  | structural
  | name
  | type
  | controlFlow
deriving DecidableEq

def Category.label : Category → String
  | lexical => "Lexical"
  | structural => "Structural"
  | name => "Name"
  | type => "Type"
  | controlFlow => "ControlFlow"

inductive Cause where
  | unrecognised (token : String)
  | unterminated (token : String)
  | reserved (word : String)
  | unexpected (token : String) (expected : List String)
  | unexpectedNear (token message : String)
  | badNumber (token : String)
  | enumDecreasing (member : String) (value minimum : Int)
  | enumOverflow (member : String)
  | badTarget
  | nameTaken (name owner : String)
  | badName (name : String)
  | alreadyDeclared (name : String)
  | notDeclared (name : String)
  | unknownType (type : String)
  | typeMismatch (expected received : String)
  | operatorMismatch (operator left right : String)
  | operandMismatch (operator operand : String)
  | conditionMismatch (received : String)
  | tooManyArguments (expected received : Nat)
  | tooFewArguments (expected received : Nat)
  | argumentMismatch (index : Nat) (expected received : String)
  | fieldMismatch (field expected received : String)
  | notCallable (type : String)
  | notIndexable (type : String)
  | indexMismatch (container expected received : String)
  | noField (type field : String)
  | noMember (enumeration member : String)
  | noAccess (type member : String)
  | notConstructible (type : String)
  | notAssignable (name : String)
  | missingReturn (function : String)
  | missingValue (function : String)
  | unwantedValue (function : String)
  | strayReturn
deriving DecidableEq

namespace Cause
open Text (quoted quotedList)

def name : Cause → String
  | unrecognised _ => "UnrecognisedToken"
  | unterminated _ => "UnterminatedLiteral"
  | reserved _ => "ReservedIdentifier"
  | unexpected _ _ => "UnexpectedToken"
  | unexpectedNear _ _ => "UnexpectedTokenDetailed"
  | badNumber _ => "NumberParseError"
  | enumDecreasing _ _ _ => "EnumValueDecreasing"
  | enumOverflow _ => "EnumValueOverflow"
  | badTarget => "InvalidAssignmentTarget"
  | nameTaken _ _ => "NameAlreadyDeclared"
  | badName _ => "InvalidName"
  | alreadyDeclared _ => "VariableAlreadyDeclared"
  | notDeclared _ => "VariableNotDeclared"
  | unknownType _ => "UnknownType"
  | typeMismatch _ _ => "TypeMatchError"
  | operatorMismatch _ _ _ => "OperatorTypeError"
  | operandMismatch _ _ => "UnaryTypeError"
  | conditionMismatch _ => "ConditionTypeError"
  | tooManyArguments _ _ => "UnexpectedArguments"
  | tooFewArguments _ _ => "MissingArguments"
  | argumentMismatch _ _ _ => "ArgumentTypeMatchError"
  | fieldMismatch _ _ _ => "FieldTypeMatchError"
  | notCallable _ => "NotCallable"
  | notIndexable _ => "NotIndexable"
  | indexMismatch _ _ _ => "IndexTypeMatchError"
  | noField _ _ => "UnknownField"
  | noMember _ _ => "UnknownEnumMember"
  | noAccess _ _ => "InvalidMemberAccess"
  | notConstructible _ => "InvalidNewTarget"
  | notAssignable _ => "NotAssignable"
  | missingReturn _ => "MissingReturn"
  | missingValue _ => "MissingReturnValue"
  | unwantedValue _ => "UnexpectedReturnValue"
  | strayReturn => "ReturnOutsideFunction"

def category : Cause → Category
  | unrecognised _ | unterminated _ | reserved _ => .lexical
  | unexpected _ _ | unexpectedNear _ _ | badNumber _ | enumDecreasing _ _ _ | enumOverflow _
  | badTarget => .structural
  | nameTaken _ _ | badName _ | alreadyDeclared _ | notDeclared _ | unknownType _ => .name
  | missingReturn _ | missingValue _ | unwantedValue _ | strayReturn => .controlFlow
  | _ => .type

-- Declarations and type names are the business of naming, also where a later part finds the fault.
def stage : Cause → Stage
  | unrecognised _ | unterminated _ | reserved _ => .scanning
  | unexpected _ _ | unexpectedNear _ _ | badNumber _ | enumDecreasing _ _ _ | enumOverflow _
  | badTarget => .parsing
  | nameTaken _ _ | badName _ | unknownType _ => .naming
  | _ => .checking

def message : Cause → String
  | unrecognised token => "unrecognised token: " ++ quoted token
  | unterminated token => "unterminated literal: " ++ quoted token
  | reserved word => "identifier " ++ quoted word ++ " is reserved"
  | unexpected token expected =>
    "unexpected token " ++ quoted token ++ ", expected " ++ quotedList expected
  | unexpectedNear token message =>
    "unexpected token (" ++ quoted message ++ "): " ++ quoted token
  | badNumber token => "error parsing number: " ++ quoted token
  | enumDecreasing member value minimum =>
    "enum member " ++ quoted member ++ " has value " ++ toString value ++ ", expected at least " ++
      toString minimum
  | enumOverflow member => "enum member " ++ quoted member ++ " overflows the previous value"
  | badTarget => "invalid assignment target"
  | nameTaken name owner => "name " ++ quoted name ++ " already declared as a " ++ owner
  | badName name => "invalid declaration name " ++ quoted name
  | alreadyDeclared name => "variable " ++ quoted name ++ " already declared"
  | notDeclared name => "variable " ++ quoted name ++ " not declared"
  | unknownType type => "unknown type " ++ type ++ " found"
  | typeMismatch expected received =>
    "types do not match: expected " ++ quoted expected ++ ", received " ++ quoted received
  | operatorMismatch operator left right =>
    "operator " ++ quoted operator ++ " cannot be applied to " ++ quoted left ++ " and " ++ quoted right
  | operandMismatch operator operand =>
    "operator " ++ quoted operator ++ " cannot be applied to " ++ quoted operand
  | conditionMismatch received => "condition must be bool, received " ++ quoted received
  | tooManyArguments expected received =>
    "unexpected arguments: expected " ++ toString expected ++ ", received " ++ toString received
  | tooFewArguments expected received =>
    "missing arguments: expected " ++ toString expected ++ ", received " ++ toString received
  | argumentMismatch index expected received =>
    "argument " ++ toString index ++ " types do not match: expected " ++ quoted expected ++
      ", received " ++ quoted received
  | fieldMismatch field expected received =>
    "field " ++ quoted field ++ " types do not match: expected " ++ quoted expected ++
      ", received " ++ quoted received
  | notCallable type => "type " ++ quoted type ++ " is not callable"
  | notIndexable type => "type " ++ quoted type ++ " is not indexable"
  | indexMismatch container expected received =>
    quoted container ++ " is indexed by " ++ quoted expected ++ ", received " ++ quoted received
  | noField type field => "type " ++ quoted type ++ " has no field " ++ quoted field
  | noMember enumeration member => "enum " ++ quoted enumeration ++ " has no member " ++ quoted member
  | noAccess type member => "cannot access " ++ quoted member ++ " on " ++ quoted type
  | notConstructible type => "type " ++ quoted type ++ " cannot be constructed"
  | notAssignable name => quoted name ++ " is not assignable"
  | missingReturn function => "function " ++ quoted function ++ " is missing a return statement"
  | missingValue function => "function " ++ quoted function ++ " is missing a return value"
  | unwantedValue function => "void function " ++ quoted function ++ " returns a value"
  | strayReturn => "return statement outside of function"

def tip? : Cause → Option String
  | unrecognised _ => none
  | unterminated _ => some "Literal is missing its closing quote"
  | reserved word => some ("`" ++ word ++ "` is reserved in the target language, pick another name")
  | unexpected token [] => some ("Unexpected token: `" ++ token ++ "`")
  | unexpected token expected =>
    some ("Unexpected token: `" ++ token ++ "`, expected one of: " ++ String.intercalate ", " expected)
  | unexpectedNear token message => some ("Unexpected token: `" ++ token ++ "`, " ++ message)
  | badNumber token => some ("Invalid number: `" ++ token ++ "`")
  | enumDecreasing member value minimum =>
    some ("Enum member `" ++ member ++ "` has value " ++ toString value ++ ", values must be at least " ++
      toString minimum)
  | enumOverflow member =>
    some ("Enum member `" ++ member ++
      "` follows the largest possible value, give it an explicit value")
  | badTarget => some "Only names, fields and indexed elements can be assigned"
  | nameTaken name owner => some ("`" ++ name ++ "` is already declared as a " ++ owner)
  | badName name => some ("`" ++ name ++ "` is not a valid declaration name")
  | alreadyDeclared name => some ("Variable `" ++ name ++ "` already declared")
  | notDeclared name => some ("Variable `" ++ name ++ "` not declared")
  | unknownType type => some ("Unknown type `" ++ type ++ "` found")
  | typeMismatch expected received =>
    some ("Expected type `" ++ expected ++ "`, received `" ++ received ++ "`")
  | operatorMismatch operator left right =>
    some ("Operator `" ++ operator ++ "` cannot be applied to `" ++ left ++ "` and `" ++ right ++ "`")
  | operandMismatch operator operand =>
    some ("Operator `" ++ operator ++ "` cannot be applied to `" ++ operand ++ "`")
  | conditionMismatch received => some ("Conditions must be `bool`, received `" ++ received ++ "`")
  | tooManyArguments expected received | tooFewArguments expected received =>
    some ("Expected " ++ toString expected ++ " arguments, received " ++ toString received)
  | argumentMismatch index expected received =>
    some ("Expected argument " ++ toString (index + 1) ++ " of type `" ++ expected ++ "`, received `" ++
      received ++ "`")
  | fieldMismatch field expected received =>
    some ("Expected field `" ++ field ++ "` of type `" ++ expected ++ "`, received `" ++ received ++ "`")
  | notCallable type => some ("Values of type `" ++ type ++ "` cannot be called")
  | notIndexable type => some ("Values of type `" ++ type ++ "` cannot be indexed")
  | indexMismatch container expected received =>
    some ("`" ++ container ++ "` is indexed by `" ++ expected ++ "`, received `" ++ received ++ "`")
  | noField type field => some ("`" ++ type ++ "` has no field `" ++ field ++ "`")
  | noMember enumeration member => some ("Enum `" ++ enumeration ++ "` has no member `" ++ member ++ "`")
  | noAccess type member => some ("Cannot access `" ++ member ++ "` on a value of type `" ++ type ++ "`")
  | notConstructible type => some ("`" ++ type ++ "` cannot be constructed with `new`")
  | notAssignable name => some ("`" ++ name ++ "` cannot be assigned to")
  | missingReturn function => some ("Function `" ++ function ++ "` must return a value")
  | missingValue function => some ("Function `" ++ function ++ "` must return a value here")
  | unwantedValue function =>
    some ("Function `" ++ function ++ "` returns void and cannot return a value")
  | strayReturn => some "`return` is only allowed inside functions"

end Cause

end TypedScript
