import TypedScript.Grammar.Statement
import TypedScript.Number.Signed64
import TypedScript.Tree.Declaration

namespace TypedScript.Grammar

def keywordName (keyword : Kind) : Rule Token := do
  let _ ← expect keyword
  expect .identifier

def struct : Rule Declaration := do
  let start ← place
  let name ← keywordName .structWord
  let _ ← expect .openCurly
  let fields ← items .closeCurly fun _ => bindingLine
  enter fun catalog => catalog.addStruct name.value (fields.map fun field => (field.name, field.type))
  let span ← spanSince start
  pure (.struct ⟨name.value, fields, span⟩)

def integer : Rule Int := do
  let found ← expect .number
  match Number.Signed64.ofText? found.value with
  | some value => pure value
  | none => raise (.badNumber found.value) found.span.start

def signedInteger : Rule Int := do
  if (← kind) = .dash then
    skip
    let value ← integer
    pure (Number.Signed64.negate value)
  else integer

def statedValue (member : Token) (previous : Option Int) : Rule Int := do
  let start ← place
  let value ← signedInteger
  match previous with
  | none => pure value
  | some minimum =>
    if value < minimum then raise (.enumDecreasing member.value value minimum) start else pure value

def impliedValue (member : Token) : Option Int → Rule Int
  | none => pure 0
  | some previous =>
    match Number.Signed64.next? previous with
    | some value => pure value
    | none => raise (.enumOverflow member.value) member.span.start

def memberValue (member : Token) (previous : Option Int) : Rule Int := do
  if (← kind) = .assign then
    skip
    statedValue member previous
  else impliedValue member previous

def enumMember (previous : Option Member) : Rule Member := do
  let name ← expect .identifier
  let value ← memberValue name (previous.map Member.value)
  let span ← spanSince name.span.start
  separator .closeCurly [",", "\x7d"]
  pure ⟨name.value, value, span⟩

def enumeration : Rule Declaration := do
  let start ← place
  let name ← keywordName .enumWord
  let _ ← expect .openCurly
  let members ← items .closeCurly enumMember
  enter fun catalog =>
    catalog.addEnum name.value (members.map fun member => (member.name, member.value))
  let span ← spanSince start
  pure (.enumeration ⟨name.value, members, span⟩)

-- The name of a parameter may follow its type and has no meaning.
def delegateParameter : Rule Ty := do
  let type ← typeName .lowest
  if (← kind) = .identifier then
    skip
    pure type
  else pure type

def delegateHead : Rule Delegate := do
  let opener ← expect .delegateWord
  let returns ← typeName .lowest
  let name ← expect .identifier
  let _ ← expect .openParen
  let parameters ← listed .closeParen [",", ")"] delegateParameter
  let _ ← expect .semicolon
  let span ← spanSince opener.span.start
  pure ⟨name.value, ⟨returns, parameters⟩, span⟩

def delegate : Rule Declaration := do
  let header ← delegateHead
  enter fun catalog => catalog.addDelegate header.name header.signature
  pure (.delegate header)

structure FunctionHead where
  returns : Ty
  name : Token
  parameters : List Parameter

def FunctionHead.signature (header : FunctionHead) : Signature :=
  ⟨header.returns, header.parameters.map Parameter.type⟩

def parameter : Rule Parameter := do
  let start ← place
  let type ← typeName .lowest
  let name ← expect .identifier
  let span ← spanSince start
  pure ⟨type, name.value, span⟩

def functionHead : Rule FunctionHead := do
  let returns ← typeName .lowest
  let name ← expect .identifier
  let _ ← expect .openParen
  let parameters ← listed .closeParen [",", ")"] parameter
  pure ⟨returns, name, parameters⟩

def function : Rule Declaration := do
  let start ← place
  let header ← functionHead
  let (body, bodySpan) ← block
  enter fun catalog => catalog.addFunction header.name.value header.signature
  let span ← spanSince start
  pure (.function ⟨header.returns, header.name.value, header.parameters, body, bodySpan,
    .named header.signature.path, span⟩)

def global : Rule Declaration := do
  let decl ← bindingLine
  enter fun catalog => catalog.addGlobal decl.name decl.type
  pure (.global decl)

def typedName : Rule (Ty × Token) := do
  let type ← typeName .lowest
  let name ← expect .identifier
  pure (type, name)

-- A parenthesis after the type and the name tells a function from a global.
def typedDeclaration : Rule Declaration := do
  let start ← index
  let _ ← typedName
  let next ← kind
  seek start
  if next = .openParen then function else global

def declaration : Rule Declaration := do
  match ← kind with
  | .structWord => struct
  | .enumWord => enumeration
  | .delegateWord => delegate
  | _ => typedDeclaration

end TypedScript.Grammar
