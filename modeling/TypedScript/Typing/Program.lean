import TypedScript.Tree.Declaration
import TypedScript.Typing.Statement

namespace TypedScript.Typing

def checkParameters : List Parameter → Check Unit
  | [] => pure ()
  | first :: others => do
    requireKnown first.type first.span.start
    bindLocal first.name first.type first.span.start
    checkParameters others

-- The parameters of a function and the top level of its body share a scope.
def checkFunction (decl : Function) : Check Unit := do
  requireKnown decl.returns decl.span.start
  let returned ← inFunction decl.name decl.returns do
    checkParameters decl.parameters
    checkStmts decl.body
  if decl.returns = .void ∨ returned then pure ()
  else fail (.missingReturn decl.name) decl.span.start

def checkFields : List Variable → Check Unit
  | [] => pure ()
  | first :: others => do
    checkVariable first
    bindMember first.name first.type first.span.start
    checkFields others

def checkMembers (type : Ty) : List Member → Check Unit
  | [] => pure ()
  | first :: others => do
    bindMember first.name type first.span.start
    checkMembers type others

def requireAllKnown (place : Position) : List Ty → Check Unit
  | [] => pure ()
  | first :: others => do
    requireKnown first place
    requireAllKnown place others

def checkDeclaration : Declaration → Check Unit
  | .global decl => checkVariable decl
  | .function decl => checkFunction decl
  | .struct decl => inScope (checkFields decl.fields)
  | .enumeration decl => inScope (checkMembers (.named decl.name) decl.members)
  | .delegate decl =>
    requireAllKnown decl.span.start (decl.signature.returns :: decl.signature.parameters)

def checkDeclarations : List Declaration → Check Unit
  | [] => pure ()
  | first :: others => do
    checkDeclaration first
    checkDeclarations others

def checkFiles : List File → Check Unit
  | [] => pure ()
  | first :: others => do
    checkDeclarations first.declarations
    checkFiles others

end TypedScript.Typing
