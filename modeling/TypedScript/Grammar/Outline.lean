import TypedScript.Grammar.Declaration

namespace TypedScript.Grammar

structure Entry where
  owner : Owner
  name : String
  start : Nat
  stop : Nat
deriving DecidableEq

-- `closers` are the closing brackets that are owed, the next one first.
def closeAll : Nat → List Kind → Rule Unit
  | _, [] => pure ()
  | 0, _ :: _ => giveUp
  | bound + 1, closer :: outer => do
    let next ← kind
    if next = .endOfFile then unexpected [closer.name]
    else match next.closing? with
      | some inner => do
        skip
        closeAll bound (inner :: closer :: outer)
      | none =>
        if next = closer then do
          skip
          closeAll bound outer
        else if next.isClosing then unexpected [closer.name]
        else do
          skip
          closeAll bound (closer :: outer)

def balanced : Rule Unit := do
  match (← kind).closing? with
  | none => unexpected ["\x7b", "(", "["]
  | some closer => do
    skip
    bounded fun bound => closeAll bound [closer]

def toSemicolon : Nat → Rule Unit
  | 0 => giveUp
  | bound + 1 => do
    let next ← kind
    if next = .semicolon then pure ()
    else if next = .endOfFile then unexpected [";"]
    else if next.closing?.isSome then do
      balanced
      toSemicolon bound
    else if next.isClosing then unexpected [";"]
    else do
      skip
      toSemicolon bound

def skipBody : Rule Unit := do
  if (← kind) = .openCurly then balanced else unexpected ["\x7b"]

def outlineNamed (keyword : Kind) (owner : Owner) : Rule (Owner × String) := do
  let name ← keywordName keyword
  claim name.value owner name.span.start
  skipBody
  pure (owner, name.value)

def outlineDelegate : Rule (Owner × String) := do
  let start ← place
  let header ← delegateHead
  claim header.name .delegate start
  enter fun catalog => catalog.addDelegate header.name header.signature
  pure (.delegate, header.name)

def outlineFunction : Rule (Owner × String) := do
  let header ← functionHead
  claim header.name.value .function header.name.span.start
  enter fun catalog => catalog.addFunction header.name.value header.signature
  skipBody
  pure (.function, header.name.value)

def skipInitializer : Rule Unit := do
  let next ← kind
  if next = .assign then
    skip
    bounded toSemicolon
  else if next = .semicolon then pure ()
  else unexpected ["(", "=", ";"]

def outlineGlobal (type : Ty) (name : Token) : Rule (Owner × String) := do
  claim name.value .global name.span.start
  enter fun catalog => catalog.addGlobal name.value type
  skipInitializer
  let _ ← expect .semicolon
  pure (.global, name.value)

def outlineTyped : Rule (Owner × String) := do
  let start ← index
  let (type, name) ← typedName
  if (← kind) = .openParen then
    seek start
    outlineFunction
  else outlineGlobal type name

def outlineDeclaration : Rule (Owner × String) := do
  match ← kind with
  | .structWord => outlineNamed .structWord .struct
  | .enumWord => outlineNamed .enumWord .enumeration
  | .delegateWord => outlineDelegate
  | _ => outlineTyped

def entries : Nat → Rule (List Entry)
  | 0 => giveUp
  | bound + 1 => do
    if ← more then
      let start ← index
      let (owner, name) ← outlineDeclaration
      let stop ← index
      let others ← entries bound
      pure (⟨owner, name, start, stop⟩ :: others)
    else pure []

-- Every name is claimed here, so that any file can use it before its declaration is parsed.
def outline : Rule (List Entry) := bounded entries

def declarations : List Entry → Rule (List Declaration)
  | [] => pure []
  | entry :: others => do
    seek entry.start
    let first ← declaration
    if (← index) = entry.stop then
      let rest ← declarations others
      pure (first :: rest)
    else
      unexpectedNear ("declaration of `" ++ entry.name ++
        "` ended in a different place than its signature")

def wholeFile (entries : List Entry) : Rule File := do
  let found ← declarations entries
  let path ← file
  pure ⟨path, found⟩

end TypedScript.Grammar
