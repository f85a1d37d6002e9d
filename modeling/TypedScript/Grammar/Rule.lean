import TypedScript.Catalog.Basic
import TypedScript.Token.Basic

namespace TypedScript.Grammar

abbrev Stream := Array Token

namespace Stream

def token (tokens : Stream) (index : Nat) : Token :=
  tokens[min index (tokens.size - 1)]?.getD (.endMarker (.first "shell"))

def kindAt (tokens : Stream) (index : Nat) : Kind :=
  match tokens[index]? with
  | some token => token.kind
  | none => .endOfFile

def file (tokens : Stream) : String :=
  match tokens[0]? with
  | some token => if token.kind = .file then token.value else token.span.start.file
  | none => "shell"

def first (tokens : Stream) : Nat := if tokens.kindAt 0 = .file then 1 else 0

end Stream

structure State where
  pos : Nat
  nextId : Nat
  catalog : Catalog

-- A rule that fails leaves the state as the failure found it.
abbrev Rule := ReaderT Stream (EStateM Error State)

def State.start (tokens : Stream) (nextId : Nat) (catalog : Catalog) : State :=
  ⟨tokens.first, nextId, catalog⟩

variable {α : Type}

def token : Rule Token := fun tokens state => .ok (tokens.token state.pos) state

def kind : Rule Kind := fun tokens state => .ok (tokens.token state.pos).kind state

def peek (offset : Nat) : Rule Kind := fun tokens state => .ok (tokens.kindAt (state.pos + offset)) state

def advance : Rule Token := fun tokens state =>
  .ok (tokens.token state.pos)
    (if state.pos < tokens.size then { state with pos := state.pos + 1 } else state)

def skip : Rule Unit := do
  let _ ← advance

def index : Rule Nat := fun _ state => .ok state.pos state

def seek (pos : Nat) : Rule Unit := fun _ state => .ok () { state with pos }

def file : Rule String := fun tokens state => .ok tokens.file state

def more : Rule Bool := fun tokens state =>
  .ok (state.pos < tokens.size && (tokens.token state.pos).kind ≠ .endOfFile) state

def raise (cause : Cause) (place : Position) : Rule α := fun _ state => .error ⟨cause, place⟩ state

def unexpected (expected : List String) : Rule α := do
  let found ← token
  raise (.unexpected found.value expected) found.span.start

def unexpectedNear (message : String) : Rule α := do
  let found ← token
  raise (.unexpectedNear found.value message) found.span.start

-- Bounds are such that a stream that closes with its end marker never spends one, and no rule fails without an
-- expectation in any other way.
def giveUp : Rule α := unexpected []

def expect (wanted : Kind) : Rule Token := do
  if (← kind) = wanted then advance else unexpected [wanted.name]

def place : Rule Position := do
  let found ← token
  pure found.span.start

def lastEnd : Rule Position := fun tokens state =>
  match state.pos with
  | 0 => .ok (tokens.token 0).span.start state
  | before + 1 =>
    match tokens[before]? with
    | some found => .ok found.span.stop state
    | none => .ok (tokens.token state.pos).span.start state

def spanSince (start : Position) : Rule Span := do
  let stop ← lastEnd
  pure ⟨start, stop⟩

def freshId : Rule Nat := fun _ state => .ok state.nextId { state with nextId := state.nextId + 1 }

def namesType (name : String) : Rule Bool := fun _ state => .ok (state.catalog.namesType name) state

def enter (change : Catalog → Catalog) : Rule Unit := fun _ state =>
  .ok () { state with catalog := change state.catalog }

def claim (name : String) (owner : Owner) (place : Position) : Rule Unit := fun _ state =>
  match state.catalog.claim name owner place with
  | .ok _ catalog => .ok () { state with catalog }
  | .error error catalog => .error error { state with catalog }

-- Whether a variable is declared here: a type word starts it, or the name of a type that a name or a bracket follows.
def startsVariable : Rule Bool := do
  let found ← token
  let known ← namesType found.value
  let next ← peek 1
  pure (found.kind.isTypeWord ||
    (found.kind = .identifier && known && (next = .identifier || next = .openBracket)))

-- No file exceeds a bound of one step more than there are tokens.
def bounded (rule : Nat → Rule α) : Rule α := fun tokens state => rule (tokens.size + 1) tokens state

def itemsFrom (closer : Kind) (item : Option α → Rule α) : Nat → Option α → Rule (List α)
  | 0, _ => giveUp
  | bound + 1, previous => do
    if (← kind) = closer then pure []
    else
      let first ← item previous
      let others ← itemsFrom closer item bound (some first)
      pure (first :: others)

def items (closer : Kind) (item : Option α → Rule α) : Rule (List α) := do
  let found ← bounded fun bound => itemsFrom closer item bound none
  let _ ← expect closer
  pure found

def separator (closer : Kind) (expected : List String) : Rule Unit := do
  let next ← kind
  if next = .comma then skip
  else if next = closer then pure ()
  else unexpected expected

def listed (closer : Kind) (expected : List String) (item : Rule α) : Rule (List α) :=
  items closer fun _ => do
    let found ← item
    separator closer expected
    pure found

end TypedScript.Grammar
