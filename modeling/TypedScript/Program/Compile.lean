import TypedScript.Grammar.Outline
import TypedScript.Program.Prelude
import TypedScript.Token.Scan
import TypedScript.Typing.Program

namespace TypedScript

structure Source where
  path : String
  text : String
deriving DecidableEq

structure Options where
  prelude : Bool
  vectors : Typing.Vectors
deriving DecidableEq

def Options.standard : Options := ⟨true, Prelude.vectors⟩

structure Program where
  prelude : Option File
  files : List File
  types : Typing.TypeMap
  catalog : Catalog

def mapState {α β σ : Type} (pass : α → σ → Except Error (β × σ)) :
    List α → σ → Except Error (List β × σ)
  | [], state => .ok ([], state)
  | first :: others, state => do
    let (value, next) ← pass first state
    let (values, last) ← mapState pass others next
    pure (value :: values, last)

def Source.scan (source : Source) : Except Error Grammar.Stream := do
  let tokens ← Token.scan source.text source.path
  pure tokens.toArray

def outlineFile (tokens : Grammar.Stream) (catalog : Catalog) :
    Except Error (List Grammar.Entry × Catalog) :=
  match Grammar.outline tokens (.start tokens 0 catalog) with
  | .ok entries state => .ok (entries, state.catalog)
  | .error error _ => .error error

-- Parses a file by its outline, from the next identity and the catalog on. A file takes identities only if it is
-- parsed to its end, but what it has entered into the catalog before a failure stays.
def parseStream (tokens : Grammar.Stream) (entries : List Grammar.Entry) : EStateM Error (Nat × Catalog) File :=
  fun state =>
    match Grammar.wholeFile entries tokens (.start tokens state.1 state.2) with
    | .ok file after => .ok file (after.nextId, after.catalog)
    | .error error after => .error error (state.1, after.catalog)

def parseFile (input : Grammar.Stream × List Grammar.Entry) (state : Nat × Catalog) :
    Except Error (File × Nat × Catalog) :=
  match parseStream input.1 input.2 state with
  | .ok file after => .ok (file, after)
  | .error error _ => .error error

def parseAlone (text path : String) : Except (Error × Catalog) (File × Nat × Catalog) := do
  let tokens ← (Source.scan ⟨path, text⟩).mapError fun error => (error, Catalog.initial)
  match Grammar.outline tokens (.start tokens 0 Catalog.initial) with
  | .error error state => .error (error, state.catalog)
  | .ok entries named =>
    match parseStream tokens entries (0, named.catalog) with
    | .ok file after => .ok (file, after)
    | .error error after => .error (error, after.2)

def checkProgram (vectors : Typing.Vectors) (files : List File) (catalog : Catalog) :
    Except Error (Typing.TypeMap × Catalog) :=
  match Typing.checkFiles files vectors (.start catalog) with
  | .ok _ state => .ok (state.types, state.catalog)
  | .error error _ => .error error

def Options.sources (options : Options) (given : List Source) : List Source :=
  if options.prelude then ⟨Prelude.path, Prelude.text⟩ :: given else given

def Program.ofFiles (options : Options) (files : List File) (types : Typing.TypeMap)
    (catalog : Catalog) : Program :=
  match options.prelude, files with
  | true, prelude :: others => ⟨some prelude, others, types, catalog⟩
  | _, _ => ⟨none, files, types, catalog⟩

-- Compiles files as one program and stops at the first error. Every file is scanned before any is outlined, every
-- name is claimed before any declaration is parsed, and all is parsed before anything is checked, so that files can
-- use each other in any order.
def compile (options : Options) (given : List Source) : Except Error Program := do
  let streams ← (options.sources given).mapM Source.scan
  let (outlines, named) ← mapState outlineFile streams Catalog.initial
  let (files, _, entered) ← mapState parseFile (streams.zip outlines) (0, named)
  let (types, catalog) ← checkProgram options.vectors files entered
  pure (.ofFiles options files types catalog)

def sourceOf (error : Error) (given : List Source) : String :=
  if error.position.file = Prelude.path then Prelude.text
  else ((given.find? fun source => source.path = error.position.file).map Source.text).getD ""

end TypedScript
