import TypedScript.CommandLine.Files
import TypedScript.Program.Compile

namespace TypedScript.CommandLine

structure Outcome where
  exitCode : Nat
  output : List String
  errors : String
deriving DecidableEq

structure Timing where
  reading : String
  checking : String
  total : String

def readAll (read : String → Except ReadFailure String) :
    List String → Except (String × ReadFailure) (List Source)
  | [] => .ok []
  | path :: others => do
    let text ← (read path).mapError fun failure => (path, failure)
    let sources ← readAll read others
    pure (⟨path, text⟩ :: sources)

def usage : Outcome := ⟨1, [], "usage: scriptc FILE...\n"⟩

def unreadable (path : String) (failure : ReadFailure) : Outcome :=
  ⟨1, [], "Failed to read " ++ path ++ ": " ++ failure.message ++ "\n"⟩

-- A run that cannot show its error is broken off.
def report (timing : Timing) (sources : List Source) : Except Error Program → Outcome
  | .ok program =>
    ⟨0, opening ++ ["Checked " ++ toString program.types.size ++ " expressions across " ++
      toString program.files.length ++ " files", "Total time: " ++ timing.total], ""⟩
  | .error error =>
    match error.render? (sourceOf error sources) with
    | some shown => ⟨1, opening, shown⟩
    | none => ⟨101, opening, ""⟩
where
  opening : List String :=
    ["Read " ++ toString sources.length ++ " files in " ++ timing.reading,
      "Checked in " ++ timing.checking]

def run (read : String → Except ReadFailure String) (timing : Timing) (paths : List String) : Outcome :=
  if paths.isEmpty then usage
  else match readAll read paths with
    | .error (path, failure) => unreadable path failure
    | .ok sources => report timing sources (compile .standard sources)

end TypedScript.CommandLine
