import TypedScript.CommandLine.Duration
import TypedScript.CommandLine.Run

namespace TypedScript.CommandLine

-- Some calls of the system give the number of an error negated.
def errorNumber (code : UInt32) : Nat :=
  if 0x80000000 ≤ code.toNat then 0x100000000 - code.toNat else code.toNat

def ReadFailure.ofSystem : IO.Error → ReadFailure
  | .noFileOrDirectory _ code details => .ofNumber (errorNumber code) details
  | .permissionDenied _ code details => .ofNumber (errorNumber code) details
  | .inappropriateType _ code details => .ofNumber (errorNumber code) details
  | .invalidArgument _ code details => .ofNumber (errorNumber code) details
  | error => .other error.toString

def readFile (path : String) : IO (Except ReadFailure String) := do
  try
    let content ← IO.FS.readBinFile path
    match String.fromUTF8? content with
    | some text => pure (.ok text)
    | none => pure (.error .notText)
  catch error => pure (.error (.ofSystem error))

def readFiles : List String → IO (Except (String × ReadFailure) (List Source))
  | [] => pure (.ok [])
  | path :: others => do
    match ← readFile path with
    | .error failure => pure (.error (path, failure))
    | .ok text => do
      let sources ← readFiles others
      pure (sources.map (⟨path, text⟩ :: ·))

def present (outcome : Outcome) : IO UInt32 := do
  outcome.output.forM fun line => IO.println line
  IO.eprint outcome.errors
  pure (UInt32.ofNat outcome.exitCode)

def runOn (paths : List String) : IO UInt32 := do
  let start ← IO.monoNanosNow
  match ← readFiles paths with
  | .error (path, failure) => present (unreadable path failure)
  | .ok sources => do
    let read ← IO.monoNanosNow
    let result ← IO.lazyPure fun _ => compile .standard sources
    let stop ← IO.monoNanosNow
    let timing : Timing :=
      ⟨durationText (read - start), durationText (stop - read), durationText (stop - start)⟩
    present (report timing sources result)

end TypedScript.CommandLine

def main (paths : List String) : IO UInt32 :=
  if paths.isEmpty then TypedScript.CommandLine.present TypedScript.CommandLine.usage
  else TypedScript.CommandLine.runOn paths
