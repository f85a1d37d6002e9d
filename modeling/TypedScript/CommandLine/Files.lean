namespace TypedScript.CommandLine

inductive ReadFailure where
  | notFound
  | denied
  | notDirectory
  | isDirectory
  | nameTooLong
  | notText
  | other (message : String)
deriving DecidableEq

def ReadFailure.message : ReadFailure → String
  | notFound => "No such file or directory (os error 2)"
  | denied => "Permission denied (os error 13)"
  | notDirectory => "Not a directory (os error 20)"
  | isDirectory => "Is a directory (os error 21)"
  | nameTooLong => "File name too long (os error 36)"
  | notText => "stream did not contain valid UTF-8"
  | other message => message

def ReadFailure.ofNumber (number : Nat) (message : String) : ReadFailure :=
  match number with
  | 2 => notFound
  | 13 => denied
  | 20 => notDirectory
  | 21 => isDirectory
  | 36 => nameTooLong
  | _ => other message

inductive Place where
  | directory (names : List String)
  -- A directory outside the tree. Nothing stands in it but the ways to other directories.
  | outside
  | file (content : ByteArray)

def segments (path : String) : List String :=
  (go path.toList).map String.ofList
where
  go : List Char → List (List Char)
    | [] => [[]]
    | c :: rest =>
      if c = '/' then [] :: go rest
      else match go rest with
        | [] => [[c]]
        | first :: others => (c :: first) :: others

def climb (names : List String) (step : String) : List String :=
  if step = "" ∨ step = "." then names
  else if step = ".." then names.dropLast
  else names ++ [step]

def wayAlong (names : List String) : List String → List (List String)
  | [] => [names]
  | step :: others => names :: wayAlong (climb names step) others

structure Files where
  directories : List (List String)
  entries : List (List String × ByteArray)

namespace Files

def empty : Files := ⟨[[]], []⟩

def insert (files : Files) (path : String) (content : ByteArray) : Files :=
  let steps := segments path
  ⟨wayAlong [] steps.dropLast ++ files.directories, (steps.foldl climb [], content) :: files.entries⟩

def ofList (files : List (String × ByteArray)) : Files :=
  files.foldl (fun tree (path, content) => tree.insert path content) empty

def at? (files : Files) (names : List String) : Option Place :=
  match files.entries.lookup names with
  | some content => some (.file content)
  | none => if files.directories.contains names then some (.directory names) else none

def enter (files : Files) (names : List String) (step : String) : Except ReadFailure Place :=
  if step = ".." ∧ names = [] then .ok .outside
  else match files.at? (climb names step) with
    | some place => .ok place
    | none => .error .notFound

-- Only a directory can be left again, and a name has at most 255 bytes.
def step (files : Files) (place : Place) (name : String) : Except ReadFailure Place :=
  match place with
  | .file _ => .error .notDirectory
  | .outside =>
    if 255 < name.utf8ByteSize then .error .nameTooLong
    else if name = "" ∨ name = "." ∨ name = ".." then .ok .outside
    else .error .notFound
  | .directory names =>
    if 255 < name.utf8ByteSize then .error .nameTooLong else files.enter names name

def startOf (path : List String) : Place :=
  if path.head? = some "" then .outside else .directory []

def follow (files : Files) (path : List String) : Except ReadFailure Place :=
  path.foldlM files.step (startOf path)

def read (files : Files) (path : String) : Except ReadFailure String := do
  if path = "" then .error .notFound
  else if 4096 ≤ path.utf8ByteSize then .error .nameTooLong
  else
    match ← files.follow (segments path) with
    | .directory _ | .outside => .error .isDirectory
    | .file content =>
      match String.fromUTF8? content with
      | some text => .ok text
      | none => .error .notText

end Files

end TypedScript.CommandLine
