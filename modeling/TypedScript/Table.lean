namespace TypedScript

-- A finite map in which the first entry of a key stays, so that each key has at most one.
structure Table (κ α : Type) where
  entries : List (κ × α)

namespace Table

variable {κ α : Type}

def empty : Table κ α := ⟨[]⟩

def names (table : Table κ α) : List κ := table.entries.map Prod.fst

def size (table : Table κ α) : Nat := table.entries.length

variable [DecidableEq κ]

def get? (table : Table κ α) (name : κ) : Option α := table.entries.lookup name

def contains (table : Table κ α) (name : κ) : Bool := (table.get? name).isSome

def insertNew (table : Table κ α) (name : κ) (value : α) : Table κ α :=
  if table.contains name then table else ⟨(name, value) :: table.entries⟩

@[simp] theorem get?_empty (name : κ) : (empty : Table κ α).get? name = none := rfl

theorem insertNew_of_contains (table : Table κ α) (name : κ) (value : α) (known : table.contains name = true) :
    table.insertNew name value = table := by
  simp [insertNew, known]

theorem get?_insertNew (table : Table κ α) (name other : κ) (value : α) :
    (table.insertNew name value).get? other =
      (table.get? other).or (if other = name then some value else none) := by
  unfold insertNew contains get?
  cases found : table.entries.lookup name with
  | some old =>
    by_cases same : other = name
    · simp [same, found]
    · simp [same]
  | none =>
    by_cases same : other = name
    · simp [same, found]
    · have differs : (other == name) = false := by simpa using same
      simp [same, List.lookup_cons, differs]

end Table

end TypedScript
