import TypedScript.Catalog.Accepts

namespace TypedScript.Catalog

variable {catalog : Catalog} {target value type left right upper middle lower : Ty} {signature : Signature}

def BuiltinsApart (catalog : Catalog) : Prop := ∀ name ∈ Ty.builtinNames, catalog.delegates.get? name = none

instance (catalog : Catalog) : Decidable catalog.BuiltinsApart :=
  inferInstanceAs (Decidable (∀ name ∈ Ty.builtinNames, catalog.delegates.get? name = none))

theorem BuiltinsApart.ne (apart : catalog.BuiltinsApart) (called : catalog.delegate? type = some signature)
    {name : String} (builtin : name ∈ Ty.builtinNames) : type ≠ .named name := by
  intro same
  subst same
  cases (apart name builtin).symm.trans called

-- The grounds on which a place takes a value, in no order.
inductive Takes (catalog : Catalog) : Ty → Ty → Prop where
  | same (type : Ty) : Takes catalog type type
  | object {value : Ty} (given : value ≠ .void) : Takes catalog .object value
  | null {target : Ty} (nullable : target ≠ .bool ∧ target ≠ .num ∧ target ≠ .char) : Takes catalog target .null
  | char : Takes catalog .string .char
  | delegate {target value : Ty} {signature : Signature} (wanted : catalog.delegate? target = some signature)
      (given : catalog.delegate? value = some signature) : Takes catalog target value

theorem fits_iff {wanted given : Signature} : wanted.fits [] given = true ↔ wanted = given := by
  obtain ⟨returns, parameters⟩ := wanted
  obtain ⟨result, takes⟩ := given
  simp only [Signature.fits, Signature.overridden, List.take_nil, List.length_nil, List.drop_zero, List.nil_append,
    Bool.and_eq_true, beq_iff_eq, Signature.mk.injEq]
  constructor
  · intro fits
    exact ⟨fits.2, fits.1.2⟩
  · intro same
    exact ⟨⟨congrArg List.length same.2, same.2⟩, same.1⟩

theorem takes_of_accepts (accepted : catalog.accepts target value = true) : catalog.Takes target value := by
  unfold accepts acceptsWith at accepted
  by_cases void : value = .void
  · subst void
    have same : target = .void := by simpa using accepted
    rw [same]
    exact .same _
  by_cases same : target = value
  · rw [same]
    exact .same _
  by_cases object : target = .object
  · rw [object]
    exact .object void
  by_cases null : value = .null
  · subst null
    have nullable : target.takesNull = true := by simpa [void, same, object] using accepted
    simp only [Ty.takesNull, Bool.not_eq_true', Bool.or_eq_false_iff, decide_eq_false_iff_not] at nullable
    exact .null ⟨nullable.1.1.1, nullable.1.1.2, nullable.1.2⟩
  by_cases char : target = .string ∧ value = .char
  · rw [char.1, char.2]
    exact .char
  simp only [void, same, object, null, char, if_false, false_and] at accepted
  cases wanted : catalog.delegate? target with
  | none => simp [wanted] at accepted
  | some first =>
    cases given : catalog.delegate? value with
    | none => simp [wanted, given] at accepted
    | some second =>
      have fits : first.fits [] second = true := by simpa [wanted, given] using accepted
      rw [← fits_iff.mp fits] at given
      exact .delegate wanted given

theorem Takes.accepts (takes : catalog.Takes target value) (apart : catalog.BuiltinsApart) :
    catalog.accepts target value = true := by
  unfold Catalog.accepts acceptsWith
  cases takes with
  | same => simp
  | object given => simp [given]
  | null nullable =>
    obtain ⟨bool, num, char⟩ := nullable
    by_cases same : target = .null
    · simp [same]
    · simp [same, Ty.takesNull, bool, num, char, show Ty.null ≠ Ty.void by decide]
  | char => rfl
  | delegate wanted given =>
    have void : value ≠ .void := apart.ne given (by decide)
    have null : value ≠ .null := apart.ne given (by decide)
    simp [void, null, wanted, given, fits_iff]

theorem accepts_iff (apart : catalog.BuiltinsApart) :
    catalog.accepts target value = true ↔ catalog.Takes target value :=
  ⟨takes_of_accepts, fun takes => takes.accepts apart⟩

namespace Takes

-- Nothing is below these types, and nothing above the two after them.
theorem into_least (apart : catalog.BuiltinsApart) (least : target ∈ [Ty.null, Ty.bool, Ty.num, Ty.char])
    (takes : catalog.Takes target value) : value = target := by
  cases takes with
  | same => rfl
  | object => exact absurd least (by decide)
  | null nullable =>
    obtain ⟨bool, num, char⟩ := nullable
    simp only [List.mem_cons, bool, num, char, List.not_mem_nil, or_false] at least
    exact least.symm
  | char => exact absurd least (by decide)
  | delegate wanted =>
    have apartFrom : target ∉ [Ty.null, Ty.bool, Ty.num, Ty.char] := by
      simp only [List.mem_cons, List.not_mem_nil, or_false, not_or]
      exact ⟨apart.ne wanted (by decide), apart.ne wanted (by decide), apart.ne wanted (by decide),
        apart.ne wanted (by decide)⟩
    exact absurd least apartFrom

theorem from_greatest (apart : catalog.BuiltinsApart) (greatest : value ∈ [Ty.void, Ty.object])
    (takes : catalog.Takes target value) : target = value := by
  cases takes with
  | same => rfl
  | object given =>
    simp only [List.mem_cons, given, List.not_mem_nil, or_false, false_or] at greatest
    exact greatest.symm
  | null => exact absurd greatest (by decide)
  | char => exact absurd greatest (by decide)
  | delegate _ given =>
    have apartFrom : value ∉ [Ty.void, Ty.object] := by
      simp only [List.mem_cons, List.not_mem_nil, or_false, not_or]
      exact ⟨apart.ne given (by decide), apart.ne given (by decide)⟩
    exact absurd greatest apartFrom

theorem trans (apart : catalog.BuiltinsApart) (first : catalog.Takes upper middle)
    (second : catalog.Takes middle lower) : catalog.Takes upper lower := by
  cases first with
  | same => exact second
  | object given =>
    apply object
    intro void
    subst void
    exact given (second.from_greatest apart (by decide))
  | null nullable =>
    rw [second.into_least apart (by decide)]
    exact .null nullable
  | char =>
    rw [second.into_least apart (by decide)]
    exact .char
  | delegate wanted given =>
    -- A delegate between two types hands on its signature, and is above nothing else but `null`.
    cases second with
    | same => exact .delegate wanted given
    | object => exact absurd rfl (apart.ne given (by decide))
    | null =>
      exact .null ⟨apart.ne wanted (by decide), apart.ne wanted (by decide), apart.ne wanted (by decide)⟩
    | char => exact absurd rfl (apart.ne given (by decide))
    | delegate again last =>
      rw [given] at again
      cases again
      exact .delegate wanted last

theorem mutual_iff (apart : catalog.BuiltinsApart) :
    catalog.Takes left right ∧ catalog.Takes right left ↔
      left = right ∨
        ∃ signature, catalog.delegate? left = some signature ∧ catalog.delegate? right = some signature := by
  constructor
  · intro takes
    obtain ⟨there, back⟩ := takes
    cases there with
    | same => exact .inl rfl
    | object => exact .inl (back.from_greatest apart (by decide)).symm
    | null => exact .inl (back.into_least apart (by decide))
    | char => exact .inl (back.into_least apart (by decide))
    | delegate wanted given => exact .inr ⟨_, wanted, given⟩
  · intro alike
    rcases alike with rfl | ⟨signature, first, second⟩
    · exact ⟨.same _, .same _⟩
    · exact ⟨.delegate first second, .delegate second first⟩

theorem object_iff (apart : catalog.BuiltinsApart) : catalog.Takes .object value ↔ value ≠ .void := by
  constructor
  · intro takes void
    subst void
    exact absurd (takes.from_greatest apart (by decide)) (by decide)
  · exact .object

theorem null_iff (apart : catalog.BuiltinsApart) :
    catalog.Takes target .null ↔ target ≠ .bool ∧ target ≠ .num ∧ target ≠ .char := by
  refine ⟨?_, .null⟩
  intro takes
  generalize held : Ty.null = value at takes
  cases takes with
  | same =>
    rw [← held]
    decide
  | object => decide
  | null nullable => exact nullable
  | char => decide
  | delegate wanted => exact ⟨apart.ne wanted (by decide), apart.ne wanted (by decide), apart.ne wanted (by decide)⟩

end Takes

end TypedScript.Catalog
