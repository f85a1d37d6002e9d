namespace TypedScript

variable {ρ ε σ α β : Type}

-- Rules of the grammar and checks of the typing run in the same kind of monad. A run of two steps is taken
-- apart here, once for both; no later proof unfolds the monad.
theorem bind_ok {first : ReaderT ρ (EStateM ε σ) α} {next : α → ReaderT ρ (EStateM ε σ) β}
    {env : ρ} {s t : σ} {value : β} :
    (first >>= next) env s = .ok value t ↔
      ∃ found m, first env s = .ok found m ∧ next found env m = .ok value t := by
  show EStateM.bind (first env) (fun found => next found env) s = _ ↔ _
  unfold EStateM.bind
  cases first env s with
  | ok found m =>
    constructor
    · intro ran
      exact ⟨found, m, rfl, ran⟩
    · rintro ⟨_, _, same, ran⟩
      cases same
      exact ran
  | error error m => simp

theorem bind_error {first : ReaderT ρ (EStateM ε σ) α} {next : α → ReaderT ρ (EStateM ε σ) β}
    {env : ρ} {s t : σ} {error : ε} :
    (first >>= next) env s = .error error t ↔ first env s = .error error t ∨
      ∃ found m, first env s = .ok found m ∧ next found env m = .error error t := by
  show EStateM.bind (first env) (fun found => next found env) s = _ ↔ _
  unfold EStateM.bind
  cases first env s with
  | ok found m =>
    constructor
    · intro ran
      exact .inr ⟨found, m, rfl, ran⟩
    · rintro (ran | ⟨_, _, same, ran⟩)
      · cases ran
      · cases same
        exact ran
  | error error m => simp

theorem bind_of_ok {first : ReaderT ρ (EStateM ε σ) α} {next : α → ReaderT ρ (EStateM ε σ) β}
    {env : ρ} {s m : σ} {found : α} (ran : first env s = .ok found m) :
    (first >>= next) env s = next found env m := by
  show EStateM.bind (first env) (fun found => next found env) s = _
  unfold EStateM.bind
  rw [ran]

theorem bind_of_error {first : ReaderT ρ (EStateM ε σ) α} {next : α → ReaderT ρ (EStateM ε σ) β}
    {env : ρ} {s m : σ} {error : ε} (ran : first env s = .error error m) :
    (first >>= next) env s = .error error m := by
  show EStateM.bind (first env) (fun found => next found env) s = _
  unfold EStateM.bind
  rw [ran]

theorem pure_ok {env : ρ} {s t : σ} {given value : α} :
    (pure given : ReaderT ρ (EStateM ε σ) α) env s = .ok value t ↔ given = value ∧ s = t := by
  show EStateM.Result.ok given s = _ ↔ _
  simp

theorem except_bind_ok {first : Except ε α} {next : α → Except ε β} {value : β} :
    (first >>= next) = .ok value ↔ ∃ found, first = .ok found ∧ next found = .ok value := by
  cases first with
  | ok found =>
    constructor
    · intro ran
      exact ⟨found, rfl, ran⟩
    · rintro ⟨_, same, ran⟩
      cases same
      exact ran
  | error error =>
    constructor
    · intro ran
      cases ran
    · rintro ⟨_, same, -⟩
      cases same

theorem except_bind_error {first : Except ε α} {next : α → Except ε β} {error : ε}
    (failed : (first >>= next) = .error error) :
    first = .error error ∨ ∃ found, first = .ok found ∧ next found = .error error := by
  cases first with
  | ok found => exact .inr ⟨found, rfl, failed⟩
  | error fault =>
    cases failed
    exact .inl rfl

def finalState : EStateM.Result ε σ α → σ
  | .ok _ left => left
  | .error _ left => left

def endsIn (holds : α → σ → Bool) : EStateM.Result ε σ α → Bool
  | .ok value left => holds value left
  | .error _ _ => false

theorem endsIn_ok {holds : α → σ → Bool} {outcome : EStateM.Result ε σ α}
    (tested : endsIn holds outcome = true) :
    ∃ value left, outcome = .ok value left ∧ holds value left = true := by
  cases outcome with
  | ok value left => exact ⟨value, left, rfl, tested⟩
  | error _ _ => cases tested

def refuses (holds : ε → Bool) : EStateM.Result ε σ α → Bool
  | .ok _ _ => false
  | .error error _ => holds error

theorem refuses_error {holds : ε → Bool} {outcome : EStateM.Result ε σ α} (tested : refuses holds outcome = true) :
    ∃ error left, outcome = .error error left ∧ holds error = true := by
  cases outcome with
  | ok _ _ => cases tested
  | error error left => exact ⟨error, left, rfl, tested⟩

def yields (holds : α → Bool) : Except ε α → Bool
  | .ok value => holds value
  | .error _ => false

theorem yields_ok {holds : α → Bool} {outcome : Except ε α} (tested : yields holds outcome = true) :
    ∃ value, outcome = .ok value ∧ holds value = true := by
  cases outcome with
  | ok value => exact ⟨value, rfl, tested⟩
  | error _ => cases tested

def rejects (holds : ε → Bool) : Except ε α → Bool
  | .ok _ => false
  | .error error => holds error

theorem rejects_error {holds : ε → Bool} {outcome : Except ε α} (tested : rejects holds outcome = true) :
    ∃ error, outcome = .error error ∧ holds error = true := by
  cases outcome with
  | ok _ => cases tested
  | error error => exact ⟨error, rfl, tested⟩

end TypedScript
