import TypedScript.Catalog.Basic
import TypedScript.Proofs.Outcome

namespace TypedScript

variable {ρ σ α β γ δ : Type}

structure Error.Mirrors (At : Position → Position → Prop) (left right : Error) : Prop where
  cause : left.cause = right.cause
  position : At left.position right.position

theorem Error.Mirrors.eq {left right : Error} (mirrors : left.Mirrors Eq right) : left = right := by
  obtain ⟨_, _⟩ := right
  obtain ⟨rfl, rfl⟩ := mirrors
  rfl

inductive Answer.Mirrors (At : Position → Position → Prop) (same : α → β → Prop) :
    Except Error α → Except Error β → Prop where
  | ok {value : α} {other : β} (values : same value other) : Mirrors At same (.ok value) (.ok other)
  | error {error fault : Error} (errors : error.Mirrors At fault) : Mirrors At same (.error error) (.error fault)

-- Two runs side by side: what each of them reads, and which places, identities and states of the first stand for
-- which of the second. Every comparison of two runs is one choice of these.
structure Tandem (ρ σ : Type) where
  left : ρ
  right : ρ
  At : Position → Position → Prop
  Ids : Nat → Nat → Prop
  states : σ → σ → Prop

inductive Tandem.Outcomes (pair : Tandem ρ σ) (same : α → β → Prop) :
    EStateM.Result Error σ α → EStateM.Result Error σ β → Prop where
  | ok {value : α} {other : β} {s t : σ} (values : same value other) (after : pair.states s t) :
      pair.Outcomes same (.ok value s) (.ok other t)
  | error {error fault : Error} {s t : σ} (errors : error.Mirrors pair.At fault) (after : pair.states s t) :
      pair.Outcomes same (.error error s) (.error fault t)

-- From states that correspond both runs come to such states, with the same success or the same failure.
def Mirror (pair : Tandem ρ σ) (same : α → β → Prop) (first : ReaderT ρ (EStateM Error σ) α)
    (second : ReaderT ρ (EStateM Error σ) β) : Prop :=
  ∀ s t, pair.states s t → pair.Outcomes same (first pair.left s) (second pair.right t)

namespace Mirror

variable {pair : Tandem ρ σ} {same : α → β → Prop} {alike : γ → δ → Prop}
  {first : ReaderT ρ (EStateM Error σ) α} {second : ReaderT ρ (EStateM Error σ) β}

theorem bind {next : α → ReaderT ρ (EStateM Error σ) γ} {last : β → ReaderT ρ (EStateM Error σ) δ}
    (start : Mirror pair same first second)
    (rest : ∀ value other, same value other → Mirror pair alike (next value) (last other)) :
    Mirror pair alike (first >>= next) (second >>= last) := by
  intro s t states
  have outcomes := start s t states
  generalize ran : first pair.left s = outcome at outcomes
  generalize also : second pair.right t = answer at outcomes
  cases outcomes with
  | ok values after =>
    rw [bind_of_ok ran, bind_of_ok also]
    exact rest _ _ values _ _ after
  | error errors after =>
    rw [bind_of_error ran, bind_of_error also]
    exact .error errors after

theorem bindEq {first second : ReaderT ρ (EStateM Error σ) α} {next : α → ReaderT ρ (EStateM Error σ) γ}
    {last : α → ReaderT ρ (EStateM Error σ) δ} (start : Mirror pair Eq first second)
    (rest : ∀ value, Mirror pair alike (next value) (last value)) :
    Mirror pair alike (first >>= next) (second >>= last) := by
  apply start.bind
  intro value other values
  subst values
  exact rest value

theorem pure {value : α} {other : β} (values : same value other) :
    Mirror pair same (pure value : ReaderT ρ (EStateM Error σ) α) (pure other) :=
  fun _ _ states => .ok values states

theorem ite {condition : Prop} [Decidable condition] {yes no : ReaderT ρ (EStateM Error σ) α}
    {other none : ReaderT ρ (EStateM Error σ) β} (here : Mirror pair same yes other)
    (there : Mirror pair same no none) :
    Mirror pair same (if condition then yes else no) (if condition then other else none) := by
  by_cases holds : condition
  · rw [if_pos holds, if_pos holds]
    exact here
  · rw [if_neg holds, if_neg holds]
    exact there

theorem imp {wider : α → β → Prop} (start : Mirror pair same first second)
    (implies : ∀ value other, same value other → wider value other) : Mirror pair wider first second := by
  intro s t states
  have outcomes := start s t states
  generalize first pair.left s = outcome at outcomes
  generalize second pair.right t = answer at outcomes
  cases outcomes with
  | ok values after => exact .ok (implies _ _ values) after
  | error errors after => exact .error errors after

end Mirror

namespace Answer.Mirrors

variable {At : Position → Position → Prop} {same : α → β → Prop} {alike : γ → δ → Prop}

theorem bind {first : Except Error α} {second : Except Error β} {next : α → Except Error γ}
    {last : β → Except Error δ} (start : Answer.Mirrors At same first second)
    (rest : ∀ value other, same value other → Answer.Mirrors At alike (next value) (last other)) :
    Answer.Mirrors At alike (first >>= next) (second >>= last) := by
  cases start with
  | ok values => exact rest _ _ values
  | error errors => exact .error errors

theorem ite {condition : Prop} [Decidable condition] {yes no : Except Error α} {other none : Except Error β}
    (here : Answer.Mirrors At same yes other) (there : Answer.Mirrors At same no none) :
    Answer.Mirrors At same (if condition then yes else no) (if condition then other else none) := by
  by_cases holds : condition
  · rw [if_pos holds, if_pos holds]
    exact here
  · rw [if_neg holds, if_neg holds]
    exact there

end Answer.Mirrors

namespace Catalog

variable {At : Position → Position → Prop} {first second : Catalog} {place other : Position}

theorem requireFree_mirrors (owners : first.owner? = second.owner?) (name : String) (places : At place other) :
    Answer.Mirrors At Eq (first.requireFree name place) (second.requireFree name other) := by
  unfold requireFree requireValid
  rw [owners]
  refine Answer.Mirrors.bind (.ite (.ok rfl) (.error ⟨rfl, places⟩)) fun _ _ (_ : () = ()) => ?_
  cases second.owner? name with
  | none => exact .ok rfl
  | some owner => exact .error ⟨rfl, places⟩

theorem requireKnown_mirrors (knows : first.knows = second.knows) (places : At place other) (type : Ty) :
    Answer.Mirrors At Eq (first.requireKnown place type) (second.requireKnown other type) := by
  induction type with
  | named name =>
    unfold requireKnown
    rw [knows]
    exact .ite (.ok rfl) (.error ⟨rfl, places⟩)
  | array element ih => exact ih
  | map key value keys values => exact keys.bind fun _ _ _ => values

end Catalog

end TypedScript
