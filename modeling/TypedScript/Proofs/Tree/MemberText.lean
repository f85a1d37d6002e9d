import TypedScript.Proofs.Token.Numerals
import TypedScript.Proofs.Tree.Yield

namespace TypedScript

open Number.Signed64 (least greatest)

structure SignedNumeral where
  negated : Bool
  digits : String

namespace SignedNumeral

def magnitude (numeral : SignedNumeral) : Nat := Number.ofDigits numeral.digits.toList

def value (numeral : SignedNumeral) : Int :=
  if numeral.negated then -(numeral.magnitude : Int) else numeral.magnitude

def yield (numeral : SignedNumeral) : List Mark :=
  if numeral.negated then [.fixed .dash, .token .number numeral.digits] else [.token .number numeral.digits]

structure Fits (numeral : SignedNumeral) : Prop where
  digits : AreDigits numeral.digits.toList
  small : (numeral.magnitude : Int) ≤ greatest

theorem Fits.bounded {numeral : SignedNumeral} (fits : numeral.Fits) :
    least ≤ numeral.value ∧ numeral.value ≤ greatest := by
  have small := fits.small
  unfold greatest at small
  unfold value least greatest
  split <;> omega

end SignedNumeral

structure MemberText where
  name : String
  stated : Option SignedNumeral

namespace MemberText

def valueYield (text : MemberText) : List Mark := text.stated.elim [] fun numeral => .fixed .assign :: numeral.yield

def yield (text : MemberText) : List Mark := .token .identifier text.name :: text.valueYield

def enumYield (name : String) (texts : List MemberText) : List Mark :=
  .fixed .enumWord :: .token .identifier name :: .fixed .openCurly ::
    (Mark.listed yield texts ++ [.fixed .closeCurly])

def Fits (text : MemberText) : Prop := ∀ numeral ∈ text.stated, numeral.Fits

-- The value of a member, by the value before it: what it states, or the next integer, which is zero at first.
def value (previous : Option Int) (text : MemberText) : Int :=
  text.stated.elim (previous.elim 0 (· + 1)) SignedNumeral.value

def valuesAfter : Option Int → List MemberText → List Int
  | _, [] => []
  | previous, text :: others => text.value previous :: valuesAfter (some (text.value previous)) others

-- What is wrong with a member after a value.
inductive Offends (previous : Option Int) (text : MemberText) : Cause → Prop where
  | decreases {numeral : SignedNumeral} {minimum : Int} (stated : text.stated = some numeral)
      (after : previous = some minimum) (below : numeral.value < minimum) :
      Offends previous text (.enumDecreasing text.name numeral.value minimum)
  | overflows (implied : text.stated = none) (after : previous = some greatest) :
      Offends previous text (.enumOverflow text.name)

inductive FirstOffence : Option Int → List MemberText → Cause → Prop where
  | here {previous : Option Int} {text : MemberText} {others : List MemberText} {cause : Cause}
      (offends : text.Offends previous cause) : FirstOffence previous (text :: others) cause
  | later {previous : Option Int} {text : MemberText} {others : List MemberText} {cause : Cause}
      (keeps : ∀ other, ¬text.Offends previous other)
      (rest : FirstOffence (some (text.value previous)) others cause) : FirstOffence previous (text :: others) cause

def Orderly : Option Int → List MemberText → Prop
  | _, [] => True
  | previous, text :: others =>
    (∀ cause, ¬text.Offends previous cause) ∧ Orderly (some (text.value previous)) others

structure Makes (text : MemberText) (previous : Option Int) (made : Member) : Prop where
  name : made.name = text.name
  value : made.value = text.value previous

variable {previous : Option Int} {text : MemberText} {texts : List MemberText}

theorem Makes.last {made : Member} (makes : text.Makes previous made) :
    (some made).map Member.value = some (text.value previous) :=
  congrArg some makes.value

theorem keeps_stated {numeral : SignedNumeral} (stated : text.stated = some numeral)
    (above : ∀ minimum ∈ previous, minimum ≤ numeral.value) (cause : Cause) : ¬text.Offends previous cause := by
  intro offends
  cases offends with
  | decreases other after below =>
    cases stated.symm.trans other
    exact absurd below (Int.not_lt.mpr (above _ after))
  | overflows implied =>
    rw [implied] at stated
    cases stated

theorem keeps_implied (implied : text.stated = none) (free : greatest ∉ previous) (cause : Cause) :
    ¬text.Offends previous cause := by
  intro offends
  cases offends with
  | decreases stated =>
    rw [implied] at stated
    cases stated
  | overflows _ after => exact free after

theorem orderly_or_offence (previous : Option Int) (texts : List MemberText) :
    Orderly previous texts ∨ ∃ cause, FirstOffence previous texts cause := by
  induction texts generalizing previous with
  | nil => exact .inl trivial
  | cons text others ih =>
    by_cases offended : ∃ cause, text.Offends previous cause
    · obtain ⟨cause, offends⟩ := offended
      exact .inr ⟨cause, .here offends⟩
    · have keeps := not_exists.mp offended
      rcases ih (some (text.value previous)) with orderly | ⟨cause, rest⟩
      · exact .inl ⟨keeps, orderly⟩
      · exact .inr ⟨cause, .later keeps rest⟩

def Bounded (value : Int) : Prop := least ≤ value ∧ value ≤ greatest

theorem value_bounded (before : ∀ value ∈ previous, Bounded value) (fits : text.Fits)
    (keeps : ∀ cause, ¬text.Offends previous cause) :
    Bounded (text.value previous) ∧ ∀ value ∈ previous, value ≤ text.value previous := by
  unfold value
  cases stated : text.stated with
  | some numeral =>
    refine ⟨(fits numeral stated).bounded, ?_⟩
    intro minimum after
    exact Int.not_lt.mp fun below => keeps _ (.decreases stated after below)
  | none =>
    cases previous with
    | none => exact ⟨⟨by decide, by decide⟩, by simp⟩
    | some last =>
      obtain ⟨low, high⟩ := before last rfl
      have less : last ≠ greatest := by
        rintro rfl
        exact keeps _ (.overflows stated rfl)
      unfold Bounded
      simp only [Option.elim_none, Option.elim_some, Option.mem_def, Option.some.injEq, forall_eq']
      omega

theorem Orderly.values (orderly : Orderly previous texts) (before : ∀ value ∈ previous, Bounded value)
    (fits : ∀ text ∈ texts, text.Fits) :
    (∀ value ∈ valuesAfter previous texts, Bounded value ∧ ∀ minimum ∈ previous, minimum ≤ value) ∧
      (valuesAfter previous texts).Pairwise (· ≤ ·) := by
  induction texts generalizing previous with
  | nil => exact ⟨List.forall_mem_nil _, .nil⟩
  | cons text others ih =>
    obtain ⟨keeps, rest⟩ := orderly
    obtain ⟨fit, later⟩ := List.forall_mem_cons.mp fits
    obtain ⟨here, above⟩ := value_bounded before fit keeps
    obtain ⟨each, ordered⟩ := ih rest (by simpa using here) later
    refine ⟨List.forall_mem_cons.mpr ⟨⟨here, above⟩, ?_⟩, List.pairwise_cons.mpr ⟨?_, ordered⟩⟩
    · intro value member
      obtain ⟨bounded, higher⟩ := each value member
      exact ⟨bounded, fun minimum known => Int.le_trans (above minimum known) (higher _ rfl)⟩
    · exact fun value member => (each value member).2 _ rfl

end MemberText

end TypedScript
