import TypedScript.Number.Signed64
import TypedScript.Proofs.Token.Lexemes

namespace TypedScript

theorem IsNumeral.head {text : List Char} (numeral : IsNumeral text) :
    ∃ c rest, text = c :: rest ∧ Number.isDigit c = true := by
  have first {digits : List Char} (all : AreDigits digits) : ∃ c rest, digits = c :: rest ∧ Number.isDigit c = true := by
    cases digits with
    | nil => exact absurd rfl all.1
    | cons c rest => exact ⟨c, rest, rfl, all.2 c List.mem_cons_self⟩
  rcases numeral with digits | ⟨whole, part, digits, -, rfl⟩
  · exact first digits
  · obtain ⟨c, rest, rfl, digit⟩ := first digits
    exact ⟨c, rest ++ '.' :: part, rfl, digit⟩

namespace Number

theorem sign_digit {c : Char} (digit : isDigit c = true) (rest : List Char) :
    Binary64.sign (c :: rest) = (false, c :: rest) := by
  unfold Binary64.sign
  split
  · rename_i same
    cases same
    cases digit
  · rename_i same
    cases same
    cases digit
  · rfl

namespace Signed64

-- A numeral has no sign of its own, so that an integer read from it is what its digits denote.
theorem ofText?_numeral {text : String} (numeral : IsNumeral text.toList) {value : Int} :
    ofText? text = some value ↔
      AreDigits text.toList ∧ value = ofDigits text.toList ∧ (ofDigits text.toList : Int) ≤ greatest := by
  obtain ⟨c, rest, shown, digit⟩ := numeral.head
  have signless : Binary64.sign text.toList = (false, text.toList) := by
    rw [shown]
    exact sign_digit digit rest
  have given : text.toList.isEmpty = false := by
    rw [shown]
    rfl
  have nonempty : text.toList ≠ [] := List.isEmpty_eq_false_iff.mp given
  have positive : least ≤ (ofDigits text.toList : Int) := Int.le_trans (by decide) (Int.natCast_nonneg _)
  have opened : ofText? text =
      if text.toList.all isDigit = true ∧ (ofDigits text.toList : Int) ≤ greatest
      then some (ofDigits text.toList : Int) else none := by
    unfold ofText?
    rw [signless]
    by_cases all : text.toList.all isDigit = true <;> simp [given, all, positive]
  rw [opened, Option.ite_none_right_eq_some, List.all_eq_true, Option.some.injEq]
  constructor
  · rintro ⟨⟨digits, small⟩, rfl⟩
    exact ⟨⟨nonempty, digits⟩, rfl, small⟩
  · rintro ⟨digits, rfl, small⟩
    exact ⟨⟨digits.2, small⟩, rfl⟩

end Signed64

theorem repr_digits (number : Nat) : AreDigits number.repr.toList ∧ ofDigits number.repr.toList = number := by
  rw [Nat.toList_repr]
  refine ⟨⟨Nat.toDigits_ne_nil, ?_⟩, Nat.ofDigitChars_toDigits (by decide) (by decide)⟩
  intro c member
  exact Nat.isDigit_of_mem_toDigits (by decide) (by decide) member

end Number

namespace Token

theorem IsRead.numeral {token : Token} (isRead : token.IsRead) (number : token.kind = .number) :
    IsNumeral token.value.toList := by
  obtain ⟨kind, value, span⟩ := token
  obtain ⟨text, pattern, cut, found, read⟩ := isRead
  obtain ⟨member, -⟩ := Pattern.front?_ok found
  have written := Pattern.read_written (Pattern.front?_takes found).1 member read
  cases number
  generalize cut.1 = taken at written
  cases written with
  | fixed alike => cases alike
  | number numeral =>
    show IsNumeral (String.ofList taken).toList
    rwa [String.toList_ofList]

end Token

end TypedScript
