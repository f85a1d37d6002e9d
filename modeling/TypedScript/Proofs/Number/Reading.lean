import TypedScript.Proofs.Number.Nearest

namespace TypedScript.Number

inductive Sign : List Char → Bool → Prop where
  | none : Sign [] false
  | plus : Sign ['+'] false
  | minus : Sign ['-'] true

inductive Power : List Char → Int → Prop where
  | none : Power [] 0
  | mk {mark : Char} {sign digits : List Char} {negative : Bool} (marked : mark = 'e' ∨ mark = 'E')
      (signed : Sign sign negative) (some : digits ≠ []) (each : ∀ c ∈ digits, c.isDigit = true) :
      Power (mark :: (sign ++ digits))
        (if negative then -(Nat.ofDigitChars 10 digits 0 : Int) else Nat.ofDigitChars 10 digits 0)

-- The decimals without a sign, and the numbers they stand for. A point may stand anywhere by the digits.
inductive Decimal : List Char → ℚ → Prop where
  | whole {digits power : List Char} {exponent : Int} (some : digits ≠ []) (each : ∀ c ∈ digits, c.isDigit = true)
      (raised : Power power exponent) : Decimal (digits ++ power) (Nat.ofDigitChars 10 digits 0 * 10 ^ exponent)
  | pointed {before after power : List Char} {exponent : Int} (some : before ++ after ≠ [])
      (each : ∀ c ∈ before ++ after, c.isDigit = true) (raised : Power power exponent) :
      Decimal (before ++ '.' :: (after ++ power))
        (Nat.ofDigitChars 10 (before ++ after) 0 * 10 ^ (exponent - after.length))

namespace Binary64

inductive Magnitude : List Char → Nat → Prop where
  | decimal {text : List Char} {number : ℚ} {bits : Nat} (stands : Decimal text number) (nearest : Nearest number bits) :
      Magnitude text bits
  | infinity {text : List Char}
      (word : text.map Char.toLower = "inf".toList ∨ text.map Char.toLower = "infinity".toList) :
      Magnitude text 0x7ff0000000000000
  | quiet {text : List Char} (word : text.map Char.toLower = "nan".toList) : Magnitude text 0x7ff8000000000000

-- A minus sets the first bit.
inductive Denotes : String → Binary64 → Prop where
  | mk {text : String} {sign rest : List Char} {negative : Bool} {bits : Nat} {value : Binary64}
      (signed : Sign sign negative) (split : text.toList = sign ++ rest) (unsigned : Magnitude rest bits)
      (stored : value.bits.toNat = (if negative then 0x8000000000000000 else 0) + bits) : Denotes text value

variable {text rest digits : List Char} {c : Char} {negative : Bool} {bits : Nat}

theorem digit_ne {other : Char} (digit : c.isDigit = true) (none : other.isDigit = false) : c ≠ other := by
  rintro rfl
  rw [digit] at none
  cases none

theorem sign_split (text : List Char) : ∃ mark, text = mark ++ (sign text).2 ∧ Sign mark (sign text).1 := by
  unfold sign
  split
  · exact ⟨_, rfl, .minus⟩
  · exact ⟨_, rfl, .plus⟩
  · exact ⟨[], rfl, .none⟩

theorem sign_of {mark : List Char} (signed : Sign mark negative) (plus : text.head? ≠ some '+')
    (minus : text.head? ≠ some '-') : sign (mark ++ text) = (negative, text) := by
  cases signed with
  | none =>
    show sign text = (false, text)
    unfold sign
    split
    · exact absurd rfl minus
    · exact absurd rfl plus
    · rfl
  | plus => rfl
  | minus => rfl

theorem exponent?_iff {exponent : Int} : exponent? text = some exponent ↔ Power text exponent := by
  constructor
  · intro found
    cases text with
    | nil =>
      cases found
      exact .none
    | cons mark rest =>
      obtain ⟨signed, split, sort⟩ := sign_split rest
      simp only [exponent?] at found
      generalize (sign rest).1 = negative at found sort
      generalize (sign rest).2 = digits at found split
      split at found
      · rename_i shown
        simp only [Bool.and_eq_true, Bool.or_eq_true, beq_iff_eq, Bool.not_eq_true', List.isEmpty_eq_false_iff,
          List.all_eq_true] at shown
        obtain ⟨⟨marked, some⟩, each⟩ := shown
        cases found
        rw [split]
        exact .mk marked sort some each
      · cases found
  · intro power
    cases power with
    | none => rfl
    | @mk mark signed digits negative marked sort some each =>
      obtain ⟨first, others, rfl⟩ := List.exists_cons_of_ne_nil some
      have digit := each first List.mem_cons_self
      have taken : sign (signed ++ first :: others) = (negative, first :: others) := by
        refine sign_of sort ?_ ?_
        · simpa using digit_ne digit rfl
        · simpa using digit_ne digit rfl
      have all : (first :: others).all isDigit = true := List.all_eq_true.mpr each
      have shown : (mark == 'e' || mark == 'E') = true := by simpa using marked
      simp only [exponent?, taken, shown, all, List.isEmpty_cons, Bool.not_false, Bool.and_self, if_true]
      rfl

theorem power_head {exponent : Int} (power : Power text exponent) :
    ∀ c ∈ text.head?, c.isDigit = false ∧ c ≠ '.' := by
  cases power with
  | none => exact nofun
  | mk marked =>
    rintro _ ⟨⟩
    rcases marked with rfl | rfl <;> decide

theorem span_digits (each : ∀ c ∈ digits, isDigit c = true) (stops : ∀ c ∈ rest.head?, isDigit c = false) :
    (digits ++ rest).takeWhile isDigit = digits ∧ (digits ++ rest).dropWhile isDigit = rest := by
  rw [List.takeWhile_append_of_pos each, List.dropWhile_append_of_pos each]
  cases rest with
  | nil => simp
  | cons c rest => simp [stops c rfl]

theorem digits_split (text : List Char) : ∃ digits rest, text = digits ++ rest ∧
    (∀ c ∈ digits, isDigit c = true) ∧ ∀ c ∈ rest.head?, isDigit c = false := by
  induction text with
  | nil => exact ⟨[], [], rfl, nofun, nofun⟩
  | cons c text ih =>
    cases digit : isDigit c with
    | true =>
      obtain ⟨digits, rest, rfl, each, stops⟩ := ih
      exact ⟨c :: digits, rest, rfl, List.forall_mem_cons.mpr ⟨digit, each⟩, stops⟩
    | false =>
      refine ⟨[], c :: text, rfl, nofun, ?_⟩
      rintro _ ⟨⟩
      exact digit

section Parts

variable {before after power : List Char}

theorem magnitude?_whole (each : ∀ c ∈ digits, isDigit c = true)
    (stops : ∀ c ∈ power.head?, isDigit c = false ∧ c ≠ '.') :
    magnitude? (digits ++ power) =
      if digits = [] then none else (exponent? power).map (decimalBits (ofDigits digits)) := by
  obtain ⟨taken, left⟩ := span_digits each fun c head => (stops c head).1
  have unpointed : fraction power = ([], power) := by
    unfold fraction
    split
    · exact absurd rfl (stops _ rfl).2
    · rfl
  simp [magnitude?, taken, left, unpointed]

theorem magnitude?_pointed (each : ∀ c ∈ before ++ after, isDigit c = true)
    (stops : ∀ c ∈ power.head?, isDigit c = false) :
    magnitude? (before ++ '.' :: (after ++ power)) = if before ++ after = [] then none else
      (exponent? power).map fun exponent => decimalBits (ofDigits (before ++ after)) (exponent - after.length) := by
  obtain ⟨front, back⟩ := List.forall_mem_append.mp each
  obtain ⟨taken, left⟩ := span_digits front (show ∀ c ∈ ('.' :: (after ++ power)).head?, isDigit c = false by
    rintro _ ⟨⟩
    rfl)
  obtain ⟨part, rest⟩ := span_digits back stops
  simp [magnitude?, taken, left, fraction, part, rest]

theorem magnitude?_iff : magnitude? text = some bits ↔ ∃ number, Decimal text number ∧ Nearest number bits := by
  constructor
  · intro found
    obtain ⟨before, left, rfl, front, stops⟩ := digits_split text
    by_cases point : left.head? = some '.'
    · obtain ⟨rest, rfl⟩ := List.head?_eq_some_iff.mp point
      obtain ⟨after, power, rfl, back, ends⟩ := digits_split rest
      have each := List.forall_mem_append.mpr ⟨front, back⟩
      rw [magnitude?_pointed each ends, Option.ite_none_left_eq_some] at found
      obtain ⟨given, found⟩ := found
      obtain ⟨exponent, raised, rfl⟩ := Option.map_eq_some_iff.mp found
      exact ⟨_, .pointed given each (exponent?_iff.mp raised), decimalBits_nearest _ _⟩
    · have ends : ∀ c ∈ left.head?, isDigit c = false ∧ c ≠ '.' := by
        intro c head
        exact ⟨stops c head, fun same => point (same ▸ head)⟩
      rw [magnitude?_whole front ends, Option.ite_none_left_eq_some] at found
      obtain ⟨given, found⟩ := found
      obtain ⟨exponent, raised, rfl⟩ := Option.map_eq_some_iff.mp found
      exact ⟨_, .whole given front (exponent?_iff.mp raised), decimalBits_nearest _ _⟩
  · rintro ⟨number, decimal, nearest⟩
    cases decimal with
    | @whole digits power exponent some each raised =>
      rw [magnitude?_whole each (power_head raised), if_neg some, exponent?_iff.mpr raised, Option.map_some]
      exact congrArg _ ((decimalBits_nearest _ _).unique nearest)
    | @pointed before after power exponent some each raised =>
      rw [magnitude?_pointed each fun c head => (power_head raised c head).1, if_neg some, exponent?_iff.mpr raised,
        Option.map_some]
      exact congrArg _ ((decimalBits_nearest _ _).unique nearest)

end Parts

theorem decimal_head {number : ℚ} (decimal : Decimal text number) :
    ∃ c rest, text = c :: rest ∧ (c.isDigit = true ∨ c = '.') := by
  cases decimal with
  | whole some each =>
    obtain ⟨c, rest, rfl⟩ := List.exists_cons_of_ne_nil some
    exact ⟨c, _, rfl, .inl (each c List.mem_cons_self)⟩
  | @pointed before _ _ _ _ each =>
    cases before with
    | nil => exact ⟨'.', _, rfl, .inr rfl⟩
    | cons c rest => exact ⟨c, _, rfl, .inl (each c List.mem_cons_self)⟩

theorem toLower_digit (digit : c.isDigit = true) : c.toLower = c := by
  unfold Char.toLower
  rw [dif_neg]
  intro upper
  simp only [Char.isDigit, Bool.and_eq_true, decide_eq_true_eq] at digit
  exact absurd (UInt32.le_trans upper.1 digit.2) (by decide)

-- No decimal is a word: what it starts with is no letter in either case.
theorem decimal_word {number : ℚ} (decimal : Decimal text number) {letter : Char} {word : List Char}
    (some : letter.isDigit = false ∧ letter ≠ '.') : text.map Char.toLower ≠ letter :: word := by
  obtain ⟨c, rest, rfl, first⟩ := decimal_head decimal
  intro same
  have lower : c.toLower = letter := (List.cons.inj same).1
  rcases first with digit | rfl
  · rw [toLower_digit digit] at lower
    exact digit_ne digit some.1 lower
  · exact some.2 lower.symm

theorem unsigned?_iff : unsigned? text = some bits ↔ Magnitude text bits := by
  have infinite : infinityBits = 0x7ff0000000000000 := by decide
  have silent : quietBits = 0x7ff8000000000000 := by decide
  unfold unsigned?
  simp only [infinite, silent]
  constructor
  · intro found
    split at found
    · rename_i word
      cases found
      exact .infinity word
    split at found
    · rename_i word
      cases found
      exact .quiet word
    · obtain ⟨number, decimal, nearest⟩ := magnitude?_iff.mp found
      exact .decimal decimal nearest
  · intro magnitude
    cases magnitude with
    | decimal decimal nearest =>
      rw [if_neg, if_neg]
      · exact magnitude?_iff.mpr ⟨_, decimal, nearest⟩
      · exact decimal_word decimal (by decide)
      · rintro (word | word)
        · exact decimal_word decimal (by decide) word
        · exact decimal_word decimal (by decide) word
    | infinity word => rw [if_pos word]
    | quiet word =>
      rw [if_neg, if_pos word]
      rw [word]
      decide

theorem magnitude_range (magnitude : Magnitude text bits) : bits < 0x8000000000000000 := by
  cases magnitude with
  | decimal _ nearest =>
    have range := nearest.range
    omega
  | infinity => decide
  | quiet => decide

theorem magnitude_head (magnitude : Magnitude text bits) : text.head? ≠ some '+' ∧ text.head? ≠ some '-' := by
  have lowered {letter : Char} {word : List Char} (same : text.map Char.toLower = letter :: word)
      (other : letter ≠ '+' ∧ letter ≠ '-') : text.head? ≠ some '+' ∧ text.head? ≠ some '-' := by
    cases text with
    | nil => cases same
    | cons c rest =>
      cases same
      constructor
      · rintro ⟨⟩
        exact other.1 rfl
      · rintro ⟨⟩
        exact other.2 rfl
  cases magnitude with
  | decimal decimal _ =>
    obtain ⟨c, rest, rfl, first⟩ := decimal_head decimal
    rcases first with digit | rfl
    · simpa using ⟨digit_ne digit rfl, digit_ne digit rfl⟩
    · exact ⟨nofun, nofun⟩
  | infinity word => exact word.elim (lowered · (by decide)) (lowered · (by decide))
  | quiet word => exact lowered word (by decide)

theorem bits_eq {value : Binary64} (range : bits < 0x8000000000000000) :
    ⟨UInt64.ofNat (if negative then 1 <<< 63 + bits else bits)⟩ = value ↔
      value.bits.toNat = (if negative then 0x8000000000000000 else 0) + bits := by
  have whole : (if negative then 1 <<< 63 + bits else bits) = (if negative then 0x8000000000000000 else 0) + bits := by
    cases negative with
    | true => rfl
    | false => exact (Nat.zero_add bits).symm
  have fits : (if negative then 0x8000000000000000 else 0) + bits < UInt64.size := by
    rw [show UInt64.size = 0x10000000000000000 from rfl]
    cases negative with
    | true => simp only [if_true]; omega
    | false => simp only [Bool.false_eq_true, if_false]; omega
  rw [whole]
  constructor
  · rintro rfl
    exact UInt64.toNat_ofNat_of_lt fits
  · intro stored
    rw [← stored, UInt64.ofNat_toNat]

theorem ofText?_iff {text : String} {value : Binary64} : ofText? text = some value ↔ Denotes text value := by
  constructor
  · intro found
    obtain ⟨mark, split, signed⟩ := sign_split text.toList
    obtain ⟨bits, read, stored⟩ := Option.map_eq_some_iff.mp found
    have magnitude := unsigned?_iff.mp read
    exact .mk signed split magnitude ((bits_eq (magnitude_range magnitude)).mp stored)
  · rintro ⟨signed, split, magnitude, stored⟩
    obtain ⟨plus, minus⟩ := magnitude_head magnitude
    unfold ofText?
    rw [split, sign_of signed plus minus]
    simp only [unsigned?_iff.mpr magnitude, Option.map_some]
    exact congrArg some ((bits_eq (magnitude_range magnitude)).mpr stored)

theorem decimal_nearest {number : ℚ} (decimal : Decimal text number) : ∃ bits, Nearest number bits := by
  cases decimal with
  | whole => exact ⟨_, decimalBits_nearest _ _⟩
  | pointed => exact ⟨_, decimalBits_nearest _ _⟩

theorem decimal_denotes {text : String} {number : ℚ} (decimal : Decimal text.toList number) :
    ∃ value, Denotes text value := by
  obtain ⟨bits, nearest⟩ := decimal_nearest decimal
  have magnitude := Magnitude.decimal decimal nearest
  exact ⟨_, .mk .none rfl magnitude ((bits_eq (magnitude_range magnitude)).mp rfl)⟩

end Binary64

end TypedScript.Number
