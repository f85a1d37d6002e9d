import TypedScript.Proofs.Token.Respelling

namespace TypedScript

theorem Cursor.bytes_front (front rest : List Char) :
    bytes (String.ofList front).utf8ByteSize (front ++ rest) = (front, rest) := by
  induction front with
  | nil =>
    cases rest with
    | nil => rfl
    | cons c rest =>
      have wide : ¬c.utf8Size ≤ (String.ofList []).utf8ByteSize := Nat.not_le.mpr c.utf8Size_pos
      rw [List.nil_append, bytes, if_neg wide]
  | cons c front ih =>
    have size : (String.ofList (c :: front)).utf8ByteSize = c.utf8Size + (String.ofList front).utf8ByteSize := by
      rw [← List.singleton_append, String.ofList_append, String.utf8ByteSize_append, ← String.singleton_eq_ofList,
        String.utf8ByteSize_singleton]
    rw [size, List.cons_append, bytes, if_pos (Nat.le_add_right _ _), Nat.add_sub_cancel_left, ih]
    rfl

theorem Text.byteSize_le {front text : List Char} (within : front <+: text) :
    (String.ofList front).utf8ByteSize ≤ (String.ofList text).utf8ByteSize := by
  obtain ⟨more, rfl⟩ := within
  rw [String.ofList_append, String.utf8ByteSize_append]
  exact Nat.le_add_right _ _

namespace Pattern

def told : Pattern → Option Pattern
  | word => some word
  | number => some number
  | blank => some blank
  | _ => none

def toldBy (c : Char) : Option Pattern :=
  if isWordStart c then some word
  else if Number.isDigit c then some number
  else if Text.isBlank c then some blank
  else none

def stem : Pattern → List Char
  | word | number | blank => []
  | lineComment => ['/', '/']
  | blockComment | openComment => ['/', '*']
  | quoted quote | openQuote quote => [quote]
  | mark _ spelling => spelling.toList

def isBare : Pattern → Bool
  | openComment | openQuote _ | mark _ _ => true
  | _ => false

variable {pattern other : Pattern} {text : List Char} {cut found : Cut} {c : Char}

theorem Takes.stem_within (takes : pattern.Takes text) : pattern.stem <+: text := by
  cases pattern with
  | word | number | blank => exact List.nil_prefix
  | lineComment =>
    obtain ⟨body, rfl, -⟩ := takes
    exact List.prefix_append ['/', '/'] body
  | blockComment =>
    obtain ⟨body, rfl, -⟩ := takes
    exact List.prefix_append ['/', '*'] _
  | quoted quote =>
    obtain ⟨body, rfl, -⟩ := takes
    exact List.prefix_append [quote] _
  | openComment | openQuote _ | mark _ _ =>
    cases takes
    exact List.prefix_rfl

theorem Takes.eq_stem (takes : pattern.Takes text) (bare : pattern.isBare = true) : text = pattern.stem := by
  cases pattern with
  | openComment | openQuote _ | mark _ _ => exact takes
  | word | number | blank | lineComment | blockComment | quoted _ => cases bare

theorem toldBy_digit (digit : Number.isDigit c = true) : toldBy c = some number := by
  unfold toldBy
  rw [isWordStart_digit digit, if_neg Bool.false_ne_true, if_pos digit]

theorem toldBy_blank (empty : Text.isBlank c = true) : toldBy c = some blank := by
  have notWord : isWordStart c ≠ true := fun start =>
    Bool.noConfusion (empty.symm.trans (Text.not_isBlank (.inl start)))
  have notDigit : Number.isDigit c ≠ true := fun digit =>
    Bool.noConfusion (empty.symm.trans (Text.not_isBlank (.inr (.inl digit))))
  unfold toldBy
  rw [if_neg notWord, if_neg notDigit, if_pos empty]

theorem toldBy_stem (member : pattern ∈ all) (untold : pattern.told = none) (begins : pattern.stem <+: c :: text) :
    toldBy c = none := by
  have heads : (all.all fun pattern =>
      pattern.told.isSome || pattern.stem.head?.any fun c => (toldBy c).isNone) = true := by
    decide
  have head := List.all_eq_true.mp heads pattern member
  rw [untold] at head
  cases shown : pattern.stem with
  | nil =>
    rw [shown] at head
    cases head
  | cons d rest =>
    rw [shown] at head begins
    obtain ⟨rfl, -⟩ := List.cons_prefix_cons.mp begins
    exact Option.isNone_iff_eq_none.mp head

theorem Takes.toldBy_head (takes : pattern.Takes (c :: text)) (member : pattern ∈ all) :
    toldBy c = pattern.told := by
  have head := takes.head_begins
  cases pattern with
  | word => exact if_pos head
  | number => exact toldBy_digit head
  | blank => exact toldBy_blank head
  | lineComment | blockComment | openComment | quoted _ | openQuote _ | mark _ _ =>
    exact toldBy_stem member rfl takes.stem_within

theorem cut?_told (member : pattern ∈ all) (cuts : pattern.cut? text = some cut) :
    pattern.told = text.head?.bind toldBy := by
  obtain ⟨takes, whole⟩ := cut?_takes cuts
  cases shown : cut.1 with
  | nil => exact absurd shown (takes.ne_nil member)
  | cons c rest =>
    rw [shown] at takes whole
    rw [← whole]
    exact (takes.toldBy_head member).symm

-- Of two patterns that can begin alike, the later takes no more than what the earlier begins with.
theorem all_ordered : all.Pairwise fun early late =>
    early.told = late.told → (early.stem <+: late.stem ∨ late.stem <+: early.stem) →
      late.isBare = true ∧ late.stem <+: early.stem := by
  decide

theorem later_within {before after : List Pattern} (split : all = before ++ pattern :: after) (later : other ∈ after)
    (cuts : pattern.cut? text = some cut) (also : other.cut? text = some found) : found.1 <+: cut.1 := by
  have listed : pattern ∈ all := split ▸ List.mem_append_right before List.mem_cons_self
  have listedLater : other ∈ all := split ▸ List.mem_append_right before (List.mem_cons_of_mem pattern later)
  obtain ⟨takes, whole⟩ := cut?_takes cuts
  obtain ⟨takesLater, wholeLater⟩ := cut?_takes also
  have alike : pattern.told = other.told := (cut?_told listed cuts).trans (cut?_told listedLater also).symm
  have together : pattern.stem <+: other.stem ∨ other.stem <+: pattern.stem :=
    List.prefix_or_prefix_of_prefix (takes.stem_within.trans ⟨cut.2, whole⟩)
      (takesLater.stem_within.trans ⟨found.2, wholeLater⟩)
  have ordered := all_ordered
  rw [split, List.pairwise_append, List.pairwise_cons] at ordered
  obtain ⟨bare, begins⟩ := ordered.2.1.1 other later alike together
  rw [takesLater.eq_stem bare]
  exact begins.trans takes.stem_within

def IsFirst (text : List Char) (pattern : Pattern) (cut : Cut) : Prop :=
  ∃ before after, all = before ++ pattern :: after ∧ (∀ earlier ∈ before, earlier.cut? text = none) ∧
    pattern.cut? text = some cut

theorem IsFirst.within (first : IsFirst text pattern cut) (member : other ∈ all)
    (also : other.cut? text = some found) : found.1 <+: cut.1 := by
  obtain ⟨before, after, split, fails, cuts⟩ := first
  rw [split] at member
  rcases List.mem_append.mp member with early | late
  · cases also.symm.trans (fails other early)
  · rcases List.mem_cons.mp late with rfl | later
    · cases also.symm.trans cuts
      exact List.prefix_rfl
    · exact later_within split later cuts also

theorem IsFirst.front?_eq (first : IsFirst text pattern cut) : front? text = some (pattern, cut) := by
  obtain ⟨before, after, split, fails, cuts⟩ := first
  exact Pattern.front?_eq split fails cuts

theorem exists_isFirst (fits : ∃ pattern ∈ all, (pattern.cut? text).isSome) :
    ∃ pattern cut, IsFirst text pattern cut := by
  obtain ⟨pattern, member, matched⟩ := fits
  have some : (all.find? fun pattern => (pattern.cut? text).isSome).isSome :=
    List.find?_isSome.mpr ⟨pattern, member, matched⟩
  obtain ⟨first, found⟩ := Option.isSome_iff_exists.mp some
  obtain ⟨matched, before, after, split, fails⟩ := List.find?_eq_some_iff_append.mp found
  obtain ⟨cut, cuts⟩ := Option.isSome_iff_exists.mp matched
  refine ⟨first, cut, before, after, split, ?_, cuts⟩
  intro earlier early
  simpa using fails earlier early

-- The scanner takes the longest match: the first pattern that matches takes at least as many bytes as any other, at
-- least one, and no part of a character.
theorem first_match_longest (text : List Char) (fits : ∃ pattern ∈ all, (pattern.cut? text).isSome) :
    ∃ pattern cut, IsFirst text pattern cut ∧ front? text = some (pattern, cut) ∧
      (∀ other ∈ all, ∀ found, other.cut? text = some found →
        (String.ofList found.1).utf8ByteSize ≤ (String.ofList cut.1).utf8ByteSize) ∧
      0 < (String.ofList cut.1).utf8ByteSize ∧
      String.Pos.Raw.IsValid (String.ofList text) ⟨(String.ofList cut.1).utf8ByteSize⟩ ∧
      Cursor.bytes (String.ofList cut.1).utf8ByteSize text = cut := by
  obtain ⟨pattern, cut, first⟩ := exists_isFirst fits
  obtain ⟨-, whole, some⟩ := front?_takes first.front?_eq
  refine ⟨pattern, cut, first, first.front?_eq, ?_, ?_, ?_, ?_⟩
  · intro other member found also
    exact Text.byteSize_le (first.within member also)
  · apply Nat.pos_of_ne_zero
    intro empty
    exact some (String.ofList_eq_empty_iff.mp (String.utf8ByteSize_eq_zero_iff.mp empty))
  · apply String.Pos.Raw.isValid_iff_exists_append.mpr
    refine ⟨String.ofList cut.1, String.ofList cut.2, ?_, rfl⟩
    rw [← String.ofList_append, whole]
  · rw [← whole]
    exact Cursor.bytes_front cut.1 cut.2

theorem first_match_longest_openComment :
    ∃ cut, IsFirst ['/', '*', 'é'] openComment cut ∧ (mark .slash "/").cut? ['/', '*', 'é'] ≠ none ∧
      ∀ other ∈ all, ∀ found, other.cut? ['/', '*', 'é'] = some found →
        (String.ofList found.1).utf8ByteSize ≤ (String.ofList cut.1).utf8ByteSize := by
  obtain ⟨pattern, cut, first, found, longest, -⟩ :=
    first_match_longest ['/', '*', 'é'] ⟨openComment, by decide, by decide⟩
  have comment : front? ['/', '*', 'é'] = some (openComment, (['/', '*'], ['é'])) := by decide
  cases found.symm.trans comment
  exact ⟨_, first, by decide, longest⟩

end Pattern

end TypedScript
