import Mathlib.Data.List.Basic
import TypedScript.Proofs.Catalog.Grounding

namespace TypedScript

-- Texts whose square brackets match. Read from the right, no opening bracket comes before its closing one.
structure Matched (text : List Char) : Prop where
  closed : text.count '[' = text.count ']'
  inner : ∀ n, (text.drop n).count '[' ≤ (text.drop n).count ']'

namespace Matched

variable {text left right before after : List Char}

theorem of_free (opening : '[' ∉ text) (closing : ']' ∉ text) : Matched text := by
  constructor
  · rw [List.count_eq_zero.mpr opening, List.count_eq_zero.mpr closing]
  · intro n
    rw [List.count_eq_zero.mpr fun member => opening (List.mem_of_mem_drop member)]
    exact Nat.zero_le _

theorem append (first : Matched left) (second : Matched right) : Matched (left ++ right) := by
  constructor
  · simp only [List.count_append, first.closed, second.closed]
  · intro n
    simp only [List.drop_append, List.count_append]
    exact Nat.add_le_add (first.inner n) (second.inner _)

theorem bracket (inside : Matched text) : Matched ('[' :: text ++ [']']) := by
  have closed := inside.closed
  constructor
  · simp [closed]
  · intro n
    cases n with
    | zero => simp [closed]
    | succ n =>
      have last : ([']'].drop (n - text.length)).count '[' ≤ ([']'].drop (n - text.length)).count ']' := by
        cases n - text.length <;> simp
      simp only [List.cons_append, List.drop_succ_cons, List.drop_append, List.count_append]
      exact Nat.add_le_add (inside.inner n) last

theorem suffix (matched : Matched text) (ends : right <:+ text) : right.count '[' ≤ right.count ']' := by
  rw [List.suffix_iff_eq_drop.mp ends]
  exact matched.inner _

theorem cut_le (first : Matched right) (second : Matched after) (same : left ++ '[' :: right = before ++ '[' :: after)
    (shorter : right.length ≤ after.length) : left = before ∧ right = after := by
  have longest : ('[' :: right) <:+ ('[' :: after) :=
    List.suffix_of_suffix_length_le (List.suffix_append left _) (same ▸ List.suffix_append before _) (by simp [shorter])
  rcases List.suffix_cons_iff.mp longest with whole | inside
  · cases whole
    exact ⟨List.append_cancel_right same, rfl⟩
  · have bound := second.suffix inside
    have closed := first.closed
    simp at bound
    omega

theorem cut (first : Matched right) (second : Matched after) (same : left ++ '[' :: right = before ++ '[' :: after) :
    left = before ∧ right = after := by
  rcases Nat.le_total right.length after.length with shorter | longer
  · exact first.cut_le second same shorter
  · obtain ⟨here, there⟩ := second.cut_le first same.symm longer
    exact ⟨here.symm, there.symm⟩

end Matched

namespace Ty

variable {type other : Ty}

theorem path_ne_nil (plain : type.Over Plain) : type.path.toList ≠ [] := by
  cases type with
  | named name => exact (over_named.mp plain).1
  | array element => simp [path]
  | map key value => simp [path]

theorem path_free (plain : type.Over Plain) : ∀ c ∈ type.path.toList, c ≠ '(' ∧ c ≠ ')' ∧ c ≠ ',' := by
  have bracket : ∀ c, c = '[' ∨ c = ']' → c ≠ '(' ∧ c ≠ ')' ∧ c ≠ ',' := by
    rintro c (rfl | rfl)
    · decide
    · decide
  induction type with
  | named name =>
    intro c member
    have unmarked := (over_named.mp plain).2 c member
    simp only [Catalog.isPathMark, Bool.or_eq_false_iff, beq_eq_false_iff_ne] at unmarked
    exact ⟨unmarked.1.1.2, unmarked.1.2, unmarked.2⟩
  | array element ih =>
    intro c member
    simp only [path, String.toList_append, List.mem_append] at member
    rcases member with inside | outside
    · exact ih (over_array.mp plain) c inside
    · exact bracket c (by simpa using outside)
  | map key value first second =>
    obtain ⟨left, right⟩ := over_map.mp plain
    intro c member
    simp only [path, String.toList_append, List.mem_append] at member
    rcases member with ((inside | opener) | inside) | closer
    · exact second right c inside
    · exact bracket c (.inl (by simpa using opener))
    · exact first left c inside
    · exact bracket c (.inr (by simpa using closer))

theorem path_matched (plain : type.Over Plain) : Matched type.path.toList := by
  induction type with
  | named name =>
    have unmarked := (over_named.mp plain).2
    refine .of_free ?_ ?_
    · intro member
      cases unmarked '[' member
    · intro member
      cases unmarked ']' member
  | array element ih =>
    have empty : Matched ['[', ']'] := Matched.bracket (@Matched.of_free [] nofun nofun)
    simpa [path] using (ih (over_array.mp plain)).append empty
  | map key value first second =>
    obtain ⟨left, right⟩ := over_map.mp plain
    simpa [path] using (second right).append (first left).bracket

theorem path_not_open (plain : type.Over Plain) {before : List Char} : type.path.toList ≠ before ++ ['['] := by
  intro same
  have bound := (path_matched plain).suffix (same ▸ List.suffix_append before ['['])
  simp at bound

-- An array is no map: between the brackets of a map stands its key, whose path is not empty.
theorem array_ne_map {element key value : Ty} (plain : key.Over Plain) :
    (array element).path.toList ≠ (map key value).path.toList := by
  intro same
  have inside : element.path.toList ++ ['['] = value.path.toList ++ '[' :: key.path.toList := by
    refine List.append_cancel_right (?_ : _ ++ [']'] = _ ++ [']'])
    simpa [path] using same
  rcases List.eq_nil_or_concat key.path.toList with empty | ⟨front, c, shown⟩
  · exact path_ne_nil plain empty
  · rw [shown, List.concat_eq_append, ← List.cons_append, ← List.append_assoc] at inside
    have last : '[' = c := by simpa using (List.append_inj_right' inside rfl)
    apply path_not_open plain
    rw [shown, List.concat_eq_append, last]

theorem path_inj (left : type.Over Plain) (right : other.Over Plain) (same : type.path = other.path) :
    type = other := by
  induction type generalizing other with
  | named name =>
    have plain : Plain other.path := same ▸ over_named.mp left
    rw [named_of_plain plain, ← same]
    rfl
  | array element ih =>
    cases other with
    | named name =>
      have plain : Plain (array element).path := same ▸ over_named.mp right
      cases named_of_plain plain
    | array second =>
      have inside : element.path = second.path := by simpa [path] using same
      rw [ih (over_array.mp left) (over_array.mp right) inside]
    | map key value =>
      have keyed := (over_map.mp right).1
      exact (array_ne_map keyed (congrArg String.toList same)).elim
  | map key value first second =>
    obtain ⟨keyed, valued⟩ := over_map.mp left
    cases other with
    | named name =>
      have plain : Plain (map key value).path := same ▸ over_named.mp right
      cases named_of_plain plain
    | array element => exact (array_ne_map keyed (congrArg String.toList same.symm)).elim
    | map index item =>
      obtain ⟨indexed, holds⟩ := over_map.mp right
      have inside : value.path.toList ++ '[' :: key.path.toList = item.path.toList ++ '[' :: index.path.toList := by
        refine List.append_cancel_right (?_ : _ ++ [']'] = _ ++ [']'])
        simpa [path] using congrArg String.toList same
      obtain ⟨values, keys⟩ := (path_matched keyed).cut (path_matched indexed) inside
      rw [first keyed indexed (String.toList_inj.mp keys), second valued holds (String.toList_inj.mp values)]

theorem paths_inj {left right : List Ty} (first : ∀ type ∈ left, type.Over Plain)
    (second : ∀ type ∈ right, type.Over Plain)
    (same : left.map (fun type => type.path.toList) = right.map fun type => type.path.toList) : left = right := by
  induction left generalizing right with
  | nil => exact (List.map_eq_nil_iff.mp same.symm).symm
  | cons type rest ih =>
    cases right with
    | nil => cases same
    | cons other others =>
      obtain ⟨head, tail⟩ := List.cons.inj same
      obtain ⟨plain, later⟩ := List.forall_mem_cons.mp first
      obtain ⟨also, after⟩ := List.forall_mem_cons.mp second
      rw [path_inj plain also (String.toList_inj.mp head), ih later after tail]

end Ty

namespace Signature

variable {signature other : Signature}

def Over (leaf : String → Prop) (signature : Signature) : Prop := ∀ type ∈ signature.types, type.Over leaf

def joined (types : List Ty) : List Char := [','].intercalate (types.map fun type => type.path.toList)

theorem path_toList (signature : Signature) :
    signature.path.toList = signature.returns.path.toList ++ '(' :: (joined signature.parameters ++ [')']) := by
  have parts : String.toList ∘ Ty.path = fun type => type.path.toList := rfl
  simp [path, joined, String.toList_intercalate, parts]

theorem joined_cons (first second : Ty) (rest : List Ty) :
    joined (first :: second :: rest) = first.path.toList ++ ',' :: joined (second :: rest) := by
  simp [joined]

theorem mem_joined {types : List Ty} {c : Char} (member : c ∈ joined types) :
    c = ',' ∨ ∃ type ∈ types, c ∈ type.path.toList := by
  induction types with
  | nil => cases member
  | cons first rest ih =>
    cases rest with
    | nil => exact .inr ⟨first, by simp, by simpa [joined] using member⟩
    | cons second rest =>
      rw [joined_cons] at member
      rcases List.mem_append.mp member with here | there
      · exact .inr ⟨first, by simp, here⟩
      · rcases List.mem_cons.mp there with comma | later
        · exact .inl comma
        · rcases ih later with comma | ⟨type, found, inside⟩
          · exact .inl comma
          · exact .inr ⟨type, List.mem_cons_of_mem first found, inside⟩

theorem joined_ne_nil {types : List Ty} (plain : ∀ type ∈ types, type.Over Plain) (some : types ≠ []) :
    joined types ≠ [] := by
  cases types with
  | nil => exact (some rfl).elim
  | cons first rest =>
    have shown := Ty.path_ne_nil (plain first List.mem_cons_self)
    cases rest with
    | nil => simpa [joined] using shown
    | cons second rest => simp [joined_cons]

-- A comma stands between two types and nowhere else, so the list is found again by splitting.
theorem split_joined {types : List Ty} (plain : ∀ type ∈ types, type.Over Plain) (some : types ≠ []) :
    (joined types).splitOn ',' = types.map fun type => type.path.toList := by
  apply List.splitOn_intercalate
  · intro text member
    obtain ⟨type, found, rfl⟩ := List.mem_map.mp member
    intro comma
    exact (Ty.path_free (plain type found) ',' comma).2.2 rfl
  · simpa using some

theorem joined_inj {left right : List Ty} (first : ∀ type ∈ left, type.Over Plain)
    (second : ∀ type ∈ right, type.Over Plain) (same : joined left = joined right) : left = right := by
  by_cases none : left = []
  · subst none
    by_contra some
    exact joined_ne_nil second (Ne.symm some) same.symm
  · have some : right ≠ [] := by
      rintro rfl
      exact joined_ne_nil first none same
    apply Ty.paths_inj first second
    rw [← split_joined first none, ← split_joined second some, same]

theorem path_inj (left : signature.Over Plain) (right : other.Over Plain) (same : signature.path = other.path) :
    signature = other := by
  have whole := congrArg String.toList same
  rw [path_toList, path_toList] at whole
  have before : '(' ∉ signature.returns.path.toList := by
    intro member
    exact (Ty.path_free (left _ List.mem_cons_self) '(' member).1 rfl
  have after : '(' ∉ joined signature.parameters ++ [')'] := by
    intro member
    rcases List.mem_append.mp member with inside | last
    · rcases mem_joined inside with comma | ⟨type, found, shown⟩
      · cases comma
      · exact (Ty.path_free (left type (List.mem_cons_of_mem _ found)) '(' shown).1 rfl
    · simp at last
  obtain ⟨returns, -, parameters⟩ := (List.append_cons_inj_of_notMem before after).mp whole
  have results : signature.returns = other.returns :=
    Ty.path_inj (left _ List.mem_cons_self) (right _ List.mem_cons_self) (String.toList_inj.mp returns)
  have takes : signature.parameters = other.parameters :=
    joined_inj (fun type found => left type (List.mem_cons_of_mem _ found))
      (fun type found => right type (List.mem_cons_of_mem _ found)) (List.append_cancel_right parameters)
  cases signature
  cases other
  cases results
  cases takes
  rfl

theorem path_ne (signature : Signature) {type : Ty} (plain : type.Over Plain) : signature.path ≠ type.path := by
  intro same
  have mark : '(' ∈ type.path.toList := by simp [← same, Signature.path]
  exact (Ty.path_free plain '(' mark).1 rfl

end Signature

def Catalog.ValidName (name : String) : Prop := ∃ place, requireValid name place = .ok ()

theorem Catalog.validName_iff {name : String} : ValidName name ↔ isValidName name = true := by
  unfold ValidName requireValid
  constructor
  · rintro ⟨place, passes⟩
    split at passes
    · assumption
    · cases passes
  · intro tested
    exact ⟨.first "", if_pos tested⟩

instance : DecidablePred Catalog.ValidName := fun _ => decidable_of_iff _ Catalog.validName_iff.symm

theorem Catalog.ValidName.plain {name : String} (valid : ValidName name) : Plain name := by
  have tested := validName_iff.mp valid
  simp only [isValidName, Bool.and_eq_true, Bool.not_eq_true', List.all_eq_true] at tested
  exact ⟨by simpa using tested.1, fun c member => (tested.2 c member).2⟩

-- Paths tell apart all types and all signatures over valid names, and a signature from a type.
theorem paths_identify {left right : Ty} {first second : Signature} (leftValid : left.Over Catalog.ValidName)
    (rightValid : right.Over Catalog.ValidName) (firstValid : first.Over Catalog.ValidName)
    (secondValid : second.Over Catalog.ValidName) :
    (left.path = right.path ↔ left = right) ∧
      (first.path = second.path ↔ first.returns = second.returns ∧ first.parameters = second.parameters) ∧
      ∀ signature : Signature, signature.path ≠ left.path := by
  have plain {type : Ty} (valid : type.Over Catalog.ValidName) : type.Over Plain :=
    valid.mono fun _ passes => passes.plain
  have plainly {signature : Signature} (valid : signature.Over Catalog.ValidName) : signature.Over Plain :=
    fun type member => plain (valid type member)
  refine ⟨⟨Ty.path_inj (plain leftValid) (plain rightValid), congrArg Ty.path⟩, ⟨?_, ?_⟩, ?_⟩
  · intro same
    rw [Signature.path_inj (plainly firstValid) (plainly secondValid) same]
    exact ⟨rfl, rfl⟩
  · rintro ⟨returns, parameters⟩
    unfold Signature.path
    rw [returns, parameters]
  · exact fun signature => signature.path_ne (plain leftValid)

theorem paths_identify_nested :
    (Ty.map (.named "P") (.array (.named "P"))).Over Catalog.ValidName ∧
      (Ty.array (.map (.named "P") (.named "P"))).Over Catalog.ValidName ∧
      Signature.Over Catalog.ValidName ⟨.named "P", [.array (.named "P"), .named "P"]⟩ ∧
      Signature.Over Catalog.ValidName ⟨.array (.named "P"), [.named "P", .named "P"]⟩ ∧
      (Ty.map (.named "P") (.array (.named "P"))).path ≠ (Ty.array (.map (.named "P") (.named "P"))).path ∧
      Signature.path ⟨.named "P", [.array (.named "P"), .named "P"]⟩ ≠
        Signature.path ⟨.array (.named "P"), [.named "P", .named "P"]⟩ ∧
      ∀ signature : Signature, signature.path ≠ (Ty.map (.named "P") (.array (.named "P"))).path := by
  have left : (Ty.map (.named "P") (.array (.named "P"))).Over Catalog.ValidName := by decide
  have right : (Ty.array (.map (.named "P") (.named "P"))).Over Catalog.ValidName := by decide
  have first : Signature.Over Catalog.ValidName ⟨.named "P", [.array (.named "P"), .named "P"]⟩ := by
    unfold Signature.Over
    decide
  have second : Signature.Over Catalog.ValidName ⟨.array (.named "P"), [.named "P", .named "P"]⟩ := by
    unfold Signature.Over
    decide
  obtain ⟨types, signatures, apart⟩ := paths_identify left right first second
  refine ⟨left, right, first, second, ?_, ?_, apart⟩
  · intro same
    cases types.mp same
  · intro same
    cases (signatures.mp same).1

end TypedScript
