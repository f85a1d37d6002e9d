import TypedScript.Diagnostic.Error
import TypedScript.Proofs.Source.Lines
import TypedScript.Proofs.Token.Numerals

namespace TypedScript

namespace Error

-- An error that is reported at a character of a line of a source, where the character is no blank.
structure Reports (error : Error) (source : String) (row : List Char) (c : Char) : Prop where
  counted : 1 ≤ error.position.line
  found : (source.toList.splitOn '\n')[error.position.line - 1]? = some row
  reached : 1 ≤ error.position.column
  here : row[error.position.column - 1]? = some c
  solid : Text.isBlank c = false

def BarAt (text : List Char) (index : Nat) : Prop :=
  ∃ before after, text = before ++ '|' :: after ∧ '|' ∉ before ∧ before.length = index

-- A rendering that ends in a bar, a numbered line and a caret, where the caret stands under a character of the
-- numbered line and the bars of the three lines stand under one another.
def PointsAt (output : List Char) (c : Char) : Prop :=
  ∃ above bar shown caret index, output.splitOn '\n' = above ++ [bar, shown, caret, []] ∧
    caret.getLast? = some '^' ∧ shown[caret.length - 1]? = some c ∧
    BarAt bar index ∧ BarAt shown index ∧ BarAt caret index

variable {error : Error} {place : Position} {source : String} {text row : List Char} {c : Char}

theorem ne_of_solid {d : Char} (solid : Text.isBlank c = false) (empty : Text.isBlank d = true) : (c == d) = false := by
  apply beq_eq_false_iff_ne.mpr
  rintro rfl
  cases solid.symm.trans empty

theorem isIndent_of_solid (solid : Text.isBlank c = false) : isIndent c = false := by
  rw [isIndent, ne_of_solid solid (by decide), ne_of_solid solid (by decide)]
  rfl

theorem not_mem_number {d : Char} (other : Number.isDigit d = false) (place : Position) :
    d ∉ (toString place.line).toList := by
  intro member
  cases other.symm.trans ((Number.repr_digits place.line).1.2 d member)

theorem margin_eq (place : Position) :
    margin place = List.replicate ((toString place.line).toList.length + 1) ' ' ++ ['|'] := rfl

theorem margin_length (place : Position) : (margin place).length = (toString place.line).toList.length + 2 := by
  simp [margin_eq]

theorem margin_barAt (place : Position) (rest : List Char) :
    BarAt (margin place ++ rest) ((toString place.line).toList.length + 1) := by
  refine ⟨List.replicate ((toString place.line).toList.length + 1) ' ', rest, ?_, ?_, List.length_replicate⟩
  · simp [margin_eq]
  · intro bar
    cases List.eq_of_mem_replicate bar

theorem excerpt_barAt (place : Position) (text : List Char) :
    BarAt (excerpt place text) ((toString place.line).toList.length + 1) := by
  refine ⟨(toString place.line).toList ++ [' '], ' ' :: Source.trimEnd Text.isBlank (text.dropWhile isIndent), ?_, ?_,
    ?_⟩
  · simp [excerpt]
  · intro bar
    rcases List.mem_append.mp bar with digit | space
    · exact not_mem_number (by decide) place digit
    · cases List.mem_singleton.mp space
  · simp

theorem padded_length {fill : Char} {width : Nat} {shown : List Char} (fits : shown.length ≤ width) :
    (padded fill width shown).length = width := by
  simp only [padded, List.length_append, List.length_replicate]
  omega

theorem pointer?_isSome : (pointer? place text).isSome ↔ caretWidth place text ≤ widestField := by
  unfold pointer?
  split <;> simp_all

theorem pointer?_ok {caret : List Char} (set : pointer? place text = some caret) :
    caret = margin place ++ ' ' :: padded '-' (caretWidth place text) ['^'] := by
  unfold pointer? at set
  split at set
  · exact (Option.some.inj set).symm
  · cases set

theorem pointer?_length {caret : List Char} (set : pointer? place text = some caret) :
    caret.length = (toString place.line).toList.length + 3 + caretWidth place text := by
  have filled : (padded '-' (caretWidth place text) ['^']).length = caretWidth place text :=
    padded_length (Nat.le_max_right _ 1)
  rw [pointer?_ok set, List.length_append, List.length_cons, filled, margin_length]
  omega

theorem pointer?_last {caret : List Char} (set : pointer? place text = some caret) : caret.getLast? = some '^' := by
  rw [pointer?_ok set, padded, ← List.cons_append, ← List.append_assoc]
  exact List.getLast?_concat

theorem excerpt_getElem? {i : Nat} (here : text[i]? = some c) (solid : Text.isBlank c = false) :
    (excerpt place text)[(toString place.line).toList.length + 3 + (i - (text.takeWhile isIndent).length)]? =
      some c := by
  obtain ⟨-, moved⟩ := Source.dropWhile_getElem? here (isIndent_of_solid solid)
  have kept := Source.trimEnd_getElem? moved solid
  have front : ((toString place.line).toList ++ " | ".toList).length = (toString place.line).toList.length + 3 :=
    List.length_append
  rw [excerpt, List.getElem?_append_right (by rw [front]; omega), front, Nat.add_sub_cancel_left]
  exact kept

theorem feed_not_mem_margin (place : Position) : '\n' ∉ margin place := by
  rw [margin_eq]
  intro feed
  rcases List.mem_append.mp feed with space | bar
  · cases List.eq_of_mem_replicate space
  · cases List.mem_singleton.mp bar

theorem feed_not_mem_excerpt (level : '\n' ∉ text) : '\n' ∉ excerpt place text := by
  intro feed
  rcases List.mem_append.mp feed with number | rest
  · rcases List.mem_append.mp number with digit | bar
    · exact not_mem_number (by decide) place digit
    · exact absurd bar (by decide)
  · have inside := (Source.trimEnd_prefix Text.isBlank _).subset rest
    exact level ((List.dropWhile_suffix isIndent).subset inside)

theorem feed_not_mem_pointer {caret : List Char} (set : pointer? place text = some caret) : '\n' ∉ caret := by
  rw [pointer?_ok set]
  intro feed
  rcases List.mem_append.mp feed with margin | field
  · exact feed_not_mem_margin place margin
  · rcases List.mem_cons.mp field with space | field
    · cases space
    · rcases List.mem_append.mp field with dash | caret
      · cases List.eq_of_mem_replicate dash
      · cases List.mem_singleton.mp caret

theorem render?_lines {output : String} (level : '\n' ∉ text)
    (found : Source.line? source.toList error.position.line = some text) (shown : error.render? source = some output) :
    ∃ above caret, pointer? error.position text = some caret ∧
      output.toList.splitOn '\n' = above ++ [margin error.position, excerpt error.position text, caret, []] := by
  obtain ⟨lines, listed, rfl⟩ := Option.map_eq_some_iff.mp shown
  simp only [renderLines?, found] at listed
  obtain ⟨caret, set, rfl⟩ := Option.map_eq_some_iff.mp listed
  refine ⟨(headline error.cause ++ '\n' :: ("-> ".toList ++ error.position.file.toList)).splitOn '\n', caret, set,
    ?_⟩
  have laid : ([headline error.cause, "-> ".toList ++ error.position.file.toList, margin error.position] ++
      [excerpt error.position text, caret]).flatMap (· ++ ['\n']) =
      (headline error.cause ++ '\n' :: ("-> ".toList ++ error.position.file.toList)) ++ '\n' ::
        (margin error.position ++ '\n' :: (excerpt error.position text ++ '\n' :: (caret ++ '\n' :: []))) := by
    simp
  rw [String.toList_ofList, laid, List.splitOn_append_cons_self,
    List.splitOn_append_cons_self_of_not_mem (feed_not_mem_margin _),
    List.splitOn_append_cons_self_of_not_mem (feed_not_mem_excerpt level),
    List.splitOn_append_cons_self_of_not_mem (feed_not_mem_pointer set), List.splitOn_nil]

theorem render?_isSome (found : Source.line? source.toList error.position.line = some text) :
    (error.render? source).isSome ↔ caretWidth error.position text ≤ widestField := by
  rw [← pointer?_isSome]
  simp [render?, renderLines?, found]

theorem Reports.shown (reports : error.Reports source row c) :
    ∃ text, Source.line? source.toList error.position.line = some text ∧ '\n' ∉ text ∧
      text[error.position.column - 1]? = some c ∧ row.takeWhile isIndent = text.takeWhile isIndent := by
  obtain ⟨counted, found, -, here, solid⟩ := reports
  have within := Source.trimEnd_prefix (· == '\r') row
  have kept : (Source.trimEnd (· == '\r') row)[error.position.column - 1]? = some c :=
    Source.trimEnd_getElem? here (ne_of_solid solid (by decide))
  refine ⟨_, Source.line?_of_row counted found, ?_, kept, ?_⟩
  · intro feed
    exact Source.feed_not_mem (List.mem_of_getElem? found) (within.subset feed)
  · exact Source.takeWhile_of_prefix within (List.mem_of_getElem? kept) (isIndent_of_solid solid)

theorem Reports.caretWidth_eq (reports : error.Reports source row c)
    (kept : text[error.position.column - 1]? = some c) :
    (text.takeWhile isIndent).length < error.position.column ∧
      caretWidth error.position text = error.position.column - (text.takeWhile isIndent).length := by
  obtain ⟨behind, -⟩ := Source.dropWhile_getElem? kept (isIndent_of_solid reports.solid)
  have reached := reports.reached
  unfold caretWidth
  omega

theorem Reports.isSome_iff (reports : error.Reports source row c) :
    (error.render? source).isSome ↔ error.position.column ≤ (row.takeWhile isIndent).length + widestField := by
  obtain ⟨text, shown, -, kept, indent⟩ := reports.shown
  obtain ⟨-, width⟩ := reports.caretWidth_eq kept
  rw [render?_isSome shown, width, indent]
  omega

theorem Reports.pointsAt (reports : error.Reports source row c) {output : String}
    (rendered : error.render? source = some output) : PointsAt output.toList c := by
  obtain ⟨text, shown, level, kept, -⟩ := reports.shown
  obtain ⟨behind, width⟩ := reports.caretWidth_eq kept
  obtain ⟨above, caret, set, lines⟩ := render?_lines level shown rendered
  refine ⟨above, margin error.position, excerpt error.position text, caret, _, lines, pointer?_last set, ?_, ?_,
    excerpt_barAt error.position text, ?_⟩
  · -- The field of the caret is shorter than the column by what the line loses at its start.
    have same : caret.length - 1 = (toString error.position.line).toList.length + 3 +
        (error.position.column - 1 - (text.takeWhile isIndent).length) := by
      rw [pointer?_length set, width]
      omega
    rw [same]
    exact excerpt_getElem? kept reports.solid
  · simpa using margin_barAt error.position []
  · rw [pointer?_ok set]
    exact margin_barAt error.position _

-- The caret stands under the character that an error is reported at, in every rendering that there is; and there is
-- one if and only if a field can be wide enough.
theorem caret_under_character (reports : error.Reports source row c) :
    ((error.render? source).isSome ↔ error.position.column ≤ (row.takeWhile isIndent).length + widestField) ∧
      ∀ output, error.render? source = some output → PointsAt output.toList c :=
  ⟨reports.isSome_iff, fun _ rendered => reports.pointsAt rendered⟩

theorem caret_under_character_indented :
    ∃ output, (⟨.unrecognised "é", ⟨2, 10, "main.sc"⟩⟩ : Error).render? "num a;\n\t  b | = é; \r" = some output ∧
      PointsAt output.toList 'é' := by
  have found : ("num a;\n\t  b | = é; \r".toList.splitOn '\n')[1]? = some "\t  b | = é; \r".toList := by decide
  have here : "\t  b | = é; \r".toList[9]? = some 'é' := by decide
  have reports : (⟨.unrecognised "é", ⟨2, 10, "main.sc"⟩⟩ : Error).Reports "num a;\n\t  b | = é; \r"
      "\t  b | = é; \r".toList 'é' :=
    ⟨by decide, found, by decide, here, by decide⟩
  obtain ⟨shown, points⟩ := caret_under_character reports
  obtain ⟨output, rendered⟩ := Option.isSome_iff_exists.mp (shown.mpr (by decide))
  exact ⟨output, rendered, points output rendered⟩

end Error

theorem Position.after_replicate {c : Char} (level : c ≠ '\n') (place : Position) (count : Nat) :
    place.after (List.replicate count c) = { place with column := place.column + count } := by
  induction count generalizing place with
  | zero => rfl
  | succ count ih =>
    rw [List.replicate_succ, after, List.foldl_cons]
    show (place.step c).after (List.replicate count c) = _
    rw [ih, step, if_neg level]
    show Position.mk _ (place.column + 1 + count) _ = Position.mk _ (place.column + (count + 1)) _
    rw [Nat.add_assoc, Nat.add_comm 1 count]

def strayMark (count : Nat) : List Char := List.replicate (count + 1) '1' ++ ['@']

theorem scan_strayMark (count : Nat) (file : String) :
    Token.scan (String.ofList (strayMark count)) file = .error ⟨.unrecognised "@", ⟨1, count + 2, file⟩⟩ := by
  have digits : AreDigits (List.replicate (count + 1) '1') := by
    refine ⟨by simp, fun c member => ?_⟩
    rw [List.eq_of_mem_replicate member]
    rfl
  have number : Pattern.front? (strayMark count) = some (.number, (List.replicate (count + 1) '1', ['@'])) :=
    Pattern.front?_number (.inl digits) fun c head => by cases head; decide
  have stray (bound : Nat) (place : Position) :
      Token.scanFrom (bound + 1) ⟨place, ['@']⟩ = .error ⟨.unrecognised "@", place⟩ := by
    have unknown : Pattern.front? ['@'] = none := by decide
    simp only [Token.scanFrom, unknown]
    rfl
  have behind : Position.after (.first file) (List.replicate (count + 1) '1') = ⟨1, count + 2, file⟩ := by
    rw [Position.after_replicate (by decide)]
    show Position.mk 1 (1 + (count + 1)) file = _
    rw [Nat.add_comm 1]
  have size : (strayMark count).length = count + 1 + 1 := by simp [strayMark]
  have start : Cursor.start (String.ofList (strayMark count)) file = ⟨.first file, strayMark count⟩ := by
    rw [Cursor.start, String.toList_ofList]
  have more : (Cursor.mk (.first file) (strayMark count)).atEnd = false := by simp [Cursor.atEnd, strayMark]
  have stopped := stray count ⟨1, count + 2, file⟩
  rw [Token.scan, String.toList_ofList, size, start, Token.scanFrom, more, number]
  simp only [Pattern.read, Cursor.past, behind, stopped]
  rfl

theorem strayMark_reports (count : Nat) (file : String) :
    Error.Reports ⟨.unrecognised "@", ⟨1, count + 2, file⟩⟩ (String.ofList (strayMark count)) (strayMark count)
      '@' := by
  have level : '\n' ∉ strayMark count := by
    intro feed
    rcases List.mem_append.mp feed with digit | mark
    · cases List.eq_of_mem_replicate digit
    · cases List.mem_singleton.mp mark
  refine ⟨Nat.le_refl 1, ?_, Nat.le_add_left 1 (count + 1), ?_, by decide⟩
  · rw [String.toList_ofList, List.splitOn_eq_singleton level]
    rfl
  · show (strayMark count)[count + 1]? = some '@'
    rw [strayMark, List.getElem?_append_right (Nat.le_of_eq List.length_replicate), List.length_replicate, Nat.sub_self]
    rfl

-- Nothing is lost at the start of the line, so that the caret stands as far right as the character.
theorem strayMark_not_shown {count : Nat} (far : Error.widestField ≤ count + 1) (file : String) :
    Error.render? ⟨.unrecognised "@", ⟨1, count + 2, file⟩⟩ (String.ofList (strayMark count)) = none := by
  rw [← Option.not_isSome_iff_eq_none, (strayMark_reports count file).isSome_iff]
  have bare : (strayMark count).takeWhile Error.isIndent = [] := by
    rw [strayMark, List.replicate_succ, List.cons_append, List.takeWhile_cons_of_neg (by decide)]
  rw [bare]
  show ¬count + 2 ≤ 0 + Error.widestField
  omega

-- The scanner itself reports an error that cannot be shown.
theorem far_caret_not_set :
    Token.scan (String.ofList (strayMark 65534)) "shell" = .error ⟨.unrecognised "@", ⟨1, 65536, "shell"⟩⟩ ∧
      Error.Reports ⟨.unrecognised "@", ⟨1, 65536, "shell"⟩⟩ (String.ofList (strayMark 65534)) (strayMark 65534) '@' ∧
      Error.render? ⟨.unrecognised "@", ⟨1, 65536, "shell"⟩⟩ (String.ofList (strayMark 65534)) = none :=
  ⟨scan_strayMark 65534 "shell", strayMark_reports 65534 "shell",
    strayMark_not_shown (Nat.le_refl Error.widestField) "shell"⟩

end TypedScript
