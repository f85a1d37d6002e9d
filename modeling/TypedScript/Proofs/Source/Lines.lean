import Mathlib.Data.List.DropRight
import TypedScript.Source.Line

namespace TypedScript.Source

theorem pieces_eq_splitOn (text : List Char) : pieces text = text.splitOn '\n' := by
  induction text with
  | nil => rfl
  | cons c rest ih =>
    rw [pieces, ih, List.splitOn_cons_eq_if_modifyHead]
    by_cases feed : c = '\n'
    · simp only [feed, beq_self_eq_true, if_true]
    · rw [if_neg feed, if_neg (by simpa using feed)]
      cases split : rest.splitOn '\n' with
      | nil => exact absurd split (List.splitOn_ne_nil _ _)
      | cons first others => rfl

theorem line?_of_row {text row : List Char} {n : Nat} (counted : 1 ≤ n)
    (found : (text.splitOn '\n')[n - 1]? = some row) : line? text n = some (trimEnd (· == '\r') row) := by
  rw [← Nat.sub_add_cancel counted, line?, pieces_eq_splitOn, found]
  rfl

theorem feed_not_mem {text row : List Char} (member : row ∈ text.splitOn '\n') : '\n' ∉ row := by
  induction text generalizing row with
  | nil =>
    rw [List.splitOn_nil, List.mem_singleton] at member
    rw [member]
    exact List.not_mem_nil
  | cons c rest ih =>
    rw [List.splitOn_cons_eq_if_modifyHead] at member
    by_cases feed : (c == '\n') = true
    · rw [if_pos feed] at member
      rcases List.mem_cons.mp member with rfl | later
      · exact List.not_mem_nil
      · exact ih later
    · rw [if_neg feed] at member
      cases split : rest.splitOn '\n' with
      | nil => exact absurd split (List.splitOn_ne_nil _ _)
      | cons first others =>
        rw [split, List.modifyHead_cons] at member
        rw [split] at ih
        rcases List.mem_cons.mp member with rfl | later
        · intro inside
          rcases List.mem_cons.mp inside with rfl | inside
          · exact feed rfl
          · exact ih List.mem_cons_self inside
        · exact ih (List.mem_cons_of_mem first later)

variable {text : List Char} {drop : Char → Bool} {i : Nat} {c : Char}

theorem trimEnd_prefix (drop : Char → Bool) (text : List Char) : trimEnd drop text <+: text :=
  List.rdropWhile_prefix drop text

theorem trimEnd_getElem? (here : text[i]? = some c) (kept : drop c = false) : (trimEnd drop text)[i]? = some c := by
  have whole : trimEnd drop text ++ text.rtakeWhile drop = text := List.rdropWhile_append_rtakeWhile
  rw [← whole] at here
  by_cases inside : i < (trimEnd drop text).length
  · rwa [List.getElem?_append_left inside] at here
  · rw [List.getElem?_append_right (Nat.not_lt.mp inside)] at here
    have dropped := List.mem_rtakeWhile_imp (List.mem_of_getElem? here)
    cases kept.symm.trans dropped

theorem dropWhile_getElem? (here : text[i]? = some c) (kept : drop c = false) :
    (text.takeWhile drop).length ≤ i ∧ (text.dropWhile drop)[i - (text.takeWhile drop).length]? = some c := by
  have whole : text.takeWhile drop ++ text.dropWhile drop = text := List.takeWhile_append_dropWhile
  rw [← whole] at here
  by_cases inside : i < (text.takeWhile drop).length
  · rw [List.getElem?_append_left inside] at here
    cases kept.symm.trans (List.mem_takeWhile_imp (List.mem_of_getElem? here))
  · have reached := Nat.not_lt.mp inside
    rw [List.getElem?_append_right reached] at here
    exact ⟨reached, here⟩

theorem takeWhile_of_prefix {front : List Char} (within : front <+: text) (member : c ∈ front)
    (outside : drop c = false) : text.takeWhile drop = front.takeWhile drop := by
  obtain ⟨rest, rfl⟩ := within
  rw [List.takeWhile_append, if_neg]
  intro full
  have all : front.takeWhile drop = front := (List.takeWhile_prefix drop).eq_of_length full
  rw [← all] at member
  cases outside.symm.trans (List.mem_takeWhile_imp member)

end TypedScript.Source
