import TypedScript.Proofs.Grammar.Entries

namespace TypedScript.Grammar

variable {α : Type} {tokens : Stream} {s t : State} {error : Error} {text : String} {i : Nat}

structure Misstates (tokens : Stream) (error : Error) (i : Nat) : Prop where
  number : (tokens.token i).kind = .number
  unread : Number.Signed64.ofText? (tokens.token i).value = none
  reported : error = ⟨.badNumber (tokens.token i).value, (tokens.token i).span.start⟩

theorem unexpected_numberless {expected : List String}
    (failed : (unexpected expected : Rule α) tokens s = .error error t) : error.cause ≠ .badNumber text := by
  cases failed
  nofun

theorem expect_numberless {wanted : Kind} (failed : expect wanted tokens s = .error error t) :
    error.cause ≠ .badNumber text := by
  simp only [expect, kind_bind] at failed
  split at failed
  · cases failed
  · exact unexpected_numberless failed

theorem keywordName_numberless {keyword : Kind} (failed : keywordName keyword tokens s = .error error t) :
    error.cause ≠ .badNumber text := by
  rcases bind_error.mp failed with failed | ⟨_, _, -, failed⟩
  · exact expect_numberless failed
  · exact expect_numberless failed

theorem separator_numberless {closer : Kind} {expected : List String}
    (failed : separator closer expected tokens s = .error error t) : error.cause ≠ .badNumber text := by
  simp only [separator, kind_bind] at failed
  split at failed
  · cases failed
  · split at failed
    · cases failed
    · exact unexpected_numberless failed

theorem integer_misstates (failed : integer tokens s = .error error t) (bad : error.cause = .badNumber text) :
    Misstates tokens error s.pos := by
  rcases bind_error.mp failed with failed | ⟨_, _, found, failed⟩
  · exact absurd bad (expect_numberless failed)
  · obtain ⟨number, rfl, rfl⟩ := expect_ok.mp found
    cases read : Number.Signed64.ofText? (tokens.token s.pos).value with
    | some value =>
      simp only [read] at failed
      cases failed
    | none =>
      simp only [read] at failed
      cases failed
      exact ⟨number, read, rfl⟩

section
variable (closed : Closed tokens)
include closed

theorem signedInteger_misstates (failed : signedInteger tokens s = .error error t)
    (bad : error.cause = .badNumber text) : ∃ i, Nested tokens true s.pos i ∧ Misstates tokens error i := by
  simp only [signedInteger, kind_bind] at failed
  split at failed
  · rename_i sign
    rw [skip_bind] at failed
    rcases bind_error.mp failed with failed | ⟨_, _, -, failed⟩
    · exact ⟨_, .take closed (by rw [sign]; rfl), integer_misstates failed bad⟩
    · cases failed
  · exact ⟨_, .nil, integer_misstates failed bad⟩

theorem memberValue_misstates {member : Token} {previous : Option Int}
    (failed : memberValue member previous tokens s = .error error t) (bad : error.cause = .badNumber text) :
    ∃ i, Nested tokens true s.pos i ∧ Misstates tokens error i := by
  simp only [memberValue, kind_bind] at failed
  split at failed
  · rename_i sign
    have assign : Nested tokens true s.pos (s.step tokens).pos := .take closed (by rw [sign]; rfl)
    simp only [skip_bind, statedValue, place_bind] at failed
    rcases bind_error.mp failed with failed | ⟨value, _, -, failed⟩
    · obtain ⟨i, nested, misstates⟩ := signedInteger_misstates closed failed bad
      exact ⟨i, assign.append nested, misstates⟩
    · cases previous with
      | none => cases failed
      | some minimum =>
        simp only at failed
        split at failed
        · cases failed
          cases bad
        · cases failed
  · cases previous with
    | none => cases failed
    | some value =>
      simp only [impliedValue] at failed
      cases next : Number.Signed64.next? value with
      | some value =>
        simp only [next] at failed
        cases failed
      | none =>
        simp only [next] at failed
        cases failed
        cases bad

theorem enumMember_misstates {previous : Option Member} (failed : enumMember previous tokens s = .error error t)
    (bad : error.cause = .badNumber text) : ∃ i, Nested tokens true s.pos i ∧ Misstates tokens error i := by
  rcases bind_error.mp failed with failed | ⟨_, _, found, failed⟩
  · exact absurd bad (expect_numberless failed)
  obtain ⟨named, rfl, rfl⟩ := expect_ok.mp found
  rcases bind_error.mp failed with failed | ⟨_, _, -, failed⟩
  · obtain ⟨i, nested, misstates⟩ := memberValue_misstates closed failed bad
    exact ⟨i, (Nested.take closed (by rw [named]; rfl)).append nested, misstates⟩
  · rw [spanSince_bind] at failed
    rcases bind_error.mp failed with failed | ⟨_, _, -, failed⟩
    · exact absurd bad (separator_numberless failed)
    · cases failed

theorem members_misstate {bound : Nat} {previous : Option Member}
    (failed : itemsFrom .closeCurly enumMember bound previous tokens s = .error error t)
    (bad : error.cause = .badNumber text) : ∃ i, Nested tokens true s.pos i ∧ Misstates tokens error i := by
  induction bound generalizing s previous with
  | zero => exact absurd bad (unexpected_numberless failed)
  | succ bound ih =>
    simp only [itemsFrom, kind_bind] at failed
    split at failed
    · cases failed
    · rcases bind_error.mp failed with failed | ⟨_, m, read, failed⟩
      · exact enumMember_misstates closed failed bad
      · have first := (enumMember_reads read).nested closed
        rcases bind_error.mp failed with failed | ⟨_, _, -, failed⟩
        · obtain ⟨i, nested, misstates⟩ := ih failed
          exact ⟨i, first.append nested, misstates⟩
        · cases failed

theorem enumeration_misstates (failed : enumeration tokens s = .error error t) (bad : error.cause = .badNumber text) :
    ∃ i, Nested tokens true (s.pos + 3) i ∧ Misstates tokens error i := by
  simp only [enumeration, place_bind] at failed
  rcases bind_error.mp failed with failed | ⟨_, _, found, failed⟩
  · exact absurd bad (keywordName_numberless failed)
  obtain ⟨word, named, rfl, rfl⟩ := keywordName_ok.mp found
  rcases bind_error.mp failed with failed | ⟨_, _, found, failed⟩
  · exact absurd bad (expect_numberless failed)
  obtain ⟨opener, rfl, rfl⟩ := expect_ok.mp found
  have start : (((s.step tokens).step tokens).step tokens).pos = s.pos + 3 := by
    rw [closed.step_pos (by rw [opener]; decide), closed.step_pos (by rw [named]; decide),
      closed.step_pos (by rw [word]; decide)]
  rcases bind_error.mp failed with failed | ⟨_, _, -, failed⟩
  · rcases bind_error.mp failed with failed | ⟨_, _, -, failed⟩
    · rw [← start]
      exact members_misstate closed failed bad
    · rcases bind_error.mp failed with failed | ⟨_, _, -, failed⟩
      · exact absurd bad (expect_numberless failed)
      · cases failed
  · simp only [enter_bind, spanSince_bind] at failed
    cases failed

-- A body that is skipped is skipped past every token of it that stands outside inner brackets.
theorem skipBody_past (ran : skipBody tokens s = .ok () t) (nested : Nested tokens true (s.pos + 1) i)
    (here : (tokens.token i).kind.isPlain true = true) : i < t.pos := by
  simp only [skipBody, kind_bind] at ran
  split at ran
  · rename_i opener
    have shut : (tokens.next s).closing? = some .closeCurly := by rw [opener]; rfl
    have live := (Kind.ne_end_of_closing shut).1
    have further := nested.le
    have room : i + 1 < tokens.size := closed.inside (Kind.ne_end_of_isPlain here)
    have split : tokens.size + 1 = tokens.size - (i - (s.pos + 1)) + 1 + (i - (s.pos + 1)) := by omega
    simp only [balanced, kind_bind, shut, skip_bind, closed.step_eq live, bounded] at ran
    have plain : (tokens.next ((s.moved (s.pos + 1)).moved i)).isPlain true = true := here
    rw [split, closeAll_nested closed nested rfl _ rfl, closeAll_plain closed rfl _ plain] at ran
    exact ((closeAll_skips ran).within closed room).1
  · exact (unexpected_ok.mp ran).elim

-- Where the outline has found a declaration, a number that is no integer stands inside of it, and it is an
-- enumeration.
theorem Found.misstated {entry : Entry} (found : Found tokens entry) (start : s.pos = entry.start)
    (word : tokens.next s = .enumWord) (nested : Nested tokens true (s.pos + 3) i)
    (misstates : Misstates tokens error i) :
    entry.owner = .enumeration ∧ entry.start ≤ i ∧ i < entry.stop := by
  obtain ⟨before, after, outlined, first, last⟩ := found
  have same : before.pos = s.pos := first.trans start.symm
  have keyword : tokens.next before = .enumWord := (Stream.next_congr same).trans word
  simp only [outlineDeclaration, kind_bind, keyword, outlineNamed] at outlined
  obtain ⟨_, _, found, outlined⟩ := bind_ok.mp outlined
  obtain ⟨-, named, rfl, rfl⟩ := keywordName_ok.mp found
  obtain ⟨_, m, claimed, outlined⟩ := bind_ok.mp outlined
  obtain ⟨_, n, skipped, outlined⟩ := bind_ok.mp outlined
  obtain ⟨owner, rfl⟩ := pure_ok.mp outlined
  have position : m.pos = s.pos + 2 := by
    rw [claim_pos claimed, closed.step_pos (by rw [named]; decide), closed.step_pos (by rw [keyword]; decide), same]
  have inside := skipBody_past closed (i := i) skipped (by rw [position]; exact nested)
    (by rw [misstates.number]; rfl)
  have further := nested.le
  refine ⟨(congrArg Prod.fst owner).symm, by omega, by omega⟩

end

end TypedScript.Grammar
