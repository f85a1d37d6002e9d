import TypedScript.Proofs.Grammar.Entries

namespace TypedScript.Grammar

variable {α : Type} {tokens : Stream} {integers : Prop} {bound : Nat} {s : State}

section
variable (closed : Closed tokens)
include closed

theorem closeAll_lands {owed : List Kind} (inside : s.pos < tokens.size) (enough : tokens.size < s.pos + bound) :
    Lands tokens integers s.pos (closeAll bound owed tokens s) := by
  induction bound generalizing s owed with
  | zero => omega
  | succ bound ih =>
    cases owed with
    | nil => exact .pure (Nat.le_refl _) inside
    | cons closer outer =>
      have rest : tokens.next s ≠ .endOfFile → ∀ owed,
          Lands tokens integers s.pos ((skip >>= fun _ => closeAll bound owed) tokens s) := by
        intro live owed
        refine (advance_lands closed live).answer.bind fun _ m _ past inside => ?_
        exact (ih inside (by omega)).mono (by omega)
      simp only [closeAll, kind_bind]
      split
      · exact .unexpected inside closer.name_explained
      · rename_i live
        cases (tokens.next s).closing? with
        | some inner => exact rest live _
        | none =>
          simp only
          split
          · exact rest live _
          · split
            · exact .unexpected inside closer.name_explained
            · exact rest live _

theorem balanced_lands {closer : Kind} (opener : (tokens.next s).closing? = some closer) :
    Lands tokens integers (s.pos + 1) (balanced tokens s) := by
  simp only [balanced, kind_bind, opener]
  refine (advance_lands closed (Kind.ne_end_of_closing opener).1).answer.bind fun _ m _ past inside => ?_
  exact (Lands.bounded (closeAll_lands closed inside (by omega))).mono past

theorem toSemicolon_lands (inside : s.pos < tokens.size) (enough : tokens.size < s.pos + bound) :
    Lands tokens integers s.pos (toSemicolon bound tokens s) := by
  induction bound generalizing s with
  | zero => omega
  | succ bound ih =>
    simp only [toSemicolon, kind_bind]
    split
    · exact .pure (Nat.le_refl _) inside
    · split
      · exact .unexpected inside (by decide)
      · rename_i live
        split
        · rename_i opens
          obtain ⟨closer, opener⟩ := Option.isSome_iff_exists.mp opens
          refine (balanced_lands closed opener).bind fun _ m _ past inside => ?_
          exact (ih inside (by omega)).mono (by omega)
        · split
          · exact .unexpected inside (by decide)
          · refine (advance_lands closed live).answer.bind fun _ m _ past inside => ?_
            exact (ih inside (by omega)).mono (by omega)

theorem skipBody_progresses : Progresses tokens integers 0 skipBody := by
  intro s _ inside
  simp only [skipBody, kind_bind]
  split
  · rename_i opener
    exact balanced_lands closed (by rw [opener]; rfl)
  · exact .unexpected inside (by decide)

theorem skipInitializer_lands (inside : s.pos < tokens.size) :
    Lands tokens integers s.pos (skipInitializer tokens s) := by
  simp only [skipInitializer, kind_bind]
  split
  · rename_i sign
    refine (advance_lands closed (by rw [sign]; decide)).answer.bind fun _ m _ past inside => ?_
    exact (Lands.bounded (toSemicolon_lands closed inside (by omega))).mono (by omega)
  · split
    · exact .pure (Nat.le_refl _) inside
    · exact .unexpected inside (by decide)

omit closed in
theorem claim_lands {i : Nat} {owner : Owner} {place : Position} (named : (tokens.token i).kind = .identifier)
    (inside : s.pos < tokens.size) :
    Lands tokens integers s.pos (claim (tokens.token i).value owner place tokens s) := by
  unfold claim
  cases claimed : s.catalog.claim (tokens.token i).value owner place with
  | ok value catalog => exact .ok (Nat.le_refl _) inside
  | error error left => exact .error inside (.claim named claimed)

theorem outlineNamed_progresses {keyword : Kind} {owner : Owner} (wanting : keyword ≠ .endOfFile) :
    Progresses tokens integers 0 (outlineNamed keyword owner) := by
  intro s _ inside
  unfold outlineNamed
  refine (keywordName_progresses closed wanting s (Nat.zero_le _) inside).bind fun _ m ran past inside => ?_
  obtain ⟨-, named, rfl, -⟩ := keywordName_ok.mp ran
  refine (claim_lands named inside).bind fun _ n _ past inside => ?_
  exact ((skipBody_progresses closed n (Nat.zero_le _) inside).mono (by omega)).answer

theorem outlineDelegate_progresses : Progresses tokens integers 0 outlineDelegate := by
  intro s _ inside
  unfold outlineDelegate
  rw [place_bind]
  refine (delegateHead_progresses closed s (Nat.zero_le _) inside).bind fun _ m ran past inside => ?_
  cases delegateHead_reads ran with
  | mk _ _ named =>
    refine (claim_lands named inside).bind fun _ n _ past inside => ?_
    rw [enter_bind]
    exact .pure (show s.pos + 1 ≤ n.pos by omega) inside

theorem outlineFunction_progresses : Progresses tokens integers 0 outlineFunction := by
  intro s _ inside
  unfold outlineFunction
  refine (functionHead_progresses closed s (Nat.zero_le _) inside).bind fun _ m ran past inside => ?_
  cases functionHead_reads ran with
  | mk _ named =>
    refine (claim_lands named inside).bind fun _ n _ past inside => ?_
    rw [enter_bind]
    refine ((skipBody_progresses closed (n.entered _) (Nat.zero_le _) inside).mono ?_).answer
    rw [State.entered_pos]
    omega

theorem outlineGlobal_lands {i : Nat} {type : Ty} (named : (tokens.token i).kind = .identifier)
    (inside : s.pos < tokens.size) :
    Lands tokens integers s.pos (outlineGlobal type (tokens.token i) tokens s) := by
  unfold outlineGlobal
  refine (claim_lands named inside).bind fun _ m _ past inside => ?_
  rw [enter_bind]
  refine (skipInitializer_lands closed (s := m.entered _) inside).bind fun _ n _ past inside => ?_
  rw [State.entered_pos] at past
  exact ((expect_progresses closed (by decide) n (Nat.zero_le _) inside).mono (by omega)).answer

theorem outlineTyped_progresses : Progresses tokens integers 0 outlineTyped := by
  intro s _ inside
  unfold outlineTyped
  rw [index_bind]
  refine (typedName_progresses closed s (Nat.zero_le _) inside).bind fun (type, name) m ran past within => ?_
  obtain ⟨n, -, named, rfl, -⟩ := typedName_reads ran
  simp only [kind_bind]
  split
  · rw [seek_bind]
    exact outlineFunction_progresses closed (m.moved s.pos) (Nat.zero_le _) inside
  · exact (outlineGlobal_lands closed named within).mono past

theorem outlineDeclaration_progresses : Progresses tokens integers 0 outlineDeclaration := by
  intro s _ inside
  simp only [outlineDeclaration, kind_bind]
  cases tokens.next s with
  | structWord => exact outlineNamed_progresses closed (by decide) s (Nat.zero_le _) inside
  | enumWord => exact outlineNamed_progresses closed (by decide) s (Nat.zero_le _) inside
  | delegateWord => exact outlineDelegate_progresses closed s (Nat.zero_le _) inside
  | _ => exact outlineTyped_progresses closed s (Nat.zero_le _) inside

theorem entries_lands (inside : s.pos < tokens.size) (enough : tokens.size < s.pos + bound) :
    Lands tokens integers s.pos (entries bound tokens s) := by
  induction bound generalizing s with
  | zero => omega
  | succ bound ih =>
    simp only [entries, more_bind]
    split
    · rw [index_bind]
      refine (outlineDeclaration_progresses closed s (Nat.zero_le _) inside).bind fun found m _ past inside => ?_
      obtain ⟨owner, name⟩ := found
      simp only [index_bind]
      exact ((ih inside (by omega)).mono (by omega)).answer
    · exact .pure (Nat.le_refl _) inside

theorem outline_lands (inside : s.pos < tokens.size) : Lands tokens integers s.pos (outline tokens s) :=
  .bounded (entries_lands closed inside (by omega))

theorem declarations_lands {found : List Entry} (each : ∀ entry ∈ found, Found tokens entry)
    (within : ∀ entry ∈ found, entry.start < tokens.size) (inside : s.pos < tokens.size) : Lands tokens True 0 (declarations found tokens s) := by
  induction found generalizing s with
  | nil => exact .pure (Nat.zero_le _) inside
  | cons entry others ih =>
    obtain ⟨outlined, others⟩ := List.forall_mem_cons.mp each
    obtain ⟨starts, later⟩ := List.forall_mem_cons.mp within
    unfold declarations
    rw [seek_bind]
    refine ((declaration_lands closed (s := s.moved entry.start) starts).grant trivial).bind fun _ m parsed _ inside => ?_
    rw [index_bind, if_pos (outlined.ends closed rfl parsed)]
    exact (ih others later inside).answer

theorem wholeFile_lands {found : List Entry} (each : ∀ entry ∈ found, Found tokens entry)
    (within : ∀ entry ∈ found, entry.start < tokens.size) (inside : s.pos < tokens.size) : Lands tokens True 0 (wholeFile found tokens s) := by
  unfold wholeFile
  refine (declarations_lands closed each within inside).bind fun _ _ _ _ inside => ?_
  rw [file_bind]
  exact .pure (Nat.zero_le _) inside

end

-- An outcome that is no spent bound, inside the stream: what was read has been read to its end, or a failure
-- was found at a token of the file.
structure Settles (tokens : Stream) (outcome : EStateM.Result Error State α) : Prop where
  unspent : ∀ t, outcome ≠ giveUp tokens t
  inside : (finalState outcome).pos < tokens.size

structure Advances (tokens : Stream) (start : Nat) (outcome : EStateM.Result Error State α) : Prop
    extends Settles tokens outcome where
  past : ∀ value t, outcome = .ok value t → start < t.pos

theorem Lands.settles {low : Nat} {outcome : EStateM.Result Error State α}
    (lands : Lands tokens integers low outcome) : Settles tokens outcome := by
  refine ⟨?_, ?_⟩
  · intro t spent
    rw [spent] at lands
    cases lands with
    | error _ fault =>
      cases fault with
      | unexpected explained => exact explained (by decide)
      | claim _ rejected => exact Catalog.claim_error rejected
  · cases lands with
    | ok _ inside => exact inside
    | error inside _ => exact inside

theorem Lands.advances {start : Nat} {outcome : EStateM.Result Error State α}
    (lands : Lands tokens integers (start + 1) outcome) : Advances tokens start outcome := by
  refine ⟨lands.settles, ?_⟩
  rintro value t rfl
  cases lands with
  | ok past _ => exact past

theorem Progresses.advances {rule : Rule α} (progresses : Progresses tokens False 0 rule)
    (inside : s.pos < tokens.size) : Advances tokens s.pos (rule tokens s) :=
  (progresses s (Nat.zero_le _) inside).advances

-- In a closed stream, from any token on and with any catalog, every rule comes to an end before a bound is
-- spent and never leaves the stream. A rule for something that a file is made of takes at least one token.
theorem rules_progress (closed : Closed tokens) (inside : s.pos < tokens.size) :
    (∀ level, Advances tokens s.pos (expression level tokens s)) ∧
    (∀ level, Advances tokens s.pos (typeName level tokens s)) ∧
    Advances tokens s.pos (statement tokens s) ∧
    Advances tokens s.pos (block tokens s) ∧
    Advances tokens s.pos (declaration tokens s) ∧
    Advances tokens s.pos (outlineDeclaration tokens s) ∧
    Settles tokens (outline tokens s) ∧
    ∀ found left, outline tokens s = .ok found left →
      ∀ t : State, t.pos < tokens.size → Settles tokens (wholeFile found tokens t) := by
  refine ⟨fun level => ?_, fun level => ?_, ?_, ?_, ?_, ?_, ?_, ?_⟩
  · exact (expression_progresses closed level).advances inside
  · exact (typeName_progresses closed level).advances inside
  · exact (statement_progresses closed).advances inside
  · exact (block_progresses closed).advances inside
  · exact (declaration_lands closed inside).advances
  · exact (outlineDeclaration_progresses closed).advances inside
  · exact (show Lands tokens False _ _ from outline_lands closed inside).settles
  · intro found left outlined t within
    obtain ⟨tiles, each⟩ := entries_tile closed outlined inside
    refine (wholeFile_lands closed each (fun entry member => ?_) within).settles
    have before := tiles.within.2 entry member
    omega

theorem oneGlobal_progresses :
    Closed oneGlobal ∧
      (∃ decl m, declaration oneGlobal ⟨1, 0, .initial⟩ = .ok decl m ∧ 1 < m.pos ∧ m.pos < oneGlobal.size) ∧
      Advances oneGlobal 8 (statement oneGlobal ⟨8, 0, .initial⟩) ∧
      ∃ found m, outline oneGlobal ⟨1, 0, .initial⟩ = .ok found m ∧
        Settles oneGlobal (wholeFile found oneGlobal ⟨1, 0, .initial⟩) := by
  have closed : Closed oneGlobal := by unfold Closed; decide
  have parsed : endsIn (fun _ _ => true) (declaration oneGlobal ⟨1, 0, .initial⟩) = true := by decide +kernel
  have outlined : endsIn (fun _ _ => true) (outline oneGlobal ⟨1, 0, .initial⟩) = true := by decide +kernel
  obtain ⟨decl, m, parsed, -⟩ := endsIn_ok parsed
  obtain ⟨found, n, outlined, -⟩ := endsIn_ok outlined
  obtain ⟨-, -, -, -, declares, -, -, whole⟩ := rules_progress (s := ⟨1, 0, .initial⟩) closed (by decide)
  obtain ⟨-, -, states, -⟩ := rules_progress (s := ⟨8, 0, .initial⟩) closed (by decide)
  have ends := declares.inside
  rw [parsed] at ends
  exact ⟨closed, ⟨decl, m, parsed, declares.past decl m parsed, ends⟩, states, found, n, outlined,
    whole found n outlined ⟨1, 0, .initial⟩ (by decide)⟩

end TypedScript.Grammar
