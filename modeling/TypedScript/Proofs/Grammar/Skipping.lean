import TypedScript.Proofs.Grammar.Nesting

namespace TypedScript

theorem Kind.isClosing_of_closing {kind closer : Kind} (opener : kind.closing? = some closer) :
    closer.isClosing = true := by
  cases kind <;> cases opener <;> rfl

theorem Kind.closing_of_isClosing {kind : Kind} (closes : kind.isClosing = true) : kind.closing? = none := by
  cases kind <;> first | rfl | cases closes

theorem Kind.bracketless_of_isPlain {kind : Kind} {free : Bool} (plain : kind.isPlain free = true) :
    kind.closing? = none ∧ kind.isClosing = false := by
  simp only [Kind.isPlain, Bool.and_eq_true, Bool.not_eq_eq_eq_not, Bool.not_true, Option.isNone_iff_eq_none] at plain
  exact plain.1.1

namespace Grammar

variable {tokens : Stream} {s t : State} {free : Bool} {i j : Nat} {closer : Kind} {outer : List Kind}

theorem closeAll_nil (bound : Nat) : closeAll bound [] tokens s = .ok () s := by
  cases bound <;> rfl

theorem closeAll_plain (closed : Closed tokens) (owed : closer.isClosing = true) (bound : Nat)
    (here : (tokens.next s).isPlain true = true) :
    closeAll (bound + 1) (closer :: outer) tokens s =
      closeAll bound (closer :: outer) tokens (s.moved (s.pos + 1)) := by
  have live := Kind.ne_end_of_isPlain here
  obtain ⟨notOpener, notCloser⟩ := Kind.bracketless_of_isPlain here
  have other : tokens.next s ≠ closer := by
    intro same
    rw [same, owed] at notCloser
    cases notCloser
  simp only [closeAll, kind_bind, if_neg live, notOpener, if_neg other, notCloser, Bool.false_eq_true,
    if_false, skip_bind, closed.step_eq live]

theorem closeAll_open (closed : Closed tokens) {inner : Kind} (bound : Nat)
    (opener : (tokens.next s).closing? = some inner) :
    closeAll (bound + 1) (closer :: outer) tokens s =
      closeAll bound (inner :: closer :: outer) tokens (s.moved (s.pos + 1)) := by
  have live := (Kind.ne_end_of_closing opener).1
  simp only [closeAll, kind_bind, if_neg live, opener, skip_bind, closed.step_eq live]

theorem closeAll_close (closed : Closed tokens) (owed : closer.isClosing = true) (bound : Nat)
    (here : tokens.next s = closer) :
    closeAll (bound + 1) (closer :: outer) tokens s = closeAll bound outer tokens (s.moved (s.pos + 1)) := by
  have live : tokens.next s ≠ .endOfFile := by
    intro ended
    rw [← here, ended] at owed
    cases owed
  have notOpener := Kind.closing_of_isClosing owed
  rw [← here] at notOpener
  simp only [closeAll, kind_bind, if_neg live, notOpener, if_pos here, skip_bind, closed.step_eq live]

-- A nested range leaves what is owed as it was, and takes one step of the bound for each token.
theorem closeAll_nested (closed : Closed tokens) (nested : Nested tokens free i j)
    (owed : closer.isClosing = true) (bound : Nat) (start : s.pos = i) :
    closeAll (bound + (j - i)) (closer :: outer) tokens s =
      closeAll bound (closer :: outer) tokens (s.moved j) := by
  induction nested generalizing s closer outer bound with
  | nil =>
    subst start
    rw [Nat.sub_self]
    rfl
  | @plain _ i j here rest ih =>
    have further := rest.le
    have split : bound + (j - i) = bound + (j - (i + 1)) + 1 := by omega
    subst start
    rw [split, closeAll_plain closed owed _ (Kind.isPlain_weaken here), ih owed _ rfl]
    rfl
  | @bracket _ i k j _ opener inner shut rest inside after =>
    have within := inner.le
    have further := rest.le
    have split : bound + (j - i) = bound + (j - (k + 1)) + 1 + (k - (i + 1)) + 1 := by omega
    subst start
    have closes := Kind.isClosing_of_closing opener
    have here : tokens.next ((s.moved (s.pos + 1)).moved k) = _ := shut
    rw [split, closeAll_open closed _ opener, inside closes _ rfl, closeAll_close closed closes _ here,
      after owed _ rfl]
    rfl

theorem balanced_nested (closed : Closed tokens) (opener : (tokens.next s).closing? = some closer)
    (inner : Nested tokens true (s.pos + 1) j) (shut : (tokens.token j).kind = closer) :
    balanced tokens s = .ok () (s.moved (j + 1)) := by
  obtain ⟨live, ended⟩ := Kind.ne_end_of_closing opener
  have closes := Kind.isClosing_of_closing opener
  have inside := closed.inside (shut ▸ ended)
  have further := inner.le
  have split : tokens.size + 1 =
      tokens.size - (j - (s.pos + 1)) + 1 + (j - (s.pos + 1)) := by omega
  simp only [balanced, kind_bind, opener, skip_bind, closed.step_eq live, bounded]
  have here : tokens.next ((s.moved (s.pos + 1)).moved j) = closer := shut
  rw [split, closeAll_nested closed inner closes _ rfl, closeAll_close closed closes _ here, closeAll_nil]
  rfl

theorem toSemicolon_nested (closed : Closed tokens) (nested : Nested tokens free i j) (tight : free = false)
    (ended : (tokens.token j).kind = .semicolon) {bound : Nat} (enough : j - i < bound) (start : s.pos = i) :
    toSemicolon bound tokens s = .ok () (s.moved j) := by
  induction nested generalizing s bound with
  | nil =>
    obtain ⟨rest, rfl⟩ : ∃ rest, bound = rest + 1 := ⟨bound - 1, by omega⟩
    subst start
    have here : tokens.next s = .semicolon := ended
    simp only [toSemicolon, kind_bind, if_pos here]
    rfl
  | @plain _ i j here rest ih =>
    obtain ⟨left, rfl⟩ : ∃ rest, bound = rest + 1 := ⟨bound - 1, by omega⟩
    subst start tight
    have further := rest.le
    have live : tokens.next s ≠ .endOfFile := Kind.ne_end_of_isPlain here
    simp only [Kind.isPlain, Bool.and_eq_true, Bool.not_eq_eq_eq_not, Bool.not_true, Bool.false_or, bne_iff_ne,
      Option.isNone_iff_eq_none] at here
    obtain ⟨⟨⟨notOpener, notCloser⟩, -⟩, other⟩ := here
    change (tokens.next s).closing? = none at notOpener
    change (tokens.next s).isClosing = false at notCloser
    have next : toSemicolon left tokens (s.moved (s.pos + 1)) = .ok () ((s.moved (s.pos + 1)).moved j) :=
      ih rfl ended (by omega) rfl
    simp only [toSemicolon, kind_bind, if_neg live, if_neg (show tokens.next s ≠ .semicolon from other),
      notOpener, Option.isSome_none, notCloser, Bool.false_eq_true, if_false, skip_bind, closed.step_eq live]
    exact next
  | @bracket _ i k j _ opener inner shut rest _ ih =>
    obtain ⟨left, rfl⟩ : ∃ rest, bound = rest + 1 := ⟨bound - 1, by omega⟩
    subst start
    have within := inner.le
    have further := rest.le
    have live : tokens.next s ≠ .endOfFile := (Kind.ne_end_of_closing opener).1
    have other : tokens.next s ≠ .semicolon := by
      intro same
      change (tokens.next s).closing? = _ at opener
      rw [same] at opener
      cases opener
    -- Semicolons in the bracket do not count: it is skipped as a whole.
    have skipped := balanced_nested closed opener inner shut
    have next : toSemicolon left tokens (s.moved (k + 1)) = .ok () ((s.moved (k + 1)).moved j) :=
      ih tight ended (by omega) rfl
    change (tokens.next s).closing? = _ at opener
    simp only [toSemicolon, kind_bind, if_neg live, if_neg other, opener, Option.isSome_some, if_true]
    rw [bind_of_ok skipped]
    exact next

-- What a skipping rule does when it succeeds: it steps past tokens, and never past the end marker.
inductive Skips (tokens : Stream) : State → State → Prop
  | done (s : State) : Skips tokens s s
  | token {s t : State} (live : tokens.next s ≠ .endOfFile) (rest : Skips tokens (s.step tokens) t) :
    Skips tokens s t

namespace Skips

theorem trans {m : State} (first : Skips tokens s m) (second : Skips tokens m t) : Skips tokens s t := by
  induction first with
  | done => exact second
  | token live _ ih => exact .token live (ih second)

theorem within (skips : Skips tokens s t) (closed : Closed tokens) (inside : s.pos < tokens.size) :
    s.pos ≤ t.pos ∧ t.pos < tokens.size := by
  induction skips with
  | done => exact ⟨Nat.le_refl _, inside⟩
  | @token s t live _ ih =>
    have further := closed.step_pos live
    have room : s.pos + 1 < tokens.size := closed.inside live
    have rest := ih (by omega)
    omega

end Skips

theorem closeAll_skips {bound : Nat} {owed : List Kind} (ran : closeAll bound owed tokens s = .ok () t) :
    Skips tokens s t := by
  induction bound generalizing s owed with
  | zero =>
    cases owed with
    | nil =>
      obtain ⟨-, rfl⟩ := pure_ok.mp ran
      exact .done _
    | cons closer outer => exact (giveUp_ok.mp ran).elim
  | succ bound ih =>
    cases owed with
    | nil =>
      obtain ⟨-, rfl⟩ := pure_ok.mp ran
      exact .done _
    | cons closer outer =>
      simp only [closeAll, kind_bind] at ran
      split at ran
      · exact (unexpected_ok.mp ran).elim
      · rename_i live
        cases opener : (tokens.next s).closing? with
        | some inner =>
          simp only [opener, skip_bind] at ran
          exact .token live (ih ran)
        | none =>
          simp only [opener] at ran
          split at ran
          · exact .token live (ih ran)
          · split at ran
            · exact (unexpected_ok.mp ran).elim
            · exact .token live (ih ran)

theorem balanced_skips (ran : balanced tokens s = .ok () t) :
    tokens.next s ≠ .endOfFile ∧ Skips tokens (s.step tokens) t := by
  simp only [balanced, kind_bind] at ran
  cases opener : (tokens.next s).closing? with
  | none =>
    simp only [opener] at ran
    exact (unexpected_ok.mp ran).elim
  | some closer =>
    simp only [opener, skip_bind] at ran
    exact ⟨(Kind.ne_end_of_closing opener).1, closeAll_skips ran⟩

theorem toSemicolon_skips {bound : Nat} (ran : toSemicolon bound tokens s = .ok () t) : Skips tokens s t := by
  induction bound generalizing s with
  | zero => exact (giveUp_ok.mp ran).elim
  | succ bound ih =>
    simp only [toSemicolon, kind_bind] at ran
    split at ran
    · obtain ⟨-, rfl⟩ := pure_ok.mp ran
      exact .done _
    · split at ran
      · exact (unexpected_ok.mp ran).elim
      · rename_i live
        split at ran
        · obtain ⟨_, m, skipped, ran⟩ := bind_ok.mp ran
          exact .token live ((balanced_skips skipped).2.trans (ih ran))
        · split at ran
          · exact (unexpected_ok.mp ran).elim
          · exact .token live (ih ran)

theorem skipBody_skips (ran : skipBody tokens s = .ok () t) :
    tokens.next s ≠ .endOfFile ∧ Skips tokens (s.step tokens) t := by
  simp only [skipBody, kind_bind] at ran
  split at ran
  · exact balanced_skips ran
  · exact (unexpected_ok.mp ran).elim

theorem skipInitializer_skips (ran : skipInitializer tokens s = .ok () t) : Skips tokens s t := by
  simp only [skipInitializer, kind_bind] at ran
  split at ran
  · rename_i sign
    have live : tokens.next s ≠ .endOfFile := by rw [sign]; decide
    exact .token live (toSemicolon_skips ran)
  · split at ran
    · obtain ⟨-, rfl⟩ := pure_ok.mp ran
      exact .done _
    · exact (unexpected_ok.mp ran).elim

end Grammar

end TypedScript
