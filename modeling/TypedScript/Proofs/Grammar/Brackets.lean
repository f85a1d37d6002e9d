import TypedScript.Proofs.Grammar.Skipping

namespace TypedScript.Grammar

def Bracketed (tokens : Stream) (start stop : Nat) : Prop :=
  ∃ closer last, (tokens.token start).kind.closing? = some closer ∧ Nested tokens true (start + 1) last ∧
    (tokens.token last).kind = closer ∧ stop = last + 1

-- The innermost bracket that is open behind a range: all that follows it in the range is closed.
structure Innermost (tokens : Stream) (start stop opener : Nat) (closer : Kind) : Prop where
  after : start ≤ opener
  before : opener < stop
  opens : (tokens.token opener).kind.closing? = some closer
  inner : Nested tokens true (opener + 1) stop

def Refuses (tokens : Stream) (i : Nat) (closer : Kind) : Prop :=
  (tokens.token i).kind = .endOfFile ∨ (tokens.token i).kind.isClosing = true ∧ (tokens.token i).kind ≠ closer

-- The first token behind a bracket that cannot stand where it does, and the bracket that is owed there.
structure FirstMisfit (tokens : Stream) (start stop : Nat) (closer : Kind) : Prop where
  innermost : ∃ opener, Innermost tokens start stop opener closer
  refuses : Refuses tokens stop closer
  unclosed : ∀ i, start < i → i < stop → ∃ opener owed, Innermost tokens start i opener owed
  first : ∀ i, i < stop → ∀ opener owed, Innermost tokens start i opener owed → ¬Refuses tokens i owed

def Stream.refusal (tokens : Stream) (i : Nat) (closer : Kind) : Error :=
  ⟨.unexpected (tokens.token i).value [closer.name], (tokens.token i).span.start⟩

variable {tokens : Stream} {s t : State} {free : Bool} {i j k m start stop : Nat} {closer : Kind} {owed : List Kind}

namespace Nested

theorem le_of_closing (nested : Nested tokens true i m) (closes : (tokens.token m).kind.isClosing = true)
    (longer : Nested tokens true i j) : j ≤ m := by
  -- The ranges inside the first bracket are compared either way round, so that the induction is on the length.
  induction size : m - i using Nat.strongRecOn generalizing i m j with
  | ind size ih =>
    subst size
    cases longer with
    | nil => exact nested.le
    | plain plain rest =>
      cases nested with
      | nil => cases (Kind.bracketless_of_isPlain plain).2.symm.trans closes
      | plain _ inner =>
        have further := inner.le
        exact ih _ (by omega) inner closes rest rfl
      | bracket opener => cases (Kind.bracketless_of_isPlain plain).1.symm.trans opener
    | @bracket _ _ k _ _ opener inner shut rest =>
      cases nested with
      | nil => cases (Kind.closing_of_isClosing closes).symm.trans opener
      | plain plain => cases (Kind.bracketless_of_isPlain plain).1.symm.trans opener
      | @bracket _ _ l _ _ opens inside ended others =>
        cases opens.symm.trans opener
        have shutCloses := Kind.isClosing_of_closing opener
        have within := inside.le
        have further := others.le
        have same : k = l := by
          rcases Nat.lt_trichotomy k l with less | same | more
          · have start_le := inner.le
            have stops := ih _ (by omega) inner (shut ▸ shutCloses) inside rfl
            omega
          · exact same
          · have stops := ih _ (by omega) inside (ended ▸ shutCloses) inner rfl
            omega
        subst same
        exact ih _ (by omega) others closes rest rfl

theorem closes_inside (nested : Nested tokens free i j) (after : i ≤ k) (before : k < j)
    (opener : (tokens.token k).kind.closing? = some closer) :
    ∃ l, l < j ∧ Nested tokens true (k + 1) l ∧ (tokens.token l).kind = closer := by
  induction nested with
  | nil => omega
  | @plain free i j here rest ih =>
    rcases Nat.eq_or_lt_of_le after with same | later
    · subst same
      cases (Kind.bracketless_of_isPlain here).1.symm.trans opener
    · exact ih later before
  | @bracket free i l j _ opens inner shut rest inside beyond =>
    have further := rest.le
    rcases Nat.eq_or_lt_of_le after with same | later
    · subst same
      cases opens.symm.trans opener
      exact ⟨l, by omega, inner, shut⟩
    · rcases Nat.lt_trichotomy k l with less | same | more
      · obtain ⟨last, bound, nested, ended⟩ := inside later less
        exact ⟨last, by omega, nested, ended⟩
      · subst same
        have closes := Kind.isClosing_of_closing opens
        rw [← shut] at closes
        cases (Kind.closing_of_isClosing closes).symm.trans opener
      · exact beyond more before

end Nested

theorem Innermost.unique {opener other : Nat} {wanted : Kind} (left : Innermost tokens start stop opener closer)
    (right : Innermost tokens start stop other wanted) : opener = other ∧ closer = wanted := by
  have order {first second : Nat} {shut next : Kind} (early : Innermost tokens start stop first shut)
      (late : Innermost tokens start stop second next) : ¬first < second := by
    intro less
    obtain ⟨last, bound, nested, ended⟩ := early.inner.closes_inside less late.before late.opens
    have closes := Kind.isClosing_of_closing late.opens
    have stops := nested.le_of_closing (ended ▸ closes) late.inner
    omega
  have same : opener = other :=
    Nat.le_antisymm (Nat.not_lt.mp (order right left)) (Nat.not_lt.mp (order left right))
  subst same
  exact ⟨rfl, Option.some.inj (left.opens.symm.trans right.opens)⟩

-- The brackets that are owed behind a range that starts with one, the next one first.
inductive Owing (tokens : Stream) (start : Nat) : List Kind → Nat → Prop where
  | first {closer : Kind} {stop : Nat} (opens : (tokens.token start).kind.closing? = some closer)
      (inner : Nested tokens true (start + 1) stop) : Owing tokens start [closer] stop
  | deeper {owed : List Kind} {closer : Kind} {opener stop : Nat} (outer : Owing tokens start owed opener)
      (opens : (tokens.token opener).kind.closing? = some closer)
      (inner : Nested tokens true (opener + 1) stop) : Owing tokens start (closer :: owed) stop

namespace Owing

theorem start_lt (owing : Owing tokens start owed stop) : start < stop := by
  induction owing with
  | first _ inner => exact inner.le
  | deeper _ _ inner ih => exact Nat.lt_trans ih inner.le

theorem innermost (owing : Owing tokens start (closer :: owed) stop) :
    ∃ opener, Innermost tokens start stop opener closer := by
  cases owing with
  | first opens inner => exact ⟨start, Nat.le_refl _, inner.le, opens, inner⟩
  | deeper outer opens inner => exact ⟨_, Nat.le_of_lt outer.start_lt, inner.le, opens, inner⟩

theorem closes (owing : Owing tokens start (closer :: owed) stop) : closer.isClosing = true := by
  obtain ⟨_, innermost⟩ := owing.innermost
  exact Kind.isClosing_of_closing innermost.opens

theorem extend (owing : Owing tokens start owed stop) (more : Nested tokens true stop j) :
    Owing tokens start owed j := by
  cases owing with
  | first opens inner => exact .first opens (inner.append more)
  | deeper outer opens inner => exact .deeper outer opens (inner.append more)

theorem plain (owing : Owing tokens start owed stop) (here : (tokens.token stop).kind.isPlain true = true) :
    Owing tokens start owed (stop + 1) :=
  owing.extend (.plain here .nil)

theorem opened (owing : Owing tokens start owed stop) (opens : (tokens.token stop).kind.closing? = some closer) :
    Owing tokens start (closer :: owed) (stop + 1) :=
  .deeper owing opens .nil

theorem shut {next : Kind} (owing : Owing tokens start (closer :: next :: owed) stop)
    (here : (tokens.token stop).kind = closer) : Owing tokens start (next :: owed) (stop + 1) := by
  cases owing with
  | deeper outer opens inner => exact outer.extend (.bracket opens inner here .nil)

theorem last (owing : Owing tokens start [closer] stop) (here : (tokens.token stop).kind = closer) :
    Bracketed tokens start (stop + 1) := by
  cases owing with
  | first opens inner => exact ⟨closer, stop, opens, inner, here, rfl⟩
  | deeper outer => cases outer

end Owing

def Passed (tokens : Stream) (start stop : Nat) : Prop :=
  ∀ i, start < i → i < stop → ∃ opener owed, Innermost tokens start i opener owed ∧ ¬Refuses tokens i owed

theorem Passed.step (passed : Passed tokens start stop) (owing : Owing tokens start (closer :: owed) stop)
    (fits : ¬Refuses tokens stop closer) : Passed tokens start (stop + 1) := by
  intro i after before
  rcases Nat.lt_or_eq_of_le (Nat.le_of_lt_succ before) with earlier | rfl
  · exact passed i after earlier
  · obtain ⟨opener, innermost⟩ := owing.innermost
    exact ⟨opener, closer, innermost, fits⟩

theorem Passed.firstMisfit (passed : Passed tokens start stop) (owing : Owing tokens start (closer :: owed) stop)
    (refuses : Refuses tokens stop closer) : FirstMisfit tokens start stop closer := by
  refine ⟨owing.innermost, refuses, ?_, ?_⟩
  · intro i after before
    obtain ⟨opener, wanted, innermost, -⟩ := passed i after before
    exact ⟨opener, wanted, innermost⟩
  · intro i before opener wanted innermost
    obtain ⟨other, kind, same, fits⟩ := passed i (Nat.lt_of_le_of_lt innermost.after innermost.before) before
    rw [(innermost.unique same).2]
    exact fits

theorem closeAll_refused {bound : Nat} (refuses : Refuses tokens s.pos closer) :
    closeAll (bound + 1) (closer :: owed) tokens s = .error (tokens.refusal s.pos closer) s := by
  rcases refuses with ended | ⟨closes, other⟩
  · change tokens.next s = .endOfFile at ended
    simp only [closeAll, kind_bind, if_pos ended]
    rfl
  · change (tokens.next s).isClosing = true at closes
    change tokens.next s ≠ closer at other
    have live : tokens.next s ≠ .endOfFile := by
      intro ended
      rw [ended] at closes
      cases closes
    simp only [closeAll, kind_bind, if_neg live, Kind.closing_of_isClosing closes, if_neg other, if_pos closes]
    rfl

-- A run of `closeAll` keeps what the stack says about the range that is skipped, up to the bracket that closes the
-- first one or to a token that cannot stand where it does.
theorem closeAll_outcome (closed : Closed tokens) {bound : Nat} (owing : Owing tokens start owed s.pos)
    (passed : Passed tokens start s.pos) (inside : s.pos < tokens.size) (enough : tokens.size ≤ s.pos + bound) :
    (∃ stop, Bracketed tokens start stop ∧ closeAll bound owed tokens s = .ok () (s.moved stop)) ∨
      ∃ stop closer, FirstMisfit tokens start stop closer ∧
        closeAll bound owed tokens s = .error (tokens.refusal stop closer) (s.moved stop) := by
  induction bound generalizing s owed with
  | zero => omega
  | succ bound ih =>
    cases owed with
    | nil => cases owing
    | cons closer outer =>
      by_cases refuses : Refuses tokens s.pos closer
      · exact .inr ⟨s.pos, closer, passed.firstMisfit owing refuses, closeAll_refused refuses⟩
      · have live : tokens.next s ≠ .endOfFile := fun ended => refuses (.inl ended)
        have room := closed.inside live
        have further := passed.step owing refuses
        -- All three moves go on from the next token and differ in what is owed there.
        have next {owed : List Kind} (owing : Owing tokens start owed (s.pos + 1)) :=
          ih (s := s.moved (s.pos + 1)) owing further room (by rw [State.moved_pos]; omega)
        cases opener : (tokens.next s).closing? with
        | some inner =>
          rw [closeAll_open closed bound opener]
          exact next (owing.opened opener)
        | none =>
          by_cases shut : tokens.next s = closer
          · rw [closeAll_close closed owing.closes bound shut]
            cases outer with
            | nil => exact .inl ⟨s.pos + 1, owing.last shut, closeAll_nil bound⟩
            | cons wanted outer => exact next (owing.shut shut)
          · have notCloser : (tokens.next s).isClosing = false := by
              cases closes : (tokens.next s).isClosing with
              | false => rfl
              | true => exact absurd (.inr ⟨closes, shut⟩) refuses
            have plain : (tokens.next s).isPlain true = true := by
              simp [Kind.isPlain, opener, notCloser, live]
            rw [closeAll_plain closed owing.closes bound plain]
            exact next (owing.plain plain)

theorem balanced_outcome (closed : Closed tokens) (opener : (tokens.next s).closing? = some closer) :
    (∃ stop, Bracketed tokens s.pos stop ∧ balanced tokens s = .ok () (s.moved stop)) ∨
      ∃ stop closer, FirstMisfit tokens s.pos stop closer ∧
        balanced tokens s = .error (tokens.refusal stop closer) (s.moved stop) := by
  have live := (Kind.ne_end_of_closing opener).1
  simp only [balanced, kind_bind, opener, skip_bind, closed.step_eq live, bounded]
  have owing : Owing tokens s.pos [closer] (s.moved (s.pos + 1)).pos := .first opener .nil
  have passed : Passed tokens s.pos (s.moved (s.pos + 1)).pos := fun i after before => by
    rw [State.moved_pos] at before
    omega
  exact closeAll_outcome closed owing passed (closed.inside live) (by omega)

theorem balanced_bracketed (closed : Closed tokens) (bracketed : Bracketed tokens s.pos stop) :
    balanced tokens s = .ok () (s.moved stop) := by
  obtain ⟨closer, last, opener, inner, shut, rfl⟩ := bracketed
  exact balanced_nested closed opener inner shut

-- Skipping takes a bracketed range if there is one, and otherwise stops at the first token that rules one out.
theorem balanced_recognises (closed : Closed tokens) (s : State) (opener : (tokens.next s).closing?.isSome = true) :
    ((∃ t, balanced tokens s = .ok () t) ↔ ∃ stop, Bracketed tokens s.pos stop) ∧
      (∀ t, balanced tokens s = .ok () t →
        (∀ stop, Bracketed tokens s.pos stop ↔ stop = t.pos) ∧ t.nextId = s.nextId ∧ t.catalog = s.catalog) ∧
      ∀ error t, balanced tokens s = .error error t →
        (∃ closer, FirstMisfit tokens s.pos t.pos closer ∧ error = tokens.refusal t.pos closer) ∧
          t.nextId = s.nextId ∧ t.catalog = s.catalog := by
  obtain ⟨closer, opener⟩ := Option.isSome_iff_exists.mp opener
  rcases balanced_outcome closed opener with ⟨stop, bracketed, ran⟩ | ⟨stop, wanted, misfit, failed⟩
  · refine ⟨⟨fun _ => ⟨stop, bracketed⟩, fun _ => ⟨_, ran⟩⟩, ?_, ?_⟩
    · intro t skipped
      cases ran.symm.trans skipped
      refine ⟨fun other => ⟨fun also => ?_, fun same => same ▸ bracketed⟩, rfl, rfl⟩
      cases ran.symm.trans (balanced_bracketed closed also)
      rfl
    · intro error t failed
      cases ran.symm.trans failed
  · refine ⟨⟨?_, ?_⟩, ?_, ?_⟩
    · rintro ⟨t, skipped⟩
      cases failed.symm.trans skipped
    · rintro ⟨other, bracketed⟩
      cases failed.symm.trans (balanced_bracketed closed bracketed)
    · intro t skipped
      cases failed.symm.trans skipped
    · intro error t stopped
      cases failed.symm.trans stopped
      exact ⟨⟨wanted, misfit, rfl⟩, rfl, rfl⟩

-- `\x7b ( a [ ] ) ]`
def unevenBrackets : Stream :=
  .mk <| [(.openCurly, "\x7b"), (.openParen, "("), (.identifier, "a"), (.openBracket, "["), (.closeBracket, "]"),
    (.closeParen, ")"), (.closeBracket, "]"), (.endOfFile, "EOF")].map fun entry =>
      ⟨entry.1, entry.2, .point (.first "main.sc")⟩

theorem balanced_recognises_unevenBrackets :
    Closed unevenBrackets ∧ (∀ stop, Bracketed unevenBrackets 1 stop ↔ stop = 6) ∧
      (∀ stop, ¬Bracketed unevenBrackets 0 stop) ∧ FirstMisfit unevenBrackets 0 6 .closeCurly ∧
      balanced unevenBrackets ⟨0, 0, .initial⟩ =
        .error ⟨.unexpected "]" ["CloseCurly"], .first "main.sc"⟩ ⟨6, 0, .initial⟩ := by
  have closed : Closed unevenBrackets := by unfold Closed; decide
  have skipped : balanced unevenBrackets ⟨1, 0, .initial⟩ = .ok () ⟨6, 0, .initial⟩ := rfl
  have failed : balanced unevenBrackets ⟨0, 0, .initial⟩ =
      .error ⟨.unexpected "]" ["CloseCurly"], .first "main.sc"⟩ ⟨6, 0, .initial⟩ := rfl
  obtain ⟨-, located, -⟩ := balanced_recognises closed ⟨1, 0, .initial⟩ (by decide)
  obtain ⟨found, -, stops⟩ := balanced_recognises closed ⟨0, 0, .initial⟩ (by decide)
  obtain ⟨⟨closer, misfit, text⟩, -⟩ := stops _ _ failed
  have owed : closer = .closeCurly := by
    simp only [Stream.refusal, Error.mk.injEq, Cause.unexpected.injEq, List.cons.injEq] at text
    have named : "CloseCurly" = closer.name := text.1.2.1
    revert named
    cases closer <;> decide
  refine ⟨closed, (located _ skipped).1, ?_, owed ▸ misfit, failed⟩
  intro stop bracketed
  obtain ⟨t, ran⟩ := found.mpr ⟨stop, bracketed⟩
  cases failed.symm.trans ran

end TypedScript.Grammar
