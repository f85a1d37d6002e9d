import TypedScript.Proofs.Catalog.Grounding
import TypedScript.Proofs.Grammar.Twins
import TypedScript.Proofs.Grammar.Skipping

namespace TypedScript

def Declaration.owner : Declaration → Owner
  | .global _ => .global
  | .function _ => .function
  | .enumeration _ => .enumeration
  | .delegate _ => .delegate
  | .struct _ => .struct

def Cause.IsNaming : Cause → Prop
  | .nameTaken _ _ | .badName _ => True
  | _ => False

theorem Catalog.claim_error {catalog left : Catalog} {name : String} {owner : Owner} {place : Position}
    {error : Error} (rejected : catalog.claim name owner place = .error error left) : error.cause.IsNaming := by
  obtain ⟨required, -⟩ := claim_error_iff.mp rejected
  unfold Catalog.requireFree Catalog.requireValid at required
  split at required
  · cases owned : catalog.owner? name with
    | none =>
      simp only [owned, bind, Except.bind] at required
      cases required
    | some owner =>
      simp only [owned, bind, Except.bind] at required
      cases required
      trivial
  · cases required
    trivial

namespace Grammar

variable {tokens : Stream} {s t m n : State}

-- The answers that an outline may give where a declaration stands: the same declaration with the same end,
-- or a failure that is due to the name.
inductive Outlined (decl : Declaration) (stop : Nat) : EStateM.Result Error State (Owner × String) → Prop where
  | found {entry : Owner × String} {left : State} (same : entry = (decl.owner, decl.name))
      (ends : left.pos = stop) : Outlined decl stop (.ok entry left)
  | rejected {error : Error} {left : State} (naming : error.cause.IsNaming) :
      Outlined decl stop (.error error left)

theorem claim_cases (name : String) (owner : Owner) (place : Position) (tokens : Stream) (s : State) :
    (∃ error, claim name owner place tokens s = .error error s ∧ error.cause.IsNaming) ∨
      ∃ change, claim name owner place tokens s = .ok () (s.entered change) := by
  unfold claim
  cases claimed : s.catalog.claim name owner place with
  | ok value catalog => exact .inr ⟨fun _ => catalog, rfl⟩
  | error error left =>
    obtain ⟨-, rfl⟩ := Catalog.claim_error_iff.mp claimed
    exact .inl ⟨error, rfl, Catalog.claim_error claimed⟩

theorem claim_ok {name : String} {owner : Owner} {place : Position} {value : Unit}
    (ran : claim name owner place tokens s = .ok value t) :
    ∃ claimed, s.catalog.claim name owner place = .ok () claimed ∧ t = s.entered fun _ => claimed := by
  unfold claim at ran
  cases claimed : s.catalog.claim name owner place with
  | ok value catalog =>
    simp only [claimed] at ran
    cases ran
    exact ⟨catalog, rfl, rfl⟩
  | error error left =>
    simp only [claimed] at ran
    cases ran

theorem claim_pos {name : String} {owner : Owner} {place : Position} {value : Unit}
    (claimed : claim name owner place tokens s = .ok value t) : t.pos = s.pos := by
  obtain ⟨_, -, rfl⟩ := claim_ok claimed
  rfl

theorem Outlined.claim {decl : Declaration} {stop : Nat} {name : String} {owner : Owner} {place : Position}
    {rest : Unit → Rule (Owner × String)}
    (claimed : ∀ change, Outlined decl stop (rest () tokens (s.entered change))) :
    Outlined decl stop ((claim name owner place >>= rest) tokens s) := by
  rcases claim_cases name owner place tokens s with ⟨error, ran, naming⟩ | ⟨change, ran⟩
  · rw [bind_of_error ran]
    exact .rejected naming
  · rw [bind_of_ok ran]
    exact claimed change

theorem skipBody_nested (closed : Closed tokens) (opener : tokens.next s = .openCurly)
    (same : s.pos = n.pos) (inner : Nested tokens true (n.step tokens).pos m.pos)
    (shut : tokens.next m = .closeCurly) :
    skipBody tokens s = .ok () (s.moved (m.step tokens).pos) := by
  have here : tokens.next n = .openCurly := (Stream.next_congr same).symm.trans opener
  rw [closed.step_pos (by rw [here]; decide), ← same] at inner
  rw [closed.step_pos (by rw [shut]; decide)]
  simp only [skipBody, kind_bind, if_pos opener]
  exact balanced_nested closed (by rw [opener]; rfl) inner shut

section
variable (closed : Closed tokens) (same : s.pos = t.pos) {decl : Declaration}
include closed same

theorem named_outlined {keyword : Kind} {owner : Owner} (word : tokens.next s = keyword)
    (named : tokens.next (s.step tokens) = .identifier)
    (opener : tokens.next ((s.step tokens).step tokens) = .openCurly)
    (inner : Nested tokens true (((s.step tokens).step tokens).step tokens).pos m.pos)
    (closer : tokens.next m = .closeCurly) (owns : decl.owner = owner)
    (names : decl.name = (tokens.token (s.step tokens).pos).value) :
    Outlined decl (m.step tokens).pos (outlineNamed keyword owner tokens t) := by
  have started := keywordName_ok.mpr ⟨word, named, rfl, rfl⟩
  obtain ⟨n, read, kept⟩ := (Oblivious.keywordName keyword).ok started same
  unfold outlineNamed
  rw [bind_of_ok read]
  refine .claim fun change => ?_
  have opened : tokens.next (n.entered change) = .openCurly := (Stream.next_congr kept.symm).trans opener
  rw [bind_of_ok (skipBody_nested closed opened kept.symm inner closer), ← owns, ← names]
  exact .found rfl rfl

theorem struct_outlined (ran : struct tokens s = .ok decl m) :
    Outlined decl m.pos (outlineNamed .structWord .struct tokens t) := by
  obtain ⟨_, _, rfl, rfl, ⟨word, named, opener, inner, closer⟩⟩ := struct_reads ran
  have body := inner.nested fun _ _ _ _ line => line.nested closed
  exact named_outlined closed same word named opener body closer rfl rfl

theorem enumeration_outlined (ran : enumeration tokens s = .ok decl m) :
    Outlined decl m.pos (outlineNamed .enumWord .enumeration tokens t) := by
  obtain ⟨_, _, rfl, rfl, ⟨word, named, opener, inner, closer⟩⟩ := enumeration_reads ran
  have body := inner.nested fun _ _ _ _ member => member.nested closed
  exact named_outlined closed same word named opener body closer rfl rfl

omit closed in
theorem delegate_outlined (ran : delegate tokens s = .ok decl m) :
    Outlined decl m.pos (outlineDelegate tokens t) := by
  simp only [delegate, bind_ok, enter_bind, pure_ok] at ran
  obtain ⟨header, l, read, rfl, rfl⟩ := ran
  obtain ⟨n, read, kept⟩ := Oblivious.delegateHead.ok read same
  simp only [outlineDelegate, place_bind]
  rw [bind_of_ok read]
  refine .claim fun change => ?_
  rw [enter_bind]
  exact .found rfl kept.symm

theorem function_outlined (ran : function tokens s = .ok decl m) :
    Outlined decl m.pos (outlineFunction tokens t) := by
  simp only [function, place_bind, bind_ok, enter_bind, spanSince_bind, pure_ok] at ran
  obtain ⟨header, l, read, ⟨body, span⟩, _, inside, rfl, rfl⟩ := ran
  obtain ⟨_, opener, inner, closer, rfl, -⟩ := block_reads inside
  obtain ⟨n, read, kept⟩ := Oblivious.functionHead.ok read same
  unfold outlineFunction
  rw [bind_of_ok read]
  refine .claim fun change => ?_
  rw [enter_bind]
  generalize left : (State.entered _ change).entered _ = k
  have after : k.pos = l.pos := by
    rw [← left]
    exact kept.symm
  have opened := (Stream.next_congr after).trans opener
  rw [bind_of_ok (skipBody_nested closed opened after (inner.nested closed) closer)]
  exact .found rfl rfl

omit same in
theorem skipInitializer_nested {value : Option Expr} (given : ReadsInitializer tokens value s m)
    (ended : tokens.next m = .semicolon) (kept : s.pos = t.pos) :
    skipInitializer tokens t = .ok () (t.moved m.pos) := by
  have here : tokens.next s = tokens.next t := Stream.next_congr kept
  cases given with
  | none =>
    have other : tokens.next t ≠ .assign := by rw [← here, ended]; decide
    simp only [skipInitializer, kind_bind, if_neg other, if_pos (here.symm.trans ended)]
    rw [kept]
    rfl
  | some sign inner =>
    have nested := inner.1.nested closed
    have live : tokens.next t ≠ .endOfFile := by rw [← here, sign]; decide
    have inside : m.pos + 1 < tokens.size := closed.inside (show tokens.next m ≠ _ by rw [ended]; decide)
    rw [closed.step_pos (by rw [sign]; decide), kept] at nested
    simp only [skipInitializer, kind_bind, if_pos (here.symm.trans sign), skip_bind, closed.step_eq live]
    exact toSemicolon_nested closed nested rfl ended (by omega) rfl

theorem global_outlined {type : Ty} {name : Token} (looked : typedName tokens t = .ok (type, name) n)
    (ran : global tokens s = .ok decl m) : Outlined decl m.pos (outlineGlobal type name tokens n) := by
  simp only [global, bindingLine, binding, place_bind, bind_ok, expect_ok, enter_bind, spanSince_bind,
    pure_ok] at ran
  obtain ⟨_, _, ⟨_, _, ⟨declared, l, typed, found, k, bound, value, _, given, rfl, rfl⟩, _, _,
    ⟨ended, -, rfl⟩, rfl, rfl⟩, rfl, rfl⟩ := ran
  obtain ⟨-, rfl, rfl⟩ := boundName_ok bound
  simp only [typedName, bind_ok, expect_ok, pure_ok] at looked
  obtain ⟨_, _, again, _, _, ⟨-, rfl, rfl⟩, twice, rfl⟩ := looked
  cases twice
  -- Both readings of the type end at the same token, which is the name.
  obtain ⟨_, typed, kept⟩ := (Oblivious.typeName .lowest).ok typed same
  rw [again] at typed
  cases typed
  unfold outlineGlobal
  rw [← kept]
  refine .claim fun change => ?_
  rw [enter_bind]
  generalize left : (State.entered _ change).entered _ = k
  have after : (l.step tokens).pos = k.pos := by
    rw [← left]
    exact State.step_pos_congr kept
  rw [bind_of_ok (skipInitializer_nested closed (initializer_reads given) ended after)]
  rw [bind_of_ok (expect_ok (s := k.moved _) |>.mpr ⟨ended, rfl, rfl⟩)]
  exact .found rfl (State.step_pos_congr rfl)

theorem typedDeclaration_outlined (ran : typedDeclaration tokens s = .ok decl m) :
    Outlined decl m.pos (outlineTyped tokens t) := by
  simp only [typedDeclaration, index_bind, bind_ok, kind_bind, seek_bind] at ran
  obtain ⟨⟨type, name⟩, l, looked, ran⟩ := ran
  obtain ⟨n, looked, kept⟩ := Oblivious.typedName.ok looked same
  simp only [outlineTyped, index_bind]
  rw [bind_of_ok looked, kind_bind, ← Stream.next_congr kept]
  split at ran
  · rename_i opened
    rw [if_pos opened, seek_bind]
    exact function_outlined (s := l.moved s.pos) (t := n.moved t.pos) closed same ran
  · rename_i other
    rw [if_neg other]
    exact global_outlined (s := l.moved s.pos) closed same looked ran

-- Phase by phase: where a declaration can be parsed, an outline finds the same declaration, unless its name
-- is rejected. The two start from states that agree on the position alone.
theorem declaration_outlined (ran : declaration tokens s = .ok decl m) :
    Outlined decl m.pos (outlineDeclaration tokens t) := by
  simp only [declaration, kind_bind] at ran
  simp only [outlineDeclaration, kind_bind, ← Stream.next_congr same]
  generalize tokens.next s = word at ran
  cases word with
  | structWord => exact struct_outlined closed same ran
  | enumWord => exact enumeration_outlined closed same ran
  | delegateWord => exact delegate_outlined same ran
  | _ => exact typedDeclaration_outlined closed same ran

end

end Grammar

end TypedScript
