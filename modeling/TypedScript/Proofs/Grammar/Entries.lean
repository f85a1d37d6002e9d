import TypedScript.Proofs.Grammar.Agreement
import TypedScript.Proofs.Grammar.Landing

namespace TypedScript.Grammar

variable {tokens : Stream} {s t m : State} {found : List Entry} {bound : Nat}

def Tiles : Nat → List Entry → Nat → Prop
  | start, [], stop => start = stop
  | start, entry :: others, stop =>
    entry.start = start ∧ entry.start < entry.stop ∧ Tiles entry.stop others stop

def Found (tokens : Stream) (entry : Entry) : Prop :=
  ∃ s t : State, outlineDeclaration tokens s = .ok (entry.owner, entry.name) t ∧
    s.pos = entry.start ∧ t.pos = entry.stop

section
variable (closed : Closed tokens)
include closed

theorem skipBody_within (ran : skipBody tokens s = .ok () t) : s.pos < t.pos ∧ t.pos < tokens.size := by
  obtain ⟨live, skips⟩ := skipBody_skips ran
  have further := closed.step_pos live
  have room : s.pos + 1 < tokens.size := closed.inside live
  have rest := skips.within closed (by omega)
  omega

theorem outlineNamed_within {keyword : Kind} {owner : Owner} {entry : Owner × String}
    (ran : outlineNamed keyword owner tokens s = .ok entry t) (live : tokens.next s ≠ .endOfFile) :
    s.pos < t.pos ∧ t.pos < tokens.size := by
  simp only [outlineNamed, bind_ok, keywordName_ok, pure_ok] at ran
  obtain ⟨_, _, ⟨-, named, rfl, rfl⟩, _, _, claimed, _, _, skipped, -, rfl⟩ := ran
  have rest := skipBody_within closed skipped
  have first := closed.step_pos live
  have second := closed.step_pos (s := s.step tokens) (by rw [named]; decide)
  rw [claim_pos claimed] at rest
  omega

theorem outlineDelegate_within {entry : Owner × String} (ran : outlineDelegate tokens s = .ok entry t) :
    s.pos < t.pos ∧ t.pos < tokens.size := by
  simp only [outlineDelegate, place_bind, bind_ok, enter_bind, pure_ok] at ran
  obtain ⟨_, _, header, _, _, claimed, -, rfl⟩ := ran
  obtain ⟨m, inner, ended, rfl⟩ := (delegateHead_reads header).nested closed
  have live : tokens.next m ≠ .endOfFile := by rw [ended]; decide
  have last := closed.step_pos live
  have room : m.pos + 1 < tokens.size := closed.inside live
  have before := inner.le
  rw [State.entered_pos, claim_pos claimed]
  omega

theorem outlineFunction_within {entry : Owner × String} (ran : outlineFunction tokens s = .ok entry t) :
    s.pos < t.pos ∧ t.pos < tokens.size := by
  simp only [outlineFunction, bind_ok, enter_bind, pure_ok] at ran
  obtain ⟨_, _, header, _, _, claimed, _, _, skipped, -, rfl⟩ := ran
  have before := ((functionHead_reads header).nested closed).le
  have rest := skipBody_within closed skipped
  rw [State.entered_pos, claim_pos claimed] at rest
  omega

theorem outlineGlobal_within {type : Ty} {name : Token} {entry : Owner × String}
    (ran : outlineGlobal type name tokens s = .ok entry t) (inside : s.pos < tokens.size) :
    s.pos < t.pos ∧ t.pos < tokens.size := by
  simp only [outlineGlobal, bind_ok, enter_bind, expect_ok, pure_ok] at ran
  obtain ⟨_, _, claimed, _, m, skipped, _, _, ⟨ended, -, rfl⟩, -, rfl⟩ := ran
  have kept := claim_pos claimed
  have rest := (skipInitializer_skips skipped).within closed (by rw [State.entered_pos]; omega)
  rw [State.entered_pos, kept] at rest
  have live : tokens.next m ≠ .endOfFile := by rw [ended]; decide
  have last := closed.step_pos live
  have room : m.pos + 1 < tokens.size := closed.inside live
  omega

theorem outlineTyped_within {entry : Owner × String} (ran : outlineTyped tokens s = .ok entry t) :
    s.pos < t.pos ∧ t.pos < tokens.size := by
  simp only [outlineTyped, index_bind, bind_ok, kind_bind] at ran
  obtain ⟨⟨type, name⟩, _, looked, ran⟩ := ran
  obtain ⟨m, declared, found, -, rfl⟩ := typedName_reads looked
  split at ran
  · rw [seek_bind] at ran
    exact outlineFunction_within (s := (m.step tokens).moved s.pos) closed ran
  · have live : tokens.next m ≠ .endOfFile := by rw [found]; decide
    have further := closed.step_pos live
    have room : m.pos + 1 < tokens.size := closed.inside live
    have before := (declared.nested closed).le
    have rest := outlineGlobal_within closed ran (by omega)
    omega

theorem outlineDeclaration_within {entry : Owner × String} (ran : outlineDeclaration tokens s = .ok entry t)
    (live : tokens.next s ≠ .endOfFile) : s.pos < t.pos ∧ t.pos < tokens.size := by
  simp only [outlineDeclaration, kind_bind] at ran
  generalize tokens.next s = word at ran
  cases word with
  | structWord => exact outlineNamed_within closed ran live
  | enumWord => exact outlineNamed_within closed ran live
  | delegateWord => exact outlineDelegate_within closed ran
  | _ => exact outlineTyped_within closed ran

theorem entries_tile (ran : entries bound tokens s = .ok found t) (inside : s.pos < tokens.size) :
    Tiles s.pos found (tokens.size - 1) ∧ ∀ entry ∈ found, Found tokens entry := by
  induction bound generalizing s found with
  | zero => exact (giveUp_ok.mp ran).elim
  | succ bound ih =>
    simp only [entries, more_bind, Bool.and_eq_true, decide_eq_true_eq] at ran
    split at ran
    · rename_i left
      simp only [index_bind, bind_ok, pure_ok] at ran
      obtain ⟨⟨owner, name⟩, m, first, others, n, rest, rfl, rfl⟩ := ran
      obtain ⟨further, room⟩ := outlineDeclaration_within closed first left.2
      obtain ⟨tiles, each⟩ := ih rest room
      refine ⟨⟨rfl, further, tiles⟩, ?_⟩
      intro entry member
      rcases List.mem_cons.mp member with rfl | later
      · exact ⟨s, m, first, rfl, rfl⟩
      · exact each entry later
    · rename_i stopped
      obtain ⟨rfl, -⟩ := pure_ok.mp ran
      have ended : tokens.next s = .endOfFile := Decidable.of_not_not fun live => stopped ⟨inside, live⟩
      have last : tokens.size ≤ s.pos + 1 := closed.ended_iff.mp ended
      exact ⟨show s.pos = _ by omega, nofun⟩

theorem Found.ends {entry : Entry} {decl : Declaration} (found : Found tokens entry) (start : s.pos = entry.start)
    (parsed : declaration tokens s = .ok decl m) : m.pos = entry.stop := by
  obtain ⟨before, after, outlined, begins, stop⟩ := found
  have agrees := declaration_outlined (t := before) closed (start.trans begins.symm) parsed
  rw [outlined] at agrees
  cases agrees with
  | found _ ends => exact ends.symm.trans stop

-- Parsing ends every declaration where the outline does, so that all that can fail is a declaration in itself.
theorem declarations_failed {error : Error} (each : ∀ entry ∈ found, Found tokens entry)
    (failed : declarations found tokens s = .error error t) :
    ∃ entry ∈ found, ∃ m : State, m.pos = entry.start ∧ declaration tokens m = .error error t := by
  induction found generalizing s with
  | nil => cases failed
  | cons first others ih =>
    obtain ⟨here, later⟩ := List.forall_mem_cons.mp each
    simp only [declarations, seek_bind] at failed
    rcases bind_error.mp failed with failed | ⟨decl, m, parsed, failed⟩
    · exact ⟨first, List.mem_cons_self, s.moved first.start, rfl, failed⟩
    · rw [index_bind, if_pos (here.ends closed rfl parsed)] at failed
      rcases bind_error.mp failed with failed | ⟨_, _, -, failed⟩
      · obtain ⟨entry, member, rest⟩ := ih later failed
        exact ⟨entry, List.mem_cons_of_mem _ member, rest⟩
      · cases failed

omit closed in
theorem wholeFile_failed {error : Error} (failed : wholeFile found tokens s = .error error t) :
    declarations found tokens s = .error error t := by
  rcases bind_error.mp failed with failed | ⟨_, _, -, failed⟩
  · exact failed
  · cases failed

end

theorem Stream.token_zero {kind : Kind} (marked : tokens.kindAt 0 = kind) : (tokens.token 0).kind = kind := by
  unfold Stream.kindAt at marked
  unfold Stream.token
  rw [Nat.zero_min]
  cases first : tokens[0]? with
  | some token =>
    rw [first] at marked
    exact marked
  | none =>
    rw [first] at marked
    exact marked

def misplaced (name : String) : String :=
  "declaration of `" ++ name ++ "` ended in a different place than its signature"

theorem misplaced_head (name : String) : (misplaced name).toList.head? = some 'd' := by
  have first : "declaration of `".toList.head? = some 'd' := by decide
  unfold misplaced
  rw [String.toList_append, String.toList_append, List.append_assoc, List.head?_append, first]
  rfl

theorem Fault.placed {integers : Prop} {error : Error} (fault : Fault tokens integers error) (text name : String) :
    error.cause ≠ .unexpectedNear text (misplaced name) := by
  intro same
  cases fault with
  | unnamed =>
    injection same with _ message
    have other : "expected identifier during variable declaration".toList.head? = some 'e' := by decide
    have first := misplaced_head name
    rw [← message] at first
    cases first.symm.trans other
  | claim _ rejected =>
    have naming := Catalog.claim_error rejected
    rw [same] at naming
    exact naming
  | _ => cases same

theorem Tiles.within {start stop : Nat} (tiles : Tiles start found stop) :
    start ≤ stop ∧ ∀ entry ∈ found, entry.start < stop := by
  induction found generalizing start with
  | nil => exact ⟨Nat.le_of_eq tiles, List.forall_mem_nil _⟩
  | cons entry others ih =>
    obtain ⟨rfl, further, rest⟩ := tiles
    obtain ⟨ends, each⟩ := ih rest
    refine ⟨by omega, List.forall_mem_cons.mpr ⟨by omega, each⟩⟩

-- The outline of a file and its parsing agree on every declaration, whatever each has in its catalog. So
-- the entries of an outline tile the file, and parsing by them never finds one misplaced.
theorem outline_agrees (marked : tokens.kindAt 0 = .file) (closed : Closed tokens) :
    (∀ (i id other : Nat) (catalog elsewhere : Catalog) (decl : Declaration) (m : State),
      declaration tokens ⟨i, id, catalog⟩ = .ok decl m →
        Outlined decl m.pos (outlineDeclaration tokens ⟨i, other, elsewhere⟩)) ∧
    ∀ (id : Nat) (catalog : Catalog) (found : List Entry) (n : State),
      outline tokens (.start tokens id catalog) = .ok found n →
        Tiles 1 found (tokens.size - 1) ∧
        ∀ (other : Nat) (elsewhere : Catalog) (error : Error) (m : State),
          wholeFile found tokens (.start tokens other elsewhere) = .error error m →
            ∀ text name : String, error.cause ≠ .unexpectedNear text (misplaced name) := by
  refine ⟨fun i id other catalog elsewhere decl m ran => ?_, ?_⟩
  · exact declaration_outlined (s := ⟨i, id, catalog⟩) (t := ⟨i, other, elsewhere⟩) closed rfl ran
  intro id catalog found n outlined
  have start : (State.start tokens id catalog).pos = 1 := by
    show Stream.first tokens = 1
    rw [Stream.first, if_pos marked]
  have room : 1 < tokens.size := closed.inside (i := 0) (by rw [Stream.token_zero marked]; decide)
  obtain ⟨tiles, each⟩ := entries_tile closed outlined (by rw [start]; exact room)
  rw [start] at tiles
  refine ⟨tiles, ?_⟩
  intro other elsewhere error m failed
  obtain ⟨entry, member, before, begins, failed⟩ := declarations_failed closed each (wholeFile_failed failed)
  have within := tiles.within.2 entry member
  have lands := declaration_lands closed (s := before) (by omega)
  rw [failed] at lands
  cases lands with
  | error _ fault => exact fault.placed

-- `num x = (1);`
def oneGlobal : Stream :=
  .mk <| [(.file, "main.sc"), (.numWord, "num"), (.identifier, "x"), (.assign, "="), (.openParen, "("),
    (.number, "1"), (.closeParen, ")"), (.semicolon, ";"), (.endOfFile, "EOF")].map fun (kind, text) =>
      ⟨kind, text, .point (.first "main.sc")⟩

theorem oneGlobal_agrees :
    oneGlobal.kindAt 0 = .file ∧ Closed oneGlobal ∧
      (∃ decl m, declaration oneGlobal ⟨1, 0, .initial⟩ = .ok decl m ∧ m.pos = 8 ∧
        Outlined decl 8 (outlineDeclaration oneGlobal ⟨1, 5, .initial⟩)) ∧
      Tiles 1 [⟨.global, "x", 1, 8⟩] 8 := by
  have marked : oneGlobal.kindAt 0 = .file := by decide
  have closed : Closed oneGlobal := by unfold Closed; decide
  have parsed : endsIn (fun _ m => m.pos == 8) (declaration oneGlobal ⟨1, 0, .initial⟩) = true := by
    decide +kernel
  have outlined : endsIn (fun found _ => decide (found = [⟨.global, "x", 1, 8⟩]))
      (outline oneGlobal (.start oneGlobal 0 .initial)) = true := by decide +kernel
  obtain ⟨decl, m, parsed, ends⟩ := endsIn_ok parsed
  obtain ⟨found, n, outlined, same⟩ := endsIn_ok outlined
  obtain ⟨agree, tile⟩ := outline_agrees marked closed
  have stop : m.pos = 8 := eq_of_beq ends
  have tiles := (tile 0 .initial found n outlined).1
  rw [of_decide_eq_true same, show oneGlobal.size - 1 = 8 by decide] at tiles
  have outcome := agree 1 0 5 .initial .initial decl m parsed
  rw [stop] at outcome
  exact ⟨marked, closed, ⟨decl, m, parsed, stop, outcome⟩, tiles⟩

end TypedScript.Grammar
