import TypedScript.Proofs.Token.Lexemes

namespace TypedScript

namespace Position

-- The place that comes after some characters of a file: a line for every line feed among them, and a column
-- for every character since the last one.
def behind (file : String) (before : List Char) : Position :=
  ⟨1 + before.count '\n', 1 + (before.reverse.takeWhile (· != '\n')).length, file⟩

theorem behind_step (file : String) (before : List Char) (c : Char) :
    (behind file before).step c = behind file (before ++ [c]) := by
  unfold step behind
  split
  · rename_i feed
    subst feed
    simp [Nat.add_assoc]
  · rename_i other
    simp [other, Nat.add_assoc]

theorem behind_after (file : String) (before text : List Char) :
    (behind file before).after text = behind file (before ++ text) := by
  induction text generalizing before with
  | nil => rw [after_nil, List.append_nil]
  | cons c rest ih =>
    show ((behind file before).step c).after rest = _
    rw [behind_step, ih, List.append_assoc, List.singleton_append]

def Before (left right : Position) : Prop :=
  left.line < right.line ∨ left.line = right.line ∧ left.column < right.column

def UpTo (left right : Position) : Prop := left = right ∨ left.Before right

theorem Before.trans {first second third : Position} (left : first.Before second) (right : second.Before third) :
    first.Before third := by
  unfold Before at *
  omega

theorem UpTo.refl (place : Position) : place.UpTo place := .inl rfl

theorem UpTo.trans {first second third : Position} (left : first.UpTo second) (right : second.UpTo third) :
    first.UpTo third := by
  rcases left with rfl | left
  · exact right
  · rcases right with rfl | right
    · exact .inr left
    · exact .inr (left.trans right)

theorem step_before (place : Position) (c : Char) : place.Before (place.step c) := by
  unfold step
  split
  · exact .inl (Nat.lt_succ_self _)
  · exact .inr ⟨rfl, Nat.lt_succ_self _⟩

theorem after_upTo (place : Position) (text : List Char) : place.UpTo (place.after text) := by
  induction text generalizing place with
  | nil => exact .refl place
  | cons c rest ih => exact .trans (.inr (place.step_before c)) (ih (place.step c))

theorem after_before (place : Position) {text : List Char} (some : text ≠ []) : place.Before (place.after text) := by
  cases text with
  | nil => exact absurd rfl some
  | cons c rest =>
    rcases (place.step c).after_upTo rest with same | later
    · rw [show place.after (c :: rest) = (place.step c).after rest from rfl, ← same]
      exact place.step_before c
    · exact (place.step_before c).trans later

theorem behind_upTo (file : String) (before text : List Char) :
    (behind file before).UpTo (behind file (before ++ text)) := by
  rw [← behind_after]
  exact after_upTo _ text

theorem behind_before (file : String) (before : List Char) {text : List Char} (some : text ≠ []) :
    (behind file before).Before (behind file (before ++ text)) := by
  rw [← behind_after]
  exact after_before _ some

end Position

structure Segment where
  text : List Char
  token : Option (Kind × String)

namespace Segment

def Valid (segment : Segment) : Prop :=
  match segment.token with
  | none => Trivia segment.text
  | some (kind, value) => Written segment.text kind value

def token? (file : String) (before : List Char) (segment : Segment) : Option Token :=
  segment.token.map fun (kind, value) =>
    ⟨kind, value, ⟨.behind file before, .behind file (before ++ segment.text)⟩⟩

def tokens (file : String) : List Char → List Segment → List Token
  | _, [] => []
  | before, segment :: rest => (segment.token? file before).toList ++ tokens file (before ++ segment.text) rest

end Segment

namespace Token

-- What scanning does from a cursor on, said without a bound on its steps.
inductive Scans : Cursor → List Token → Prop where
  | done {place : Position} : Scans ⟨place, []⟩ [endMarker place]
  | step {cursor : Cursor} {pattern : Pattern} {cut : Cut} {taken : Option (Kind × String)} {tokens : List Token}
      (found : Pattern.front? cursor.rest = some (pattern, cut)) (read : pattern.read cut = .ok taken)
      (more : Scans (cursor.past cut) tokens) :
      Scans cursor ((taken.map fun (kind, value) =>
        ⟨kind, value, ⟨cursor.place, (cursor.past cut).place⟩⟩).toList ++ tokens)

theorem past_length {cursor : Cursor} {pattern : Pattern} {cut : Cut}
    (found : Pattern.front? cursor.rest = some (pattern, cut)) : (cursor.past cut).rest.length < cursor.rest.length := by
  obtain ⟨-, whole, some⟩ := Pattern.front?_takes found
  have taken : 0 < cut.1.length := List.length_pos_iff.mpr some
  rw [← whole, List.length_append]
  exact Nat.lt_add_of_pos_left taken

theorem scans_of_scanFrom {bound : Nat} {cursor : Cursor} {tokens : List Token}
    (enough : cursor.rest.length ≤ bound) (scanned : scanFrom bound cursor = .ok tokens) : Scans cursor tokens := by
  induction bound generalizing cursor tokens with
  | zero =>
    obtain ⟨place, rest⟩ := cursor
    cases List.length_eq_zero_iff.mp (Nat.le_zero.mp enough)
    cases scanned
    exact .done
  | succ bound ih =>
    unfold scanFrom at scanned
    split at scanned
    · rename_i ended
      obtain ⟨place, rest⟩ := cursor
      cases List.isEmpty_iff.mp ended
      cases scanned
      exact .done
    · split at scanned
      · cases scanned
      · rename_i pattern cut found
        have less := past_length found
        split at scanned
        · cases scanned
        · rename_i read
          exact .step found read (ih (by omega) scanned)
        · rename_i kind value read
          obtain ⟨rest, inner, same⟩ := except_bind_ok.mp scanned
          cases same
          exact .step found read (ih (by omega) inner)

theorem scanFrom_of_scans {bound : Nat} {cursor : Cursor} {tokens : List Token}
    (enough : cursor.rest.length ≤ bound) (scans : Scans cursor tokens) : scanFrom bound cursor = .ok tokens := by
  induction scans generalizing bound with
  | done => cases bound <;> rfl
  | @step cursor pattern cut taken tokens found read more ih =>
    have less := past_length found
    have going : ¬cursor.atEnd = true := by
      intro ended
      rw [List.isEmpty_iff.mp ended] at less
      exact Nat.not_lt_zero _ less
    cases bound with
    | zero => omega
    | succ bound =>
      rw [scanFrom, if_neg going]
      cases taken with
      | none =>
        simp only [found, read]
        exact ih (by omega)
      | some taken =>
        simp only [found, read]
        exact except_bind_ok.mpr ⟨tokens, ih (by omega), rfl⟩

theorem scan_ok {source file : String} {tokens : List Token} :
    scan source file = .ok tokens ↔
      ∃ rest, Scans (.start source file) rest ∧ tokens = fileMarker file :: rest := by
  unfold scan
  rw [except_bind_ok]
  constructor
  · rintro ⟨rest, scanned, same⟩
    cases same
    exact ⟨rest, scans_of_scanFrom (Nat.le_refl _) scanned, rfl⟩
  · rintro ⟨rest, scans, rfl⟩
    exact ⟨rest, scanFrom_of_scans (Nat.le_refl _) scans, rfl⟩

-- The stretches that are read from a place on are the rest of the source, and their tokens are the tokens.
theorem Scans.segments {file : String} {before rest : List Char} {tokens : List Token}
    (scans : Scans ⟨.behind file before, rest⟩ tokens) :
    ∃ segments : List Segment, segments.flatMap Segment.text = rest ∧
      (∀ segment ∈ segments, segment.Valid ∧ segment.text ≠ []) ∧
      tokens = Segment.tokens file before segments ++ [endMarker (.behind file (before ++ rest))] := by
  generalize start : Cursor.mk (.behind file before) rest = cursor at scans
  induction scans generalizing before rest with
  | done =>
    cases start
    exact ⟨[], rfl, nofun, by rw [List.append_nil]; rfl⟩
  | @step _ pattern cut taken tokens found read more ih =>
    subst start
    obtain ⟨takes, whole, some⟩ := Pattern.front?_takes found
    have moved : (Cursor.mk (.behind file before) rest).past cut = ⟨.behind file (before ++ cut.1), cut.2⟩ :=
      congrArg (Cursor.mk · cut.2) (Position.behind_after file before cut.1)
    have valid : Segment.Valid ⟨cut.1, taken⟩ := by
      cases taken with
      | none => exact Pattern.read_trivia takes read
      | some taken => exact Pattern.read_written takes (Pattern.front?_ok found).1 read
    obtain ⟨segments, text, each, rfl⟩ := ih moved.symm
    refine ⟨⟨cut.1, taken⟩ :: segments, ?_, List.forall_mem_cons.mpr ⟨⟨valid, some⟩, each⟩, ?_⟩
    · rw [List.flatMap_cons, text]
      exact whole
    · rw [List.append_assoc, whole, moved, Segment.tokens, List.append_assoc]
      rfl

end Token

namespace Segment

open Position

theorem tokens_within {file : String} {before : List Char} {segments : List Segment}
    (some : ∀ segment ∈ segments, segment.text ≠ []) :
    ∀ token ∈ tokens file before segments, (behind file before).UpTo token.span.start ∧
      token.span.start.Before token.span.stop ∧
      token.span.stop.UpTo (behind file (before ++ segments.flatMap Segment.text)) := by
  induction segments generalizing before with
  | nil => nofun
  | cons segment rest ih =>
    obtain ⟨here, others⟩ := List.forall_mem_cons.mp some
    intro token member
    rw [List.flatMap_cons, ← List.append_assoc]
    rcases List.mem_append.mp member with first | later
    · obtain ⟨_, -, rfl⟩ := Option.map_eq_some_iff.mp (Option.mem_toList.mp first)
      exact ⟨.refl _, behind_before file before here, behind_upTo file _ _⟩
    · obtain ⟨start, inner, stop⟩ := ih others token later
      exact ⟨.trans (behind_upTo file before segment.text) start, inner, stop⟩

theorem tokens_ordered {file : String} {before : List Char} {segments : List Segment}
    (some : ∀ segment ∈ segments, segment.text ≠ []) :
    (tokens file before segments).Pairwise fun first second => first.span.stop.UpTo second.span.start := by
  induction segments generalizing before with
  | nil => exact .nil
  | cons segment rest ih =>
    obtain ⟨-, others⟩ := List.forall_mem_cons.mp some
    refine List.pairwise_append.mpr ⟨?_, ih others, ?_⟩
    · cases segment.token? file before with
      | none => exact .nil
      | some token => exact List.pairwise_singleton _ token
    · intro first here second later
      obtain ⟨_, -, rfl⟩ := Option.map_eq_some_iff.mp (Option.mem_toList.mp here)
      exact (tokens_within others second later).1

end Segment

-- A source that is scanned is a sequence of stretches. Each one is trivia or is written as one token is, and the
-- tokens stand exactly where these stretches do.
theorem Token.scan_segments {source file : String} {tokens : List Token} (scanned : scan source file = .ok tokens) :
    ∃ segments : List Segment,
      segments.flatMap Segment.text = source.toList ∧
      (∀ segment ∈ segments, segment.Valid) ∧
      tokens = fileMarker file :: Segment.tokens file [] segments ++ [endMarker (.behind file source.toList)] ∧
      (∀ token ∈ Segment.tokens file [] segments, token.span.start.Before token.span.stop) ∧
      tokens.Pairwise fun first second => first.span.stop.UpTo second.span.start := by
  obtain ⟨rest, scans, rfl⟩ := scan_ok.mp scanned
  have scans : Scans ⟨.behind file [], source.toList⟩ rest := scans
  obtain ⟨segments, text, each, rfl⟩ := scans.segments
  have some (segment : Segment) (member : segment ∈ segments) : segment.text ≠ [] := (each segment member).2
  have within := @Segment.tokens_within file [] segments some
  refine ⟨segments, text, fun segment member => (each segment member).1, rfl,
    fun token member => (within token member).2.1, ?_⟩
  rw [← List.cons_append]
  refine List.pairwise_append.mpr ⟨List.pairwise_cons.mpr ⟨?_, Segment.tokens_ordered some⟩,
    List.pairwise_singleton _ _, ?_⟩
  · exact fun token member => (within token member).1
  · intro first member last only
    cases List.mem_singleton.mp only
    rw [text] at within
    rcases List.mem_cons.mp member with rfl | later
    · exact Position.behind_upTo file [] source.toList
    · exact (within first later).2.2

theorem Token.scan_segments_lines :
    ∃ tokens, scan "/* *\n */ \"é\\\\\" // \n '\\''>=a" "main.sc" = .ok tokens ∧
      tokens.map (fun token => (token.value, token.span.start.line, token.span.start.column, token.span.stop.column)) =
        [("main.sc", 1, 1, 1), ("é\\", 2, 5, 10), ("'", 3, 2, 6), (">=", 3, 6, 8), ("a", 3, 8, 9), ("EOF", 3, 9, 9)] ∧
      ∃ segments : List Segment,
        segments.flatMap Segment.text = "/* *\n */ \"é\\\\\" // \n '\\''>=a".toList ∧
        (∀ segment ∈ segments, segment.Valid) ∧
        tokens = fileMarker "main.sc" :: Segment.tokens "main.sc" [] segments ++ [endMarker ⟨3, 9, "main.sc"⟩] := by
  have tested : yields (fun tokens => tokens.map (fun token =>
        (token.value, token.span.start.line, token.span.start.column, token.span.stop.column)) ==
      [("main.sc", 1, 1, 1), ("é\\", 2, 5, 10), ("'", 3, 2, 6), (">=", 3, 6, 8), ("a", 3, 8, 9), ("EOF", 3, 9, 9)])
      (scan "/* *\n */ \"é\\\\\" // \n '\\''>=a" "main.sc") = true := by
    decide +kernel
  obtain ⟨tokens, scanned, same⟩ := yields_ok tested
  obtain ⟨segments, text, valid, whole, -⟩ := scan_segments scanned
  exact ⟨tokens, scanned, eq_of_beq same, segments, text, valid, whole⟩

end TypedScript
