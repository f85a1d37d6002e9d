import TypedScript.Proofs.Catalog.Grounding
import TypedScript.Token.Scan

namespace TypedScript

def Kind.BeginsType (kind : Kind) : Prop := (kind.isTypeWord || kind = .identifier) = true

instance (kind : Kind) : Decidable kind.BeginsType := inferInstanceAs (Decidable (_ = true))

def Token.Worded (token : Token) : Prop := token.kind.BeginsType → Plain token.value

theorem isWordPart_plain {c : Char} (word : isWordPart c = true) : Catalog.isPathMark c = false := by
  cases mark : Catalog.isPathMark c with
  | false => rfl
  | true =>
    simp only [Catalog.isPathMark, Bool.or_eq_true, beq_iff_eq] at mark
    rcases mark with (((rfl | rfl) | rfl) | rfl) | rfl <;> cases word

namespace Pattern

theorem front?_ok {text : List Char} {pattern : Pattern} {cut : Cut} (found : front? text = some (pattern, cut)) :
    pattern ∈ all ∧ pattern.cut? text = some cut := by
  obtain ⟨other, member, matched⟩ := List.exists_of_findSome?_eq_some found
  obtain ⟨taken, cuts, same⟩ := Option.map_eq_some_iff.mp matched
  cases same
  exact ⟨member, cuts⟩

theorem word_plain {text : List Char} {cut : Cut} (cuts : word.cut? text = some cut) :
    Plain (String.ofList cut.1) := by
  cases text with
  | nil => cases cuts
  | cons c rest =>
    simp only [cut?] at cuts
    split at cuts
    · rename_i start
      cases cuts
      refine ⟨by simp [Cut.cons], ?_⟩
      intro d member
      rw [String.toList_ofList] at member
      rcases List.mem_cons.mp member with rfl | later
      · exact isWordPart_plain (by rw [isWordPart, start, Bool.true_or])
      · exact isWordPart_plain (List.all_eq_true.mp List.all_takeWhile d later)
    · cases cuts

theorem mark_of_mem {kind : Kind} {spelling : String} (member : mark kind spelling ∈ all) :
    (kind, spelling) ∈ Kind.marks := by
  rcases List.mem_append.mp member with named | marked
  · simp only [List.mem_cons, List.not_mem_nil, or_false, reduceCtorEq] at named
  · obtain ⟨entry, there, same⟩ := List.mem_map.mp marked
    cases same
    exact there

-- Of all that is read, words alone can begin a type.
theorem read_worded {text : List Char} {pattern : Pattern} {cut : Cut} {kind : Kind} {value : String}
    (found : front? text = some (pattern, cut)) (read : pattern.read cut = .ok (some (kind, value)))
    (begins : kind.BeginsType) : Plain value := by
  obtain ⟨member, cuts⟩ := front?_ok found
  cases pattern with
  | word =>
    cases sort : Kind.ofWord (String.ofList cut.1) with
    | ok found =>
      simp only [Pattern.read, sort, Except.map] at read
      cases read
      exact word_plain cuts
    | error cause =>
      simp only [Pattern.read, sort, Except.map] at read
      cases read
  | number =>
    cases read
    cases begins
  | blank | lineComment | blockComment | openComment | openQuote _ => cases read
  | quoted quote =>
    simp only [Pattern.read] at read
    split at read
    · cases read
      cases begins
    · split at read
      · cases read
        cases begins
      · cases read
  | mark other spelling =>
    cases read
    have none : ∀ entry ∈ Kind.marks, ¬entry.1.BeginsType := by decide
    exact (none _ (mark_of_mem member) begins).elim

end Pattern

namespace Token

def IsRead (token : Token) : Prop :=
  ∃ text pattern cut, Pattern.front? text = some (pattern, cut) ∧
    pattern.read cut = .ok (some (token.kind, token.value))

theorem scanFrom_reads {bound : Nat} {cursor : Cursor} {tokens : List Token}
    (scanned : scanFrom bound cursor = .ok tokens) :
    ∃ body place, tokens = body ++ [endMarker place] ∧ ∀ token ∈ body, token.IsRead := by
  have ended (place : Position) :
      ∃ body last, [endMarker place] = body ++ [endMarker last] ∧ ∀ token ∈ body, token.IsRead :=
    ⟨[], place, rfl, nofun⟩
  induction bound generalizing cursor tokens with
  | zero =>
    cases scanned
    exact ended cursor.place
  | succ bound ih =>
    unfold scanFrom at scanned
    split at scanned
    · cases scanned
      exact ended cursor.place
    · cases found : Pattern.front? cursor.rest with
      | none =>
        simp only [found] at scanned
        cases scanned
      | some front =>
        obtain ⟨pattern, cut⟩ := front
        cases read : pattern.read cut with
        | error cause =>
          simp only [found, read] at scanned
          cases scanned
        | ok taken =>
          cases taken with
          | none =>
            simp only [found, read] at scanned
            exact ih scanned
          | some taken =>
            obtain ⟨kind, value⟩ := taken
            simp only [found, read, except_bind_ok] at scanned
            obtain ⟨rest, scanned, same⟩ := scanned
            cases same
            obtain ⟨body, place, rfl, each⟩ := ih scanned
            refine ⟨_ :: body, place, rfl, ?_⟩
            intro token member
            rcases List.mem_cons.mp member with rfl | later
            · exact ⟨_, _, _, found, read⟩
            · exact each token later

theorem scan_reads {source file : String} {tokens : List Token} (scanned : scan source file = .ok tokens) :
    ∃ body place, tokens = fileMarker file :: (body ++ [endMarker place]) ∧ ∀ token ∈ body, token.IsRead := by
  obtain ⟨rest, inner, same⟩ := except_bind_ok.mp scanned
  cases same
  obtain ⟨body, place, rfl, each⟩ := scanFrom_reads inner
  exact ⟨body, place, rfl, each⟩

theorem scan_forall {source file : String} {tokens : List Token} (scanned : scan source file = .ok tokens)
    {holds : Token → Prop} (opens : holds (fileMarker file)) (closes : ∀ place, holds (endMarker place))
    (each : ∀ token, token.IsRead → holds token) : ∀ token ∈ tokens, holds token := by
  obtain ⟨body, place, rfl, reads⟩ := scan_reads scanned
  intro token member
  rcases List.mem_cons.mp member with rfl | later
  · exact opens
  · rcases List.mem_append.mp later with inner | last
    · exact each token (reads token inner)
    · cases List.mem_singleton.mp last
      exact closes place

theorem IsRead.worded {token : Token} (isRead : token.IsRead) : token.Worded := by
  obtain ⟨text, pattern, cut, found, read⟩ := isRead
  exact Pattern.read_worded found read

end Token

end TypedScript
