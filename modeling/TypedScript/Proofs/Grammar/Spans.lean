import TypedScript.Proofs.Grammar.Nesting
import TypedScript.Proofs.Tree.Yield

namespace TypedScript.Grammar

def Stream.lexemes (tokens : Stream) (i j : Nat) : List Lexeme :=
  ((tokens.toList.drop i).take (j - i)).map Token.lexeme

structure Spans (tokens : Stream) (marks : List Mark) (i j : Nat) : Prop where
  le : i ≤ j
  spells : Spells marks (tokens.lexemes i j)

variable {tokens : Stream} {s t m n : State} {i j k : Nat} {left right marks : List Mark}

namespace Stream

theorem lexemes_append (first : i ≤ j) (second : j ≤ k) :
    tokens.lexemes i j ++ tokens.lexemes j k = tokens.lexemes i k := by
  have whole : k - i = (j - i) + (k - j) := by omega
  have later : i + (j - i) = j := by omega
  unfold lexemes
  rw [whole, List.take_add, List.drop_drop, later, List.map_append]

theorem lexemes_self : tokens.lexemes i i = [] := by
  unfold lexemes
  rw [Nat.sub_self, List.take_zero, List.map_nil]

theorem lexemes_length : (tokens.lexemes i j).length = min (j - i) (tokens.size - i) := by
  unfold lexemes
  rw [List.length_map, List.length_take, List.length_drop, Array.length_toList]

theorem token_eq (inside : i < tokens.size) : tokens.token i = tokens[i] := by
  have here : min i (tokens.size - 1) = i := by omega
  unfold token
  rw [here, Array.getElem?_eq_getElem inside, Option.getD_some]

theorem lexemes_succ (inside : i < tokens.size) (lt : i < j) :
    tokens.lexemes i j = (tokens.token i).lexeme :: tokens.lexemes (i + 1) j := by
  have whole : j - i = (j - (i + 1)) + 1 := by omega
  unfold lexemes
  rw [List.drop_eq_getElem_cons (by simpa using inside), whole, List.take_succ_cons, List.map_cons,
    token_eq inside, Array.getElem_toList]

theorem lexemes_cons {lexeme : Lexeme} {rest : List Lexeme} (le : i ≤ k)
    (found : tokens.lexemes i k = lexeme :: rest) :
    i < tokens.size ∧ lexeme = (tokens.token i).lexeme ∧ i + 1 ≤ k ∧ tokens.lexemes (i + 1) k = rest := by
  have length : (tokens.lexemes i k).length = rest.length + 1 := by rw [found, List.length_cons]
  rw [lexemes_length] at length
  have inside : i < tokens.size := by omega
  have lt : i < k := by omega
  rw [lexemes_succ inside lt] at found
  obtain ⟨same, others⟩ := List.cons.inj found
  exact ⟨inside, same.symm, lt, others⟩

end Stream

namespace Spans

theorem nil : Spans tokens [] i i := by
  refine ⟨Nat.le_refl i, ?_⟩
  rw [Stream.lexemes_self]
  exact .nil

theorem append (before : Spans tokens left i j) (after : Spans tokens right j k) :
    Spans tokens (left ++ right) i k := by
  refine ⟨Nat.le_trans before.le after.le, ?_⟩
  rw [← Stream.lexemes_append before.le after.le]
  exact before.spells.append after.spells

theorem one (inside : i < tokens.size) {mark : Mark} (spells : Spells [mark] [(tokens.token i).lexeme]) :
    Spans tokens [mark] i (i + 1) := by
  refine ⟨Nat.le_succ i, ?_⟩
  rw [Stream.lexemes_succ inside (Nat.lt_succ_self i), Stream.lexemes_self]
  exact spells

theorem omitted : Spans tokens [.optionalComma] i i := by
  refine ⟨Nat.le_refl i, ?_⟩
  rw [Stream.lexemes_self]
  exact .noComma .nil

theorem split (spans : Spans tokens (left ++ right) i k) :
    ∃ j, Spans tokens left i j ∧ Spans tokens right j k := by
  obtain ⟨first, second, whole, before, after⟩ := spans.spells.split
  have length : (tokens.lexemes i k).length = first.length + second.length := by
    rw [whole, List.length_append]
  rw [Stream.lexemes_length] at length
  have start : i ≤ i + first.length := Nat.le_add_right _ _
  have stop : i + first.length ≤ k := by
    have le := spans.le
    omega
  rw [← Stream.lexemes_append start stop] at whole
  obtain ⟨same, rest⟩ := List.append_inj whole (by rw [Stream.lexemes_length]; omega)
  refine ⟨i + first.length, ⟨start, ?_⟩, stop, ?_⟩
  · rw [same]
    exact before
  · rw [rest]
    exact after

theorem token_cons {kind : Kind} {value : String} (spans : Spans tokens (.token kind value :: marks) i k) :
    i < tokens.size ∧ (tokens.token i).kind = kind ∧ (tokens.token i).value = value ∧
      Spans tokens marks (i + 1) k := by
  obtain ⟨le, spells⟩ := spans
  generalize found : tokens.lexemes i k = lexemes at spells
  cases spells with
  | token others =>
    obtain ⟨inside, same, lt, rfl⟩ := Stream.lexemes_cons le found
    cases same
    exact ⟨inside, rfl, rfl, lt, others⟩

theorem numeral_cons {value : Number.Binary64} (spans : Spans tokens (.numeral value :: marks) i k) :
    i < tokens.size ∧ (tokens.token i).kind = .number ∧
      Number.Binary64.ofText? (tokens.token i).value = some value ∧ Spans tokens marks (i + 1) k := by
  obtain ⟨le, spells⟩ := spans
  generalize found : tokens.lexemes i k = lexemes at spells
  cases spells with
  | numeral denotes others =>
    obtain ⟨inside, same, lt, rfl⟩ := Stream.lexemes_cons le found
    obtain ⟨kind, rfl⟩ := Prod.mk.inj same
    exact ⟨inside, kind.symm, Number.Binary64.ofText?_iff.mpr denotes, lt, others⟩

theorem comma_cons (spans : Spans tokens (.optionalComma :: marks) i k) :
    (i < tokens.size ∧ (tokens.token i).kind = .comma ∧ Spans tokens marks (i + 1) k) ∨
      Spans tokens marks i k := by
  obtain ⟨le, spells⟩ := spans
  generalize found : tokens.lexemes i k = lexemes at spells
  cases spells with
  | comma others =>
    obtain ⟨inside, same, lt, rfl⟩ := Stream.lexemes_cons le found
    exact .inl ⟨inside, (Prod.mk.inj same).1.symm, lt, others⟩
  | noComma others =>
    subst found
    exact .inr ⟨le, others⟩

end Spans

end TypedScript.Grammar
