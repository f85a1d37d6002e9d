import TypedScript.Proofs.Grammar.Traces

namespace TypedScript

-- Expressions whose identities are in a range, no two of them alike, each above all that is inside it.
structure Numbered (low high : Nat) (roots : List Expr) : Prop where
  range : ∀ expr ∈ Expr.allOf roots, low ≤ expr.id ∧ expr.id < high
  distinct : ((Expr.allOf roots).map Expr.id).Nodup
  above : ∀ expr ∈ Expr.allOf roots, ∀ inner ∈ expr.inside, inner.id < expr.id

namespace Numbered

variable {low middle high : Nat} {roots others : List Expr} {expr : Expr}

theorem nil (low high : Nat) : Numbered low high [] := ⟨nofun, List.nodup_nil, nofun⟩

theorem widen (numbered : Numbered low high roots) {lower higher : Nat} (below : lower ≤ low)
    (upper : high ≤ higher) : Numbered lower higher roots := by
  refine ⟨?_, numbered.distinct, numbered.above⟩
  intro expr member
  have range := numbered.range expr member
  omega

theorem append (left : Numbered low middle roots) (right : Numbered middle high others) (first : low ≤ middle)
    (second : middle ≤ high) : Numbered low high (roots ++ others) := by
  have wide := left.widen (Nat.le_refl low) second
  have also := right.widen first (Nat.le_refl high)
  refine ⟨?_, ?_, ?_⟩
  · intro expr member
    rw [Expr.allOf_append] at member
    rcases List.mem_append.mp member with here | there
    · exact wide.range expr here
    · exact also.range expr there
  · rw [Expr.allOf_append, List.map_append, List.nodup_append]
    refine ⟨left.distinct, right.distinct, ?_⟩
    intro id here other there
    obtain ⟨expr, member, rfl⟩ := List.mem_map.mp here
    obtain ⟨last, found, rfl⟩ := List.mem_map.mp there
    have before := left.range expr member
    have after := right.range last found
    omega
  · intro expr member
    rw [Expr.allOf_append] at member
    rcases List.mem_append.mp member with here | there
    · exact left.above expr here
    · exact right.above expr there

theorem node (numbered : Numbered low high expr.parts) (ordered : low ≤ high) (fresh : expr.id = high) :
    Numbered low (high + 1) [expr] := by
  refine ⟨?_, ?_, ?_⟩ <;> rw [Expr.allOf_single]
  · intro found member
    rcases List.mem_cons.mp member with rfl | inner
    · omega
    · have range := numbered.range found inner
      omega
  · rw [List.map_cons, List.nodup_cons]
    refine ⟨?_, numbered.distinct⟩
    intro again
    obtain ⟨inner, member, same⟩ := List.mem_map.mp again
    have range := numbered.range inner member
    omega
  · intro found member
    rcases List.mem_cons.mp member with rfl | inner
    · intro part member
      rw [Expr.inside_eq] at member
      have range := numbered.range part member
      omega
    · exact numbered.above found inner

theorem parts (numbered : Numbered low high [expr]) : Numbered low high expr.parts := by
  obtain ⟨range, distinct, above⟩ := numbered
  rw [Expr.allOf_single] at range distinct above
  refine ⟨?_, ?_, ?_⟩
  · exact fun found member => range found (List.mem_cons_of_mem expr member)
  · rw [List.map_cons, List.nodup_cons] at distinct
    exact distinct.2
  · exact fun found member => above found (List.mem_cons_of_mem expr member)

end Numbered

namespace Grammar

variable {tokens : Stream} {s t m n : State} {roots others : List Expr} {expr : Expr}

-- Identities are given in order: those of what is read between two states are the ones in between.
def Numbers (s t : State) (roots : List Expr) : Prop :=
  s.nextId ≤ t.nextId ∧ Numbered s.nextId t.nextId roots

namespace Numbers

theorem nil (kept : t.nextId = s.nextId) : Numbers s t [] := ⟨Nat.le_of_eq kept.symm, .nil _ _⟩

theorem append (first : Numbers s m roots) (second : Numbers m t others) : Numbers s t (roots ++ others) :=
  ⟨Nat.le_trans first.1 second.1, first.2.append second.2 first.1 second.1⟩

theorem before (kept : m.nextId = s.nextId) (rest : Numbers m t roots) : Numbers s t roots := by
  unfold Numbers at rest ⊢
  rwa [← kept]

theorem after (first : Numbers s m roots) (kept : t.nextId = m.nextId) : Numbers s t roots := by
  unfold Numbers at first ⊢
  rwa [kept]

theorem node (parts : Numbers s m expr.parts) (fresh : expr.id = m.nextId) : Numbers s m.numbered [expr] :=
  ⟨Nat.le_succ_of_le parts.1, parts.2.node parts.1 fresh⟩

theorem parts (numbers : Numbers s t [expr]) : Numbers s t expr.parts := ⟨numbers.1, numbers.2.parts⟩

end Numbers

def Phrase.exprs : Phrase → List Expr
  | .expr _ found => [found]
  | .arguments _ found => found

theorem ReadsType.nextId {type : Ty} (reads : ReadsType tokens type s t) : t.nextId = s.nextId := by
  induction reads with
  | named _ => simp
  | array _ _ _ ih => simp [ih]
  | map _ _ _ _ before inside => simp [before, inside]

-- An assignment keeps the parts of its left side and lets the identity of the side itself go.
theorem Reads.numbers {phrase : Phrase} (reads : Reads tokens phrase s t) : Numbers s t phrase.exprs := by
  induction reads with
  | literal _ | name _ => exact (Numbers.nil (State.step_nextId tokens _)).node rfl
  | leading _ _ _ inside => exact (inside.before (State.step_nextId tokens _)).node rfl
  | group _ _ _ inside =>
    have body := (inside.before (State.step_nextId tokens _)).after (State.step_nextId tokens _)
    exact body.node rfl
  | construct _ type _ _ _ inside =>
    have kept := type.nextId.trans (State.step_nextId tokens _)
    have arguments := (inside.before ((State.step_nextId tokens _).trans kept)).after (State.step_nextId tokens _)
    exact arguments.node rfl
  | binary _ _ _ _ _ before inside =>
    have both := before.append (inside.before (State.step_nextId tokens _))
    exact both.node rfl
  | trailing _ _ _ before => exact (before.after (State.step_nextId tokens _)).node rfl
  | setName _ _ _ _ _ before inside | setMember _ _ _ _ _ before inside
  | setIndex _ _ _ _ _ before inside =>
    have both := before.parts.append (inside.before (State.step_nextId tokens _))
    exact both.node rfl
  | call _ _ _ _ _ before inside | element _ _ _ _ _ before inside =>
    have both := before.append (inside.before (State.step_nextId tokens _))
    exact (both.after (State.step_nextId tokens _)).node rfl
  | member _ _ _ _ before =>
    have object := (before.after (State.step_nextId tokens _)).after (State.step_nextId tokens _)
    exact object.node rfl
  | cast _ _ _ type _ before =>
    have operand := before.after (type.nextId.trans (State.step_nextId tokens _))
    exact operand.node rfl
  | none _ => exact .nil rfl
  | argument _ _ separated _ first rest => exact first.append (rest.before separated.untouched.1)

theorem Traces.numbers {types : List Ty} (trace : Traces tokens types roots s t) : Numbers s t roots := by
  induction trace with
  | done => exact .nil rfl
  | skip kept _ ih => exact ih.before kept.1
  | type declared _ ih => exact ih.before declared.nextId
  | root inner _ ih => exact inner.numbers.append ih

theorem ReadsDeclarations.numbers {decls : List Declaration} (reads : ReadsDeclarations tokens decls s t) :
    Numbers s t ((decls.flatMap Declaration.items).flatMap Item.roots) := by
  induction reads with
  | nil => exact .nil rfl
  | cons head _ ih =>
    obtain ⟨_, m, -, trace, rfl⟩ := head.traces
    rw [List.flatMap_cons, List.flatMap_append]
    exact (trace.numbers.before rfl).append (ih.before rfl)

end Grammar

end TypedScript
