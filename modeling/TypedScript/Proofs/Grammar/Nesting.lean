import TypedScript.Grammar.Outline
import TypedScript.Proofs.Grammar.DeclarationReading

namespace TypedScript

def Kind.isPlain (free : Bool) (kind : Kind) : Bool :=
  kind.closing?.isNone && !kind.isClosing && kind != .endOfFile && (free || kind != .semicolon)

namespace Grammar

-- The stream of a file: its only end marker is its last token.
def Closed (tokens : Stream) : Prop :=
  0 < tokens.size ∧ ∀ i, i < tokens.size → ((tokens.token i).kind = .endOfFile ↔ i + 1 = tokens.size)

-- A range of tokens in which every bracket is closed by its own kind of bracket. Semicolons may stand
-- outside all brackets if the range is `free`, and inside brackets always.
inductive Nested (tokens : Stream) : Bool → Nat → Nat → Prop where
  | nil {free : Bool} {i : Nat} : Nested tokens free i i
  | plain {free : Bool} {i j : Nat} (here : (tokens.token i).kind.isPlain free = true)
      (rest : Nested tokens free (i + 1) j) : Nested tokens free i j
  | bracket {free : Bool} {i k j : Nat} {closer : Kind}
      (opener : (tokens.token i).kind.closing? = some closer) (inner : Nested tokens true (i + 1) k)
      (closed : (tokens.token k).kind = closer) (rest : Nested tokens free (k + 1) j) :
      Nested tokens free i j

variable {tokens : Stream} {s t m n : State} {free : Bool} {i j k : Nat}

theorem Stream.token_past (past : tokens.size ≤ i + 1) :
    tokens.token i = tokens.token (tokens.size - 1) := by
  unfold Stream.token
  have left : min i (tokens.size - 1) = tokens.size - 1 := by omega
  rw [left, Nat.min_self]

theorem Closed.ended_iff (closed : Closed tokens) :
    (tokens.token i).kind = .endOfFile ↔ tokens.size ≤ i + 1 := by
  obtain ⟨positive, ends⟩ := closed
  by_cases inside : i < tokens.size
  · rw [ends i inside]
    omega
  · have last : (tokens.token i).kind = .endOfFile := by
      rw [Stream.token_past (by omega), ends _ (by omega)]
      omega
    exact ⟨fun _ => by omega, fun _ => last⟩

theorem Closed.inside (closed : Closed tokens) (live : (tokens.token i).kind ≠ .endOfFile) :
    i + 1 < tokens.size :=
  Nat.lt_of_not_le fun past => live (closed.ended_iff.mpr past)

theorem Closed.step_eq (closed : Closed tokens) (live : tokens.next s ≠ .endOfFile) :
    s.step tokens = s.moved (s.pos + 1) := by
  have inside := closed.inside live
  unfold State.step
  rw [if_pos (by omega)]
  rfl

theorem Closed.step_pos (closed : Closed tokens) (live : tokens.next s ≠ .endOfFile) :
    (s.step tokens).pos = s.pos + 1 := by
  rw [closed.step_eq live]
  rfl

theorem Kind.ne_end_of_isPlain {kind : Kind} (plain : kind.isPlain free = true) : kind ≠ .endOfFile := by
  rintro rfl
  cases free <;> cases plain

theorem Kind.isPlain_weaken {kind : Kind} (plain : kind.isPlain free = true) : kind.isPlain true = true := by
  unfold Kind.isPlain at plain ⊢
  simp_all

theorem Kind.ne_end_of_closing {kind closer : Kind} (opener : kind.closing? = some closer) :
    kind ≠ .endOfFile ∧ closer ≠ .endOfFile := by
  cases kind <;> cases opener <;> exact ⟨nofun, nofun⟩

namespace Nested

theorem le (nested : Nested tokens free i j) : i ≤ j := by
  induction nested with
  | nil => exact Nat.le_refl _
  | plain _ _ ih => omega
  | bracket _ _ _ _ inside after => omega

theorem append (left : Nested tokens free i j) (right : Nested tokens free j k) : Nested tokens free i k := by
  induction left with
  | nil => exact right
  | plain here _ ih => exact .plain here (ih right)
  | bracket opener inner closed _ _ ih => exact .bracket opener inner closed (ih right)

theorem weaken (nested : Nested tokens free i j) : Nested tokens true i j := by
  induction nested with
  | nil => exact .nil
  | plain here _ ih => exact .plain (Kind.isPlain_weaken here) ih
  | bracket opener inner closed _ _ ih => exact .bracket opener inner closed ih

theorem take (closed : Closed tokens) (here : (tokens.next s).isPlain free = true) :
    Nested tokens free s.pos (s.step tokens).pos := by
  rw [closed.step_pos (Kind.ne_end_of_isPlain here)]
  exact .plain here .nil

theorem wrap (closed : Closed tokens) {closer : Kind} (opener : (tokens.next s).closing? = some closer)
    (inner : Nested tokens true (s.step tokens).pos m.pos) (shut : tokens.next m = closer) :
    Nested tokens free s.pos (m.step tokens).pos := by
  obtain ⟨live, ended⟩ := Kind.ne_end_of_closing opener
  rw [closed.step_pos live] at inner
  rw [closed.step_pos (shut ▸ ended)]
  exact .bracket opener inner shut .nil

end Nested

theorem ReadsType.nested (closed : Closed tokens) {type : Ty} (reads : ReadsType tokens type s t) :
    Nested tokens false s.pos t.pos := by
  induction reads with
  | @named s word =>
    refine .take closed ?_
    revert word
    cases tokens.next s <;> decide
  | array _ opener closer ih =>
    exact ih.append (.wrap closed (by rw [opener]; rfl) .nil closer)
  | map _ opener _ closer before inside =>
    exact before.append (.wrap closed (by rw [opener]; rfl) inside.weaken closer)

theorem Separated.nested (closed : Closed tokens) {closer : Kind} (separated : Separated tokens closer s t) :
    Nested tokens false s.pos t.pos := by
  rcases separated with ⟨comma, rfl⟩ | ⟨-, rfl⟩
  · exact .take closed (by rw [comma]; rfl)
  · exact .nil

theorem literal_plain {found : Token} {value : Literal} (read : literalOf? found = some value) :
    found.kind.isPlain false = true := by
  unfold literalOf? at read
  generalize found.kind = kind at read
  cases kind <;> first | rfl | cases read

theorem unaryOp_plain {kind : Kind} {operator : UnaryOp} (found : UnaryOp.ofKind? kind = some operator) :
    kind.isPlain false = true := by
  cases kind <;> first | rfl | cases found

theorem binaryOp_plain {kind : Kind} {operator : BinaryOp} (found : BinaryOp.ofKind? kind = some operator) :
    kind.isPlain false = true := by
  cases kind <;> first | rfl | cases found

theorem assignOp_plain {kind : Kind} {operator : AssignOp} (found : AssignOp.ofKind? kind = some operator) :
    kind.isPlain false = true := by
  cases kind <;> first | rfl | cases found

theorem Reads.nested (closed : Closed tokens) {phrase : Phrase} (reads : Reads tokens phrase s t) :
    Nested tokens false s.pos t.pos := by
  induction reads with
  | literal found => exact .take closed (literal_plain found)
  | name found => exact .take closed (by rw [found]; rfl)
  | leading found _ _ inside => exact (Nested.take closed (unaryOp_plain found)).append inside
  | group opener _ closer inside => exact .wrap closed (by rw [opener]; rfl) inside.weaken closer
  | construct opener type opened _ closer inside =>
    have word : Nested tokens false _ _ := .take closed (by rw [opener]; rfl)
    have target := type.nested closed
    exact word.append (target.append (.wrap closed (by rw [opened]; rfl) inside.weaken closer))
  | binary _ _ found _ _ before inside =>
    exact before.append ((Nested.take closed (binaryOp_plain found)).append inside)
  | trailing _ _ found before =>
    refine before.append (.take closed ?_)
    rcases found with ⟨sign, -⟩ | ⟨sign, -⟩ <;> rw [sign] <;> rfl
  | setName _ _ found _ _ before inside | setMember _ _ found _ _ before inside
  | setIndex _ _ found _ _ before inside =>
    exact before.append ((Nested.take closed (assignOp_plain found)).append inside)
  | call _ _ opener _ closer before inside | element _ _ opener _ closer before inside =>
    exact before.append (.wrap closed (by rw [opener]; rfl) inside.weaken closer)
  | member _ _ dot found before =>
    have sign : Nested tokens false _ _ := .take closed (by rw [dot]; rfl)
    exact before.append (sign.append (.take closed (by rw [found]; rfl)))
  | cast _ _ word type _ before =>
    have sign : Nested tokens false _ _ := .take closed (by rw [word]; rfl)
    have target := type.nested closed
    exact before.append (sign.append target)
  | none _ => exact .nil
  | argument _ _ separated _ first rest => exact first.append ((separated.nested closed).append rest)

theorem ReadsItems.nested {α : Type} {closer : Kind} {Item : Option α → α → State → State → Prop}
    (item : ∀ previous found s t, Item previous found s t → Nested tokens true s.pos t.pos)
    {previous : Option α} {found : List α} (reads : ReadsItems tokens closer Item previous found s t) :
    Nested tokens true s.pos t.pos := by
  induction reads with
  | none _ => exact .nil
  | item head _ ih => exact (item _ _ _ _ head).append ih

theorem Listed.nested (closed : Closed tokens) {α : Type} {closer : Kind} {Item : α → State → State → Prop}
    (item : ∀ found s t, Item found s t → Nested tokens true s.pos t.pos) (previous : Option α) (found : α)
    (s t : State) (listed : Listed tokens closer Item previous found s t) :
    Nested tokens true s.pos t.pos := by
  obtain ⟨m, inside, separated⟩ := listed
  exact (item _ _ _ inside).append (separated.nested closed).weaken

theorem ReadsInitializer.nested (closed : Closed tokens) {value : Option Expr}
    (reads : ReadsInitializer tokens value s t) : Nested tokens false s.pos t.pos := by
  cases reads with
  | none => exact .nil
  | some sign inner => exact (Nested.take closed (by rw [sign]; rfl)).append (inner.1.nested closed)

theorem ReadsBinding.nested (closed : Closed tokens) {decl : Variable} (reads : ReadsBinding tokens decl s t) :
    Nested tokens false s.pos t.pos := by
  cases reads with
  | mk declared found given =>
    have name : Nested tokens false _ _ := .take closed (by rw [found]; rfl)
    exact (declared.nested closed).append (name.append (given.nested closed))

theorem ReadsLine.nested (closed : Closed tokens) {decl : Variable} (reads : ReadsLine tokens decl s t) :
    Nested tokens true s.pos t.pos := by
  cases reads with
  | mk binding ended => exact (binding.nested closed).weaken.append (.take closed (by rw [ended]; rfl))

theorem ReadsCondition.nested (closed : Closed tokens) {value : Expr}
    (reads : ReadsCondition tokens value s t) : Nested tokens true s.pos t.pos := by
  cases reads with
  | mk opener inner closer => exact .wrap closed (by rw [opener]; rfl) (inner.1.nested closed).weaken closer

theorem ReadsOpening.nested (closed : Closed tokens) {opening : Opening}
    (reads : ReadsOpening tokens opening s t) : Nested tokens true s.pos t.pos := by
  cases reads with
  | declare binding => exact (binding.nested closed).weaken
  | evaluate inner => exact (inner.1.nested closed).weaken

theorem ReadsOptional.nested (closed : Closed tokens) {value : Option Expr}
    (reads : ReadsOptional tokens value s t) : Nested tokens true s.pos t.pos := by
  cases reads with
  | none ended => exact .take closed (by rw [ended]; rfl)
  | some inner ended => exact (inner.1.nested closed).weaken.append (.take closed (by rw [ended]; rfl))

-- Every way to read a statement takes a nested range. The semicolons of a `for` stand between its brackets.
theorem ReadsStmt.nested (closed : Closed tokens) {passage : Passage} (reads : ReadsStmt tokens passage s t) :
    Nested tokens true s.pos t.pos := by
  induction reads with
  | block opener _ closer inside => exact .wrap closed (by rw [opener]; rfl) inside closer
  | ifThen word header _ inside | whileLoop word header _ inside =>
    have keyword : Nested tokens true _ _ := .take closed (by rw [word]; rfl)
    exact keyword.append ((header.nested closed).append inside)
  | ifElse word header _ middle _ inside last =>
    have keyword : Nested tokens true _ _ := .take closed (by rw [word]; rfl)
    have other : Nested tokens true _ _ := .take closed (by rw [middle]; rfl)
    exact keyword.append ((header.nested closed).append (inside.append (other.append last)))
  | forLoop word opener first ended second third closer _ inside =>
    have keyword : Nested tokens true _ _ := .take closed (by rw [word]; rfl)
    have openings := first.nested (Listed.nested closed fun _ _ _ opening => opening.nested closed)
    have semicolon : Nested tokens true _ _ := .take closed (by rw [ended]; rfl)
    have header := openings.append (semicolon.append ((second.nested closed).append
      (third.nested closed).weaken))
    exact keyword.append ((Nested.wrap closed (by rw [opener]; rfl) header closer).append inside)
  | returning word given =>
    have keyword : Nested tokens true _ _ := .take closed (by rw [word]; rfl)
    exact keyword.append (given.nested closed)
  | jump word ended =>
    have keyword : Nested tokens true _ _ :=
      .take closed (by rcases word with ⟨word, -⟩ | ⟨word, -⟩ <;> rw [word] <;> rfl)
    exact keyword.append (.take closed (by rw [ended]; rfl))
  | declare line => exact line.nested closed
  | evaluate inner ended =>
    exact (inner.1.nested closed).weaken.append (.take closed (by rw [ended]; rfl))
  | none _ => exact .nil
  | cons _ _ first rest => exact first.append rest

theorem ReadsDelegateParameter.nested (closed : Closed tokens) {type : Ty}
    (reads : ReadsDelegateParameter tokens type s t) : Nested tokens true s.pos t.pos := by
  cases reads with
  | bare declared => exact (declared.nested closed).weaken
  | named declared found =>
    exact (declared.nested closed).weaken.append (.take closed (by rw [found]; rfl))

theorem ReadsDelegate.nested (closed : Closed tokens) {decl : Delegate} (reads : ReadsDelegate tokens decl s t) :
    ∃ m, Nested tokens true s.pos m.pos ∧ tokens.next m = .semicolon ∧ t = m.step tokens := by
  cases reads with
  | mk word declared found opener inner closer ended =>
    have keyword : Nested tokens true _ _ := .take closed (by rw [word]; rfl)
    have name : Nested tokens true _ _ := .take closed (by rw [found]; rfl)
    have parameters := inner.nested (Listed.nested closed fun _ _ _ parameter => parameter.nested closed)
    have list : Nested tokens true _ _ := .wrap closed (by rw [opener]; rfl) parameters closer
    exact ⟨_, keyword.append ((declared.nested closed).weaken.append (name.append list)), ended, rfl⟩

theorem ReadsParameter.nested (closed : Closed tokens) {found : Parameter}
    (reads : ReadsParameter tokens found s t) : Nested tokens true s.pos t.pos := by
  cases reads with
  | mk declared found => exact (declared.nested closed).weaken.append (.take closed (by rw [found]; rfl))

theorem ReadsHead.nested (closed : Closed tokens) {header : FunctionHead}
    (reads : ReadsHead tokens header s t) : Nested tokens true s.pos t.pos := by
  cases reads with
  | mk declared found opener inner closer =>
    have name : Nested tokens true _ _ := .take closed (by rw [found]; rfl)
    have parameters := inner.nested (Listed.nested closed fun _ _ _ parameter => parameter.nested closed)
    have list : Nested tokens true _ _ := .wrap closed (by rw [opener]; rfl) parameters closer
    exact (declared.nested closed).weaken.append (name.append list)

theorem ReadsValue.nested (closed : Closed tokens) (reads : ReadsValue tokens s t) :
    Nested tokens true s.pos t.pos := by
  cases reads with
  | implied => exact .nil
  | stated sign number =>
    have assign : Nested tokens true _ _ := .take closed (by rw [sign]; rfl)
    exact assign.append (.take closed (by rw [number]; rfl))
  | negated sign dash number =>
    have assign : Nested tokens true _ _ := .take closed (by rw [sign]; rfl)
    have minus : Nested tokens true _ _ := .take closed (by rw [dash]; rfl)
    exact assign.append (minus.append (.take closed (by rw [number]; rfl)))

theorem ReadsMember.nested (closed : Closed tokens) {previous : Option Member} {member : Member}
    (reads : ReadsMember tokens previous member s t) : Nested tokens true s.pos t.pos := by
  cases reads with
  | mk found valued separated =>
    have name : Nested tokens true _ _ := .take closed (by rw [found]; rfl)
    have value := (memberValue_reads valued).nested closed
    exact name.append (value.append (separated.nested closed).weaken)

end Grammar

end TypedScript
