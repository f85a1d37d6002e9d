import TypedScript.Proofs.Grammar.Normality
import TypedScript.Proofs.Grammar.Spans
import TypedScript.Proofs.Grammar.Traces

namespace TypedScript

def Kind.beginsExpr : Kind → Bool
  | number | text | character | trueWord | falseWord | nullWord | identifier | not | dash | plusPlus
  | minusMinus | openParen | newWord => true
  | _ => false

namespace Grammar

-- The tokens of a scanned file: the values are those of the kinds, and only the last token ends the file.
structure Stream.Scanned (tokens : Stream) : Prop where
  closed : Closed tokens
  canonical : ∀ pos, (tokens.token pos).Canonical

variable {tokens : Stream} {s t m n : State}

theorem Closed.of_marked {body : List Token} {last : Token} (ended : last.kind = .endOfFile)
    (live : ∀ token ∈ body, token.kind ≠ .endOfFile) : Closed (body ++ [last]).toArray := by
  refine ⟨by simp, ?_⟩
  intro i inside
  rw [Stream.token_eq inside]
  simp only [List.size_toArray, List.length_append, List.length_singleton, List.getElem_toArray] at inside ⊢
  by_cases before : i < body.length
  · rw [List.getElem_append_left before]
    have other := live _ (List.getElem_mem before)
    exact ⟨fun same => absurd same other, fun same => by omega⟩
  · have same : i = body.length := by omega
    subst same
    rw [List.getElem_concat_length rfl]
    simp [ended]

theorem Stream.Scanned.of_scan {source file : String} {list : List Token}
    (scanned : Token.scan source file = .ok list) : Stream.Scanned list.toArray := by
  have canonical := Token.scan_canonical scanned
  obtain ⟨body, place, rfl, reads⟩ := Token.scan_reads scanned
  have closed : Closed (Token.fileMarker file :: (body ++ [Token.endMarker place])).toArray := by
    refine @Closed.of_marked (Token.fileMarker file :: body) _ rfl ?_
    intro token member
    rcases List.mem_cons.mp member with rfl | later
    · exact nofun
    · exact (reads token later).ne_end
  refine ⟨closed, fun pos => ?_⟩
  rw [Stream.token, Array.getElem?_eq_getElem (by have := closed.1; omega), Option.getD_some]
  exact canonical _ (by simp)

theorem Spans.take (scanned : tokens.Scanned) (live : tokens.next s ≠ .endOfFile) {mark : Mark}
    (spells : Spells [mark] [(tokens.token s.pos).lexeme]) : Spans tokens [mark] s.pos (s.step tokens).pos := by
  have inside := scanned.closed.inside live
  rw [scanned.closed.step_pos live]
  exact .one (Nat.lt_of_succ_lt inside) spells

theorem Stream.Scanned.lexeme_eq (scanned : tokens.Scanned) {kind : Kind} (found : tokens.next s = kind)
    (alike : kind.isFixed = true) : (tokens.token s.pos).lexeme = (kind, kind.spelling) := by
  subst found
  exact Prod.ext rfl ((scanned.canonical s.pos).fixed alike)

theorem Spans.fixed (scanned : tokens.Scanned) {kind : Kind} (found : tokens.next s = kind)
    (alike : kind.isFixed = true) : Spans tokens [.fixed kind] s.pos (s.step tokens).pos := by
  refine .take scanned ?_ ?_
  · intro ended
    rw [← found, ended] at alike
    cases alike
  · rw [scanned.lexeme_eq found alike]
    exact .token .nil

theorem Spans.name (scanned : tokens.Scanned) (found : tokens.next s = .identifier) :
    Spans tokens [.token .identifier (tokens.token s.pos).value] s.pos (s.step tokens).pos := by
  refine .take scanned (by rw [found]; nofun) ?_
  rw [← found]
  exact .token .nil

theorem Spans.literal (scanned : tokens.Scanned) {value : Literal}
    (found : literalOf? (tokens.token s.pos) = some value) :
    Spans tokens [value.mark] s.pos (s.step tokens).pos := by
  have canonical := scanned.canonical s.pos
  refine .take scanned (Kind.ne_end_of_isPlain (literal_plain found)) ?_
  generalize tokens.token s.pos = token at canonical found
  obtain ⟨kind, text, span⟩ := token
  cases kind with
  | number =>
    obtain ⟨number, denotes, rfl⟩ := Option.map_eq_some_iff.mp found
    exact .numeral (Number.Binary64.ofText?_iff.mp denotes) .nil
  | text =>
    cases found
    exact .token .nil
  | character =>
    obtain ⟨c, rfl⟩ := canonical.character rfl
    obtain ⟨d, first, rfl⟩ := Option.map_eq_some_iff.mp found
    rw [String.toList_ofList] at first
    cases first
    exact .token .nil
  | trueWord | falseWord | nullWord =>
    cases found
    cases canonical.fixed rfl
    exact .token .nil
  | _ => cases found

theorem ReadsType.begins {type : Ty} (reads : ReadsType tokens type s t) : (tokens.next s).BeginsType := by
  induction reads with
  | named word => exact word
  | array _ _ _ before => exact before
  | map _ _ _ _ before => exact before

theorem ReadsType.spans (scanned : tokens.Scanned) {type : Ty} (reads : ReadsType tokens type s t) :
    Spans tokens type.yield s.pos t.pos := by
  induction reads with
  | @named s word =>
    refine .take scanned ?_ ?_
    · intro ended
      rw [ended] at word
      cases word
    · rw [(scanned.canonical s.pos).ofTypeName_eq word]
      exact .token .nil
  | array _ opener closer ih =>
    exact ih.append ((Spans.fixed scanned opener rfl).append (.fixed scanned closer rfl))
  | map _ opener _ closer before inside =>
    exact before.append ((Spans.fixed scanned opener rfl).append (inside.append (.fixed scanned closer rfl)))

theorem Separated.spans (scanned : tokens.Scanned) {α : Type} {closer : Kind} {others : List α}
    (separated : Separated tokens closer s t) (goesOn : others ≠ [] → tokens.next t ≠ closer) :
    Spans tokens [Mark.separator others] s.pos t.pos := by
  rcases separated with ⟨comma, rfl⟩ | ⟨closed, rfl⟩
  · cases others with
    | nil =>
      refine .take scanned (by rw [comma]; nofun) ?_
      rw [scanned.lexeme_eq comma rfl]
      exact .comma .nil
    | cons => exact .fixed scanned comma rfl
  · cases others with
    | nil => exact .omitted
    | cons => exact absurd closed (goesOn nofun)

theorem Reads.begins {level : Level} {expr : Expr} (reads : Reads tokens (.expr level expr) s t) :
    (tokens.next s).beginsExpr = true := by
  generalize same : Phrase.expr level expr = phrase at reads
  induction reads generalizing level expr with
  | @literal s _ _ found =>
    unfold literalOf? at found
    rw [Stream.next]
    generalize (tokens.token s.pos).kind = kind at found
    cases kind <;> first | rfl | cases found
  | name found => rw [found]; rfl
  | @leading s _ _ _ _ found =>
    rw [UnaryOp.ofKind?_eq_some.mp found]
    cases ‹UnaryOp› <;> rfl
  | group opener | construct opener => rw [opener]; rfl
  | binary _ _ _ _ _ before | trailing _ _ _ before | setName _ _ _ _ _ before | setMember _ _ _ _ _ before
  | setIndex _ _ _ _ _ before | call _ _ _ _ _ before | element _ _ _ _ _ before | member _ _ _ _ before
  | cast _ _ _ _ _ before => exact before rfl
  | none | argument => cases same

-- A phrase takes its own text. A list of arguments is closed by a token that begins no expression.
def Phrase.Spanned (tokens : Stream) : Phrase → State → State → Prop
  | .expr _ found, s, t => Spans tokens found.yield s.pos t.pos
  | .arguments closer found, s, t =>
    closer.beginsExpr = false → Spans tokens (Expr.yieldAll found) s.pos t.pos

theorem UnaryOp.isFixed_kind (operator : UnaryOp) : operator.kind.isFixed = true := by cases operator <;> rfl
theorem BinaryOp.isFixed_kind (operator : BinaryOp) : operator.kind.isFixed = true := by cases operator <;> rfl
theorem AssignOp.isFixed_kind (operator : AssignOp) : operator.kind.isFixed = true := by cases operator <;> rfl

theorem Reads.spanned (scanned : tokens.Scanned) {phrase : Phrase} (reads : Reads tokens phrase s t) :
    phrase.Spanned tokens s t := by
  induction reads with
  | literal found => exact Spans.literal scanned found
  | name found => exact Spans.name scanned found
  | leading found _ _ inside =>
    have sign := Spans.fixed scanned (UnaryOp.ofKind?_eq_some.mp found) (UnaryOp.isFixed_kind _)
    exact sign.append inside
  | group opener _ closer inside =>
    exact (Spans.fixed scanned opener rfl).append (inside.append (.fixed scanned closer rfl))
  | construct opener type opened _ closer inside =>
    have list := (Spans.fixed scanned opened rfl).append ((inside rfl).append (.fixed scanned closer rfl))
    exact (Spans.fixed scanned opener rfl).append ((type.spans scanned).append list)
  | binary _ _ found _ _ before inside =>
    have sign := Spans.fixed scanned (BinaryOp.ofKind?_eq_some.mp found) (BinaryOp.isFixed_kind _)
    exact before.append (sign.append inside)
  | trailing _ _ found before =>
    rcases found with ⟨sign, rfl⟩ | ⟨sign, rfl⟩
    · exact before.append (.fixed scanned sign rfl)
    · exact before.append (.fixed scanned sign rfl)
  | setName _ _ found _ _ before inside =>
    have sign := Spans.fixed scanned (AssignOp.ofKind?_eq_some.mp found) (AssignOp.isFixed_kind _)
    exact before.append (sign.append inside)
  | setMember _ _ found _ _ before inside =>
    have sign := Spans.fixed scanned (AssignOp.ofKind?_eq_some.mp found) (AssignOp.isFixed_kind _)
    simpa [Phrase.Spanned, Expr.yield] using before.append (sign.append inside)
  | setIndex _ _ found _ _ before inside =>
    have sign := Spans.fixed scanned (AssignOp.ofKind?_eq_some.mp found) (AssignOp.isFixed_kind _)
    simpa [Phrase.Spanned, Expr.yield, Expr.yieldAll, Mark.separator] using before.append (sign.append inside)
  | call _ _ opener _ closer before inside | element _ _ opener _ closer before inside =>
    have list := (Spans.fixed scanned opener rfl).append ((inside rfl).append (.fixed scanned closer rfl))
    exact before.append list
  | member _ _ dot found before =>
    exact before.append ((Spans.fixed scanned dot rfl).append (.name scanned found))
  | cast _ _ word type _ before =>
    exact before.append ((Spans.fixed scanned word rfl).append (type.spans scanned))
  | none _ => exact fun _ => Spans.nil
  | @argument _ _ n _ closer _ others _ _ separated rest first following =>
    intro ends
    -- What follows the separator begins an expression, and the closing token begins none.
    have goesOn : others ≠ [] → tokens.next n ≠ closer := by
      cases rest with
      | none _ => exact fun more => absurd rfl more
      | argument head =>
        intro _ same
        have begins := head.begins
        rw [same, ends] at begins
        cases begins
    exact first.append ((separated.spans scanned goesOn).append (following ends))

theorem ReadsExpr.spans (scanned : tokens.Scanned) {expr : Expr} (reads : ReadsExpr tokens expr s t) :
    Spans tokens expr.yield s.pos t.pos := reads.1.spanned scanned

theorem Traces.normal {types : List Ty} {roots : List Expr} (traces : Traces tokens types roots s t) :
    ∀ expr ∈ roots, expr.Normal := by
  induction traces with
  | done => exact nofun
  | skip _ _ ih | type _ _ ih => exact ih
  | root inner _ ih =>
    intro expr member
    rcases List.mem_cons.mp member with rfl | later
    · exact inner.formed.1
    · exact ih expr later

theorem ReadsItems.spans (scanned : tokens.Scanned) {α : Type} {closer : Kind}
    {Item : α → State → State → Prop} {yield : α → List Mark}
    (item : ∀ found s t, Item found s t → tokens.next s ≠ closer ∧ Spans tokens (yield found) s.pos t.pos)
    {previous : Option α} {found : List α}
    (reads : ReadsItems tokens closer (Listed tokens closer Item) previous found s t) :
    Spans tokens (Mark.listed yield found) s.pos t.pos := by
  induction reads with
  | none _ => exact .nil
  | @item s n t previous first others head rest ih =>
    obtain ⟨m, inside, separated⟩ := head
    have goesOn : others ≠ [] → tokens.next n ≠ closer := by
      cases rest with
      | none _ => exact fun more => absurd rfl more
      | item head =>
        obtain ⟨_, inside, -⟩ := head
        exact fun _ => (item _ _ _ inside).1
    exact (item _ _ _ inside).2.append ((separated.spans scanned goesOn).append ih)

theorem ReadsBinding.spans (scanned : tokens.Scanned) {decl : Variable} (reads : ReadsBinding tokens decl s t) :
    Spans tokens decl.yield s.pos t.pos := by
  cases reads with
  | mk declared found given =>
    refine (declared.spans scanned).append ((Spans.name scanned found).append ?_)
    cases given with
    | none => exact .nil
    | some sign inner => exact (Spans.fixed scanned sign rfl).append (inner.spans scanned)

theorem ReadsOpening.spans (scanned : tokens.Scanned) {opening : Opening}
    (reads : ReadsOpening tokens opening s t) :
    tokens.next s ≠ .semicolon ∧ Spans tokens opening.yield s.pos t.pos := by
  cases reads with
  | declare binding =>
    refine ⟨?_, binding.spans scanned⟩
    cases binding with
    | mk declared =>
      intro same
      have begins := declared.begins
      rw [same] at begins
      cases begins
  | evaluate inner =>
    refine ⟨?_, inner.spans scanned⟩
    intro same
    have begins := inner.1.begins
    rw [same] at begins
    cases begins

theorem ReadsCondition.spans (scanned : tokens.Scanned) {value : Expr}
    (reads : ReadsCondition tokens value s t) : Spans tokens (Stmt.header value) s.pos t.pos := by
  cases reads with
  | mk opener inner closer =>
    exact (Spans.fixed scanned opener rfl).append ((inner.spans scanned).append (.fixed scanned closer rfl))

theorem ReadsOptional.spans (scanned : tokens.Scanned) {value : Option Expr}
    (reads : ReadsOptional tokens value s t) :
    Spans tokens (Expr.yieldOptional value ++ [.fixed .semicolon]) s.pos t.pos := by
  cases reads with
  | none ended => exact .fixed scanned ended rfl
  | some inner ended => exact (inner.spans scanned).append (.fixed scanned ended rfl)

def Passage.yield : Passage → List Mark
  | .stmt found => found.yield
  | .body found => Stmt.yieldAll found

theorem ReadsStmt.spans (scanned : tokens.Scanned) {passage : Passage}
    (reads : ReadsStmt tokens passage s t) : Spans tokens passage.yield s.pos t.pos := by
  induction reads with
  | block opener _ closer inside =>
    exact (Spans.fixed scanned opener rfl).append (inside.append (.fixed scanned closer rfl))
  | ifThen word header _ inside | whileLoop word header _ inside =>
    exact (Spans.fixed scanned word rfl).append ((header.spans scanned).append inside)
  | ifElse word header _ middle _ inside last =>
    have other := (Spans.fixed scanned middle rfl).append last
    exact (Spans.fixed scanned word rfl).append (((header.spans scanned).append inside).append other)
  | forLoop word opener first ended second third closer _ inside =>
    have openings := first.spans scanned fun _ _ _ opening => opening.spans scanned
    have iterators := third.spanned scanned rfl
    rw [Expr.yieldAll_eq] at iterators
    have body := iterators.append ((Spans.fixed scanned closer rfl).append inside)
    have header := openings.append ((Spans.fixed scanned ended rfl).append ((second.spans scanned).append body))
    have whole := (Spans.fixed scanned word rfl).append ((Spans.fixed scanned opener rfl).append header)
    simpa [Passage.yield, Stmt.yield] using whole
  | returning word given => exact (Spans.fixed scanned word rfl).append (given.spans scanned)
  | jump word ended =>
    rcases word with ⟨word, rfl⟩ | ⟨word, rfl⟩
    · exact (Spans.fixed scanned word rfl).append (.fixed scanned ended rfl)
    · exact (Spans.fixed scanned word rfl).append (.fixed scanned ended rfl)
  | declare line =>
    cases line with
    | mk binding ended => exact (binding.spans scanned).append (.fixed scanned ended rfl)
  | evaluate inner ended => exact (inner.spans scanned).append (.fixed scanned ended rfl)
  | none _ => exact .nil
  | cons _ _ first rest => exact first.append rest

end Grammar

end TypedScript
