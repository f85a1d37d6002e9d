import TypedScript.Proofs.Grammar.Yielding

namespace TypedScript

def Stmt.span : Stmt → Span
  | .declare decl => decl.span
  | .block span _ | .evaluate span _ | .jump span _ _ | .ifThen span _ _ | .ifElse span _ _ _
  | .whileLoop span _ _ | .forLoop span _ _ _ _ => span

def Opening.span : Opening → Span
  | .declare decl => decl.span
  | .evaluate expr => expr.span

inductive Branch where
  | expr (expr : Expr)
  | stmt (stmt : Stmt)
  | opening (opening : Opening)

namespace Branch

def span : Branch → Span
  | expr found => found.span
  | stmt found => found.span
  | opening found => found.span

def parts : Branch → List Branch
  | expr found => found.parts.map expr
  | opening (.declare decl) => decl.initializer.toList.map expr
  | opening (.evaluate found) => [expr found]
  | stmt (.block _ body) => body.map stmt
  | stmt (.declare decl) => decl.initializer.toList.map expr
  | stmt (.evaluate _ found) => [expr found]
  | stmt (.jump _ _ value) => value.toList.map expr
  | stmt (.ifThen _ condition body) => [expr condition, stmt body]
  | stmt (.ifElse _ condition body other) => [expr condition, stmt body, stmt other]
  | stmt (.whileLoop _ condition body) => [expr condition, stmt body]
  | stmt (.forLoop _ openings condition iterators body) =>
    openings.map opening ++ (condition.toList.map expr ++ (iterators.map expr ++ [stmt body]))

end Branch

namespace Grammar

-- A span that starts where the first token of a range starts and stops where its last token stops. The range is
-- not empty and ends before the end marker.
structure Bounds (tokens : Stream) (i j : Nat) (span : Span) : Prop where
  lt : i < j
  inside : j < tokens.size
  start : span.start = (tokens.token i).span.start
  stop : span.stop = (tokens.token (j - 1)).span.stop

def ReadFrom (tokens : Stream) (i j : Nat) : Branch → Prop
  | .expr found => ∃ level s t, Reads tokens (.expr level found) s t ∧ s.pos = i ∧ t.pos = j
  | .stmt found => ∃ s t, ReadsStmt tokens (.stmt found) s t ∧ s.pos = i ∧ t.pos = j
  | .opening found => ∃ s t, ReadsOpening tokens found s t ∧ s.pos = i ∧ t.pos = j

mutual

-- A node with its extent: it was parsed from a range of tokens that its span marks off exactly, and the nodes below it
-- have their extents inside this range.
inductive Extent (tokens : Stream) : Branch → Nat → Nat → Prop where
  | mk {branch : Branch} {i j : Nat} (read : ReadFrom tokens i j branch) (bounds : Bounds tokens i j branch.span)
      (inner : Extents tokens branch.parts i j) : Extent tokens branch i j

inductive Extents (tokens : Stream) : List Branch → Nat → Nat → Prop where
  | nil {i j : Nat} (le : i ≤ j) : Extents tokens [] i j
  | cons {first : Branch} {others : List Branch} {i p q j : Nat} (after : i ≤ p) (head : Extent tokens first p q)
      (rest : Extents tokens others q j) : Extents tokens (first :: others) i j

end

variable {tokens : Stream} {s t m n : State} {i j k l : Nat} {span other : Span} {branch : Branch}
  {left right : List Branch}

theorem endBefore_eq (positive : 0 < j) (inside : j < tokens.size) :
    tokens.endBefore j = (tokens.token (j - 1)).span.stop := by
  obtain ⟨before, rfl⟩ : ∃ before, j = before + 1 := ⟨j - 1, by omega⟩
  have here : min before (tokens.size - 1) = before := by omega
  simp [Stream.endBefore, Stream.token, here, Array.getElem?_eq_getElem (Nat.lt_of_succ_lt inside)]

namespace Bounds

theorem take (closed : Closed tokens) (live : tokens.next s ≠ .endOfFile) :
    Bounds tokens s.pos (s.step tokens).pos (tokens.token s.pos).span := by
  rw [closed.step_pos live]
  exact ⟨Nat.lt_succ_self _, closed.inside live, rfl, rfl⟩

theorem taken (closed : Closed tokens) {kind : Kind} (found : tokens.next s = kind) (live : kind ≠ .endOfFile) :
    Bounds tokens s.pos (s.step tokens).pos (tokens.token s.pos).span :=
  take closed (found ▸ live)

theorem join (first : Bounds tokens i j span) (le : j ≤ k) (second : Bounds tokens k l other) :
    Bounds tokens i l (span.join other) := by
  refine ⟨?_, second.inside, first.start, second.stop⟩
  have lower := first.lt
  have upper := second.lt
  omega

theorem since {place : Position} (start : place = (tokens.token i).span.start) (lt : i < t.pos)
    (inside : t.pos < tokens.size) : Bounds tokens i t.pos (tokens.spanTo place t) :=
  ⟨lt, inside, start, endBefore_eq (Nat.zero_lt_of_lt lt) inside⟩

end Bounds

theorem Extent.bounds (extent : Extent tokens branch i j) : Bounds tokens i j branch.span := by
  cases extent with
  | mk _ bounds _ => exact bounds

theorem Extent.inner (extent : Extent tokens branch i j) : Extents tokens branch.parts i j := by
  cases extent with
  | mk _ _ inner => exact inner

namespace Extents

theorem le (extents : Extents tokens left i j) : i ≤ j := by
  induction left generalizing i with
  | nil =>
    cases extents with
    | nil le => exact le
  | cons first others ih =>
    cases extents with
    | cons after head rest =>
      have taken := head.bounds.lt
      have further := ih rest
      omega

theorem widen (extents : Extents tokens left i j) (lower : k ≤ i) (upper : j ≤ l) : Extents tokens left k l := by
  induction left generalizing i k with
  | nil =>
    cases extents with
    | nil le => exact .nil (by omega)
  | cons first others ih =>
    cases extents with
    | cons after head rest => exact .cons (by omega) head (ih rest (Nat.le_refl _))

theorem append (before : Extents tokens left i j) (after : Extents tokens right j k) :
    Extents tokens (left ++ right) i k := by
  induction left generalizing i with
  | nil =>
    cases before with
    | nil le => exact after.widen le (Nat.le_refl k)
  | cons first others ih =>
    cases before with
    | cons lower head rest => exact .cons lower head (ih rest)

theorem single (extent : Extent tokens branch i j) : Extents tokens [branch] i j :=
  .cons (Nat.le_refl i) extent (.nil (Nat.le_refl j))

end Extents

theorem ReadsType.takes (closed : Closed tokens) {type : Ty} (reads : ReadsType tokens type s t) :
    s.pos < t.pos ∧ t.pos < tokens.size := by
  induction reads with
  | @named s word =>
    have live : tokens.next s ≠ .endOfFile := by
      intro ended
      rw [ended] at word
      cases word
    have taken := Bounds.take closed live
    exact ⟨taken.lt, taken.inside⟩
  | array _ opener closer before =>
    have first := (Bounds.taken closed opener (by decide)).lt
    have second := Bounds.taken closed closer (by decide)
    exact ⟨Nat.lt_trans before.1 (Nat.lt_trans first second.lt), second.inside⟩
  | map _ opener _ closer before inside =>
    have first := (Bounds.taken closed opener (by decide)).lt
    have second := Bounds.taken closed closer (by decide)
    have inner := Nat.lt_trans first inside.1
    exact ⟨Nat.lt_trans before.1 (Nat.lt_trans inner second.lt), second.inside⟩

theorem Extent.ofExpr {level : Level} {expr : Expr} (reads : Reads tokens (.expr level expr) s t)
    (bounds : Bounds tokens s.pos t.pos expr.span) (inner : Extents tokens (expr.parts.map .expr) s.pos t.pos) :
    Extent tokens (.expr expr) s.pos t.pos :=
  .mk ⟨level, s, t, reads, rfl, rfl⟩ bounds inner

theorem Extent.ofStmt {stmt : Stmt} (reads : ReadsStmt tokens (.stmt stmt) s t)
    (bounds : Bounds tokens s.pos t.pos stmt.span) (inner : Extents tokens (Branch.stmt stmt).parts s.pos t.pos) :
    Extent tokens (.stmt stmt) s.pos t.pos :=
  .mk ⟨s, t, reads, rfl, rfl⟩ bounds inner

def Phrase.Extended (tokens : Stream) : Phrase → State → State → Prop
  | .expr _ found, s, t => Extent tokens (.expr found) s.pos t.pos
  | .arguments _ found, s, t => Extents tokens (found.map .expr) s.pos t.pos

section
variable (closed : Closed tokens)
include closed

-- Every part of an expression is read before the node is made, so that its extent is there when the node is. The
-- target of an assignment is taken apart again: what was below it is below the assignment.
theorem Reads.extended {phrase : Phrase} (reads : Reads tokens phrase s t) : phrase.Extended tokens s t := by
  have whole := reads
  induction reads with
  | literal found =>
    have taken := Bounds.take closed (Kind.ne_end_of_isPlain (literal_plain found))
    exact .ofExpr whole taken (.nil (Nat.le_of_lt taken.lt))
  | name found =>
    have taken := Bounds.taken closed found (by decide)
    exact .ofExpr whole taken (.nil (Nat.le_of_lt taken.lt))
  | leading found inner _ ih =>
    have sign := Bounds.take closed (Kind.ne_end_of_isPlain (unaryOp_plain found))
    have operand : Extent tokens _ _ _ := ih inner
    refine .ofExpr whole (sign.join (Nat.le_refl _) operand.bounds) ?_
    exact (Extents.single operand).widen (Nat.le_of_lt sign.lt) (Nat.le_refl _)
  | @group s m _ _ opener inner closer ih =>
    have opened := Bounds.taken closed opener (by decide)
    have shut := Bounds.taken closed closer (by decide)
    have body : Extent tokens _ _ _ := ih inner
    have within := body.bounds.lt
    refine .ofExpr whole (.since rfl ?_ shut.inside) ?_
    · exact Nat.lt_trans opened.lt (Nat.lt_trans within shut.lt)
    · exact (Extents.single body).widen (Nat.le_of_lt opened.lt) (Nat.le_of_lt shut.lt)
  | construct opener type opened inner closer ih =>
    have word := Bounds.taken closed opener (by decide)
    have bracket := Bounds.taken closed opened (by decide)
    have shut := Bounds.taken closed closer (by decide)
    obtain ⟨target, -⟩ := type.takes closed
    have list : Extents tokens _ _ _ := ih inner
    have within := list.le
    have first := word.lt
    have second := bracket.lt
    have last := shut.lt
    refine .ofExpr whole (.since rfl ?_ shut.inside) (list.widen (by omega) (Nat.le_of_lt last))
    simp only [State.numbered_pos]
    omega
  | binary before _ found inner _ ihLeft ihRight =>
    have sign := Bounds.take closed (Kind.ne_end_of_isPlain (binaryOp_plain found))
    have first : Extent tokens _ _ _ := ihLeft before
    have second : Extent tokens _ _ _ := ihRight inner
    refine .ofExpr whole (first.bounds.join (Nat.le_of_lt sign.lt) second.bounds) ?_
    exact (Extents.single first).append (.cons (Nat.le_of_lt sign.lt) second (.nil (Nat.le_refl _)))
  | @trailing _ m _ _ _ before _ found ih =>
    have live : tokens.next m ≠ .endOfFile := by
      rcases found with ⟨sign, -⟩ | ⟨sign, -⟩ <;> rw [sign] <;> decide
    have sign := Bounds.take closed live
    have operand : Extent tokens _ _ _ := ih before
    refine .ofExpr whole (operand.bounds.join (Nat.le_refl _) sign) ?_
    exact (Extents.single operand).widen (Nat.le_refl _) (Nat.le_of_lt sign.lt)
  | setName before _ found inner _ ihTarget ihValue | setMember before _ found inner _ ihTarget ihValue
  | setIndex before _ found inner _ ihTarget ihValue =>
    have sign := Bounds.take closed (Kind.ne_end_of_isPlain (assignOp_plain found))
    have target : Extent tokens _ _ _ := ihTarget before
    have value : Extent tokens _ _ _ := ihValue inner
    refine .ofExpr whole (target.bounds.join (Nat.le_of_lt sign.lt) value.bounds) ?_
    exact target.inner.append (.cons (Nat.le_of_lt sign.lt) value (.nil (Nat.le_refl _)))
  | call before _ opener inner closer ihLeft ihList | element before _ opener inner closer ihLeft ihList =>
    have bracket := Bounds.taken closed opener (by decide)
    have shut := Bounds.taken closed closer (by decide)
    have callee : Extent tokens _ _ _ := ihLeft before
    have list : Extents tokens _ _ _ := ihList inner
    have first := callee.bounds.lt
    have second := bracket.lt
    have within := list.le
    have last := shut.lt
    refine .ofExpr whole (.since callee.bounds.start ?_ shut.inside) ?_
    · simp only [State.numbered_pos]
      omega
    · exact (Extents.single callee).append (list.widen (Nat.le_of_lt second) (Nat.le_of_lt last))
  | member before _ dot found ih =>
    have sign := Bounds.taken closed dot (by decide)
    have name := Bounds.taken closed found (by decide)
    have object : Extent tokens _ _ _ := ih before
    have first := object.bounds.lt
    have second := sign.lt
    have last := name.lt
    have most := Nat.lt_trans second last
    refine .ofExpr whole (.since object.bounds.start (Nat.lt_trans first most) name.inside) ?_
    exact (Extents.single object).widen (Nat.le_refl _) (Nat.le_of_lt most)
  | cast before _ word type _ ih =>
    have sign := Bounds.taken closed word (by decide)
    obtain ⟨target, within⟩ := type.takes closed
    have operand : Extent tokens _ _ _ := ih before
    have first := operand.bounds.lt
    have second := sign.lt
    have most := Nat.lt_trans second target
    refine .ofExpr whole (.since operand.bounds.start (Nat.lt_trans first most) within) ?_
    exact (Extents.single operand).widen (Nat.le_refl _) (Nat.le_of_lt most)
  | none _ => exact .nil (Nat.le_refl _)
  | argument head _ separated rest ihHead ihRest =>
    have first : Extent tokens _ _ _ := ihHead head
    have others : Extents tokens _ _ _ := ihRest rest
    exact (Extents.single first).append (others.widen (separated.nested closed).le (Nat.le_refl _))

theorem ReadsExpr.extended {expr : Expr} (reads : ReadsExpr tokens expr s t) :
    Extent tokens (.expr expr) s.pos t.pos :=
  reads.1.extended closed

theorem ReadsInitializer.extended {value : Option Expr} (reads : ReadsInitializer tokens value s t)
    (inside : s.pos < tokens.size) :
    Extents tokens (value.toList.map .expr) s.pos t.pos ∧ t.pos < tokens.size := by
  cases reads with
  | none => exact ⟨.nil (Nat.le_refl _), inside⟩
  | some sign inner =>
    have taken := Bounds.taken closed sign (by decide)
    have given := inner.extended closed
    exact ⟨.cons (Nat.le_of_lt taken.lt) given (.nil (Nat.le_refl _)), given.bounds.inside⟩

theorem ReadsBinding.extended {decl : Variable} (reads : ReadsBinding tokens decl s t) :
    Bounds tokens s.pos t.pos decl.span ∧ Extents tokens (decl.initializer.toList.map .expr) s.pos t.pos := by
  cases reads with
  | mk declared found given =>
    obtain ⟨type, -⟩ := declared.takes closed
    have name := Bounds.taken closed found (by decide)
    obtain ⟨value, within⟩ := given.extended closed name.inside
    have before := Nat.lt_trans type name.lt
    exact ⟨.since rfl (Nat.lt_of_lt_of_le before value.le) within, value.widen (Nat.le_of_lt before) (Nat.le_refl _)⟩

theorem ReadsLine.extended {decl : Variable} (reads : ReadsLine tokens decl s t) :
    Bounds tokens s.pos t.pos decl.span ∧ Extents tokens (decl.initializer.toList.map .expr) s.pos t.pos := by
  cases reads with
  | mk binding ended =>
    have shut := Bounds.taken closed ended (by decide)
    obtain ⟨bounds, value⟩ := binding.extended closed
    refine ⟨.since bounds.start (Nat.lt_trans bounds.lt shut.lt) shut.inside, ?_⟩
    exact value.widen (Nat.le_refl _) (Nat.le_of_lt shut.lt)

theorem ReadsCondition.extended {value : Expr} (reads : ReadsCondition tokens value s t) :
    Extents tokens [.expr value] s.pos t.pos := by
  cases reads with
  | mk opener inner closer =>
    have opened := Bounds.taken closed opener (by decide)
    have shut := Bounds.taken closed closer (by decide)
    exact .cons (Nat.le_of_lt opened.lt) (inner.extended closed) (.nil (Nat.le_of_lt shut.lt))

theorem ReadsOptional.extended {value : Option Expr} (reads : ReadsOptional tokens value s t) :
    Extents tokens (value.toList.map .expr) s.pos t.pos ∧ t.pos < tokens.size := by
  cases reads with
  | none ended =>
    have shut := Bounds.taken closed ended (by decide)
    exact ⟨.nil (Nat.le_of_lt shut.lt), shut.inside⟩
  | some inner ended =>
    have shut := Bounds.taken closed ended (by decide)
    exact ⟨.cons (Nat.le_refl _) (inner.extended closed) (.nil (Nat.le_of_lt shut.lt)), shut.inside⟩

theorem ReadsOpening.extended {opening : Opening} (reads : ReadsOpening tokens opening s t) :
    Extent tokens (.opening opening) s.pos t.pos := by
  have whole : ReadFrom tokens s.pos t.pos (.opening opening) := ⟨s, t, reads, rfl, rfl⟩
  cases reads with
  | declare binding =>
    obtain ⟨bounds, value⟩ := binding.extended closed
    exact .mk whole bounds value
  | evaluate inner =>
    have given := inner.extended closed
    exact .mk whole given.bounds (.single given)

theorem ReadsItems.openings_extended {previous : Option Opening} {found : List Opening}
    (reads : ReadsItems tokens .semicolon (Listed tokens .semicolon (ReadsOpening tokens)) previous found s t) :
    Extents tokens (found.map .opening) s.pos t.pos := by
  induction reads with
  | none => exact .nil (Nat.le_refl _)
  | item head rest ih =>
    obtain ⟨m, opening, separated⟩ := head
    exact .cons (Nat.le_refl _) (opening.extended closed) (ih.widen (separated.nested closed).le (Nat.le_refl _))

def Passage.Extended (tokens : Stream) : Passage → State → State → Prop
  | .stmt found, s, t => Extent tokens (.stmt found) s.pos t.pos
  | .body found, s, t => Extents tokens (found.map .stmt) s.pos t.pos

theorem ReadsStmt.extended {passage : Passage} (reads : ReadsStmt tokens passage s t) :
    passage.Extended tokens s t := by
  have whole := reads
  induction reads with
  | block opener inner closer ih =>
    have opened := Bounds.taken closed opener (by decide)
    have shut := Bounds.taken closed closer (by decide)
    have body : Extents tokens _ _ _ := ih inner
    have most := Nat.lt_of_lt_of_le opened.lt body.le
    refine .ofStmt whole (.since rfl (Nat.lt_trans most shut.lt) shut.inside) ?_
    exact body.widen (Nat.le_of_lt opened.lt) (Nat.le_of_lt shut.lt)
  | ifThen word header inner ih | whileLoop word header inner ih =>
    have taken := Bounds.taken closed word (by decide)
    have condition := header.extended closed
    have body : Extent tokens _ _ _ := ih inner
    have most := Nat.lt_of_lt_of_le taken.lt condition.le
    refine .ofStmt whole (.since rfl (Nat.lt_trans most body.bounds.lt) body.bounds.inside) ?_
    exact (condition.widen (Nat.le_of_lt taken.lt) (Nat.le_refl _)).append (.single body)
  | ifElse word header inner middle last ihBody ihOther =>
    have taken := Bounds.taken closed word (by decide)
    have turn := Bounds.taken closed middle (by decide)
    have condition := header.extended closed
    have body : Extent tokens _ _ _ := ihBody inner
    have other : Extent tokens _ _ _ := ihOther last
    have both := (Extents.single body).append (.cons (Nat.le_of_lt turn.lt) other (.nil (Nat.le_refl _)))
    have parts := condition.append both
    refine .ofStmt whole (.since rfl (Nat.lt_of_lt_of_le taken.lt parts.le) other.bounds.inside) ?_
    exact parts.widen (Nat.le_of_lt taken.lt) (Nat.le_refl _)
  | forLoop word opener first ended second third closer inner ih =>
    have taken := Bounds.taken closed word (by decide)
    have opened := Bounds.taken closed opener (by decide)
    have turn := Bounds.taken closed ended (by decide)
    have shut := Bounds.taken closed closer (by decide)
    have openings := first.openings_extended closed
    obtain ⟨condition, -⟩ := second.extended closed
    have iterators : Extents tokens _ _ _ := third.extended closed
    have body : Extent tokens _ _ _ := ih inner
    have after := iterators.append (.cons (Nat.le_of_lt shut.lt) body (.nil (Nat.le_refl _)))
    have parts := openings.append ((condition.append after).widen (Nat.le_of_lt turn.lt) (Nat.le_refl _))
    have before := Nat.lt_trans taken.lt opened.lt
    refine .ofStmt whole (.since rfl (Nat.lt_of_lt_of_le before parts.le) body.bounds.inside) ?_
    exact parts.widen (Nat.le_of_lt before) (Nat.le_refl _)
  | returning word given =>
    have taken := Bounds.taken closed word (by decide)
    obtain ⟨value, within⟩ := given.extended closed
    refine .ofStmt whole (.since rfl (Nat.lt_of_lt_of_le taken.lt value.le) within) ?_
    exact value.widen (Nat.le_of_lt taken.lt) (Nat.le_refl _)
  | @jump s _ word ended =>
    have live : tokens.next s ≠ .endOfFile := by
      rcases word with ⟨word, -⟩ | ⟨word, -⟩ <;> rw [word] <;> decide
    have taken := Bounds.take closed live
    have shut := Bounds.taken closed ended (by decide)
    have both := Nat.lt_trans taken.lt shut.lt
    exact .ofStmt whole (.since rfl both shut.inside) (.nil (Nat.le_of_lt both))
  | declare line =>
    obtain ⟨bounds, value⟩ := line.extended closed
    exact .ofStmt whole bounds value
  | evaluate inner ended =>
    have shut := Bounds.taken closed ended (by decide)
    have given := inner.extended closed
    refine .ofStmt whole (.since given.bounds.start (Nat.lt_trans given.bounds.lt shut.lt) shut.inside) ?_
    exact .cons (Nat.le_refl _) given (.nil (Nat.le_of_lt shut.lt))
  | none _ => exact .nil (Nat.le_refl _)
  | cons head rest ihHead ihRest =>
    have first : Extent tokens _ _ _ := ihHead head
    have others : Extents tokens _ _ _ := ihRest rest
    exact .cons (Nat.le_refl _) first others

end

theorem spans_exact (closed : Closed tokens) (s : State) :
    (∀ level expr t, expression level tokens s = .ok expr t → Extent tokens (.expr expr) s.pos t.pos) ∧
    ∀ stmt t, statement tokens s = .ok stmt t → Extent tokens (.stmt stmt) s.pos t.pos := by
  constructor
  · intro level expr t ran
    exact (expression_reads ran).1.extended closed
  · intro stmt t ran
    exact (statement_reads ran).extended closed

def sweep : String := "for (num i = 0, j = i; i < n;) \x7b\n  a[i,] += (b);\n\x7d"

theorem spans_exact_sweep :
    ∃ list stmt t, Token.scan sweep "main.sc" = .ok list ∧ Closed list.toArray ∧
      statement list.toArray ⟨1, 0, .initial⟩ = .ok stmt t ∧ t.pos = 29 ∧
      stmt.span = ⟨⟨1, 1, "main.sc"⟩, ⟨3, 2, "main.sc"⟩⟩ ∧ Extent list.toArray (.stmt stmt) 1 29 := by
  have tested : yields (fun list => endsIn
      (fun stmt t => t.pos == 29 && decide (stmt.span = ⟨⟨1, 1, "main.sc"⟩, ⟨3, 2, "main.sc"⟩⟩))
      (statement (List.toArray list) ⟨1, 0, .initial⟩)) (Token.scan sweep "main.sc") = true := by
    decide +kernel
  obtain ⟨list, scanned, ends⟩ := yields_ok tested
  obtain ⟨stmt, t, ran, holds⟩ := endsIn_ok ends
  obtain ⟨stop, span⟩ := Bool.and_eq_true_iff.mp holds
  have closed := (Stream.Scanned.of_scan scanned).closed
  have whole : t.pos = 29 := eq_of_beq stop
  have extent := (spans_exact closed ⟨1, 0, .initial⟩).2 stmt t ran
  rw [whole] at extent
  exact ⟨list, stmt, t, scanned, closed, ran, whole, of_decide_eq_true span, extent⟩

end Grammar

end TypedScript
