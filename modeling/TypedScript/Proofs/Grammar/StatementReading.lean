import TypedScript.Grammar.Statement
import TypedScript.Proofs.Grammar.Reading

namespace TypedScript.Grammar

variable {tokens : Stream} {s t m n : State}

def ReadsExpr (tokens : Stream) (expr : Expr) (s t : State) : Prop :=
  Reads tokens (.expr .lowest expr) s t ∧ Stops tokens .lowest t

inductive ReadsInitializer (tokens : Stream) : Option Expr → State → State → Prop where
  | none {s : State} : ReadsInitializer tokens none s s
  | some {s t : State} {value : Expr} (sign : tokens.next s = .assign)
      (inner : ReadsExpr tokens value (s.step tokens) t) : ReadsInitializer tokens (some value) s t

inductive ReadsBinding (tokens : Stream) : Variable → State → State → Prop where
  | mk {s m t : State} {type : Ty} {value : Option Expr} (declared : ReadsType tokens type s m)
      (found : tokens.next m = .identifier) (given : ReadsInitializer tokens value (m.step tokens) t) :
      ReadsBinding tokens ⟨type, (tokens.token m.pos).value, value,
        tokens.spanTo (tokens.token s.pos).span.start t⟩ s t

inductive ReadsLine (tokens : Stream) : Variable → State → State → Prop where
  | mk {s m : State} {bare : Variable} (binding : ReadsBinding tokens bare s m)
      (closed : tokens.next m = .semicolon) :
      ReadsLine tokens { bare with span := tokens.spanTo bare.span.start (m.step tokens) } s (m.step tokens)

inductive ReadsCondition (tokens : Stream) : Expr → State → State → Prop where
  | mk {s m : State} {value : Expr} (opener : tokens.next s = .openParen)
      (inner : ReadsExpr tokens value (s.step tokens) m) (closer : tokens.next m = .closeParen) :
      ReadsCondition tokens value s (m.step tokens)

inductive ReadsOpening (tokens : Stream) : Opening → State → State → Prop where
  | declare {s t : State} {decl : Variable} (binding : ReadsBinding tokens decl s t) :
      ReadsOpening tokens (.declare decl) s t
  | evaluate {s t : State} {expr : Expr} (inner : ReadsExpr tokens expr s t) :
      ReadsOpening tokens (.evaluate expr) s t

inductive ReadsOptional (tokens : Stream) : Option Expr → State → State → Prop where
  | none {s : State} (closed : tokens.next s = .semicolon) : ReadsOptional tokens none s (s.step tokens)
  | some {s m : State} {value : Expr} (inner : ReadsExpr tokens value s m)
      (closed : tokens.next m = .semicolon) : ReadsOptional tokens (some value) s (m.step tokens)

inductive Passage where
  | stmt (stmt : Stmt)
  | body (stmts : List Stmt)

inductive ReadsStmt (tokens : Stream) : Passage → State → State → Prop where
  | block {s m : State} {body : List Stmt} (opener : tokens.next s = .openCurly)
      (inner : ReadsStmt tokens (.body body) (s.step tokens) m) (closer : tokens.next m = .closeCurly) :
      ReadsStmt tokens (.stmt (.block (tokens.spanTo (tokens.token s.pos).span.start (m.step tokens)) body))
        s (m.step tokens)
  | ifThen {s m t : State} {condition : Expr} {body : Stmt} (word : tokens.next s = .ifWord)
      (header : ReadsCondition tokens condition (s.step tokens) m)
      (inner : ReadsStmt tokens (.stmt body) m t) :
      ReadsStmt tokens (.stmt (.ifThen (tokens.spanTo (tokens.token s.pos).span.start t) condition body)) s t
  | ifElse {s m n t : State} {condition : Expr} {body other : Stmt} (word : tokens.next s = .ifWord)
      (header : ReadsCondition tokens condition (s.step tokens) m)
      (inner : ReadsStmt tokens (.stmt body) m n) (middle : tokens.next n = .elseWord)
      (last : ReadsStmt tokens (.stmt other) (n.step tokens) t) :
      ReadsStmt tokens (.stmt (.ifElse (tokens.spanTo (tokens.token s.pos).span.start t) condition body other))
        s t
  | whileLoop {s m t : State} {condition : Expr} {body : Stmt} (word : tokens.next s = .whileWord)
      (header : ReadsCondition tokens condition (s.step tokens) m)
      (inner : ReadsStmt tokens (.stmt body) m t) :
      ReadsStmt tokens (.stmt (.whileLoop (tokens.spanTo (tokens.token s.pos).span.start t) condition body)) s t
  | forLoop {s l m n t : State} {openings : List Opening} {condition : Option Expr}
      {iterators : List Expr} {body : Stmt} (word : tokens.next s = .forWord)
      (opener : tokens.next (s.step tokens) = .openParen)
      (first : ReadsItems tokens .semicolon (Listed tokens .semicolon (ReadsOpening tokens)) none openings
        ((s.step tokens).step tokens) l)
      (ended : tokens.next l = .semicolon) (second : ReadsOptional tokens condition (l.step tokens) m)
      (third : Reads tokens (.arguments .closeParen iterators) m n) (closer : tokens.next n = .closeParen)
      (inner : ReadsStmt tokens (.stmt body) (n.step tokens) t) :
      ReadsStmt tokens (.stmt (.forLoop (tokens.spanTo (tokens.token s.pos).span.start t) openings condition
        iterators body)) s t
  | returning {s t : State} {value : Option Expr} (word : tokens.next s = .returnWord)
      (given : ReadsOptional tokens value (s.step tokens) t) :
      ReadsStmt tokens (.stmt (.jump (tokens.spanTo (tokens.token s.pos).span.start t) .returning value)) s t
  | jump {s : State} {kind : Jump} (word : (tokens.next s = .breakWord ∧ kind = .breaking) ∨
        (tokens.next s = .continueWord ∧ kind = .continuing))
      (closed : tokens.next (s.step tokens) = .semicolon) :
      ReadsStmt tokens (.stmt (.jump (tokens.spanTo (tokens.token s.pos).span.start
        ((s.step tokens).step tokens)) kind none)) s ((s.step tokens).step tokens)
  | declare {s t : State} {decl : Variable} (line : ReadsLine tokens decl s t) :
      ReadsStmt tokens (.stmt (.declare decl)) s t
  | evaluate {s m : State} {expr : Expr} (inner : ReadsExpr tokens expr s m)
      (closed : tokens.next m = .semicolon) :
      ReadsStmt tokens (.stmt (.evaluate (tokens.spanTo expr.start (m.step tokens)) expr)) s (m.step tokens)
  | none {s : State} (closed : tokens.next s = .closeCurly) : ReadsStmt tokens (.body []) s s
  | cons {s m t : State} {first : Stmt} {others : List Stmt} (head : ReadsStmt tokens (.stmt first) s m)
      (rest : ReadsStmt tokens (.body others) m t) : ReadsStmt tokens (.body (first :: others)) s t

theorem initializer_reads {value : Option Expr} (ran : initializer tokens s = .ok value t) :
    ReadsInitializer tokens value s t := by
  simp only [initializer, kind_bind] at ran
  split at ran
  · rename_i sign
    simp only [skip_bind, bind_ok, pure_ok] at ran
    obtain ⟨value, m, ran, rfl, rfl⟩ := ran
    exact .some sign (expression_reads ran)
  · obtain ⟨rfl, rfl⟩ := pure_ok.mp ran
    exact .none

theorem boundName_ok {found : Token} (ran : boundName tokens s = .ok found t) :
    tokens.next s = .identifier ∧ found = tokens.token s.pos ∧ t = s.step tokens := by
  simp only [boundName, kind_bind] at ran
  split at ran
  · rename_i same
    rw [advance_run] at ran
    cases ran
    exact ⟨same, rfl, rfl⟩
  · exact (unexpectedNear_ok.mp ran).elim

theorem binding_reads {decl : Variable} (ran : binding tokens s = .ok decl t) :
    ReadsBinding tokens decl s t := by
  simp only [binding, place_bind, bind_ok, spanSince_bind, pure_ok] at ran
  obtain ⟨type, m, declared, _, _, name, value, _, given, rfl, rfl⟩ := ran
  obtain ⟨found, rfl, rfl⟩ := boundName_ok name
  exact .mk (typeName_reads declared) found (initializer_reads given)

theorem bindingLine_reads {decl : Variable} (ran : bindingLine tokens s = .ok decl t) :
    ReadsLine tokens decl s t := by
  simp only [bindingLine, bind_ok, expect_ok, spanSince_bind, pure_ok] at ran
  obtain ⟨bare, m, ran, _, _, ⟨closed, -, rfl⟩, rfl, rfl⟩ := ran
  exact .mk (binding_reads ran) closed

theorem condition_reads {value : Expr} (ran : condition tokens s = .ok value t) :
    ReadsCondition tokens value s t := by
  simp only [condition, bind_ok, expect_ok, pure_ok] at ran
  obtain ⟨_, _, ⟨opener, -, rfl⟩, _, m, ran, _, _, ⟨closer, -, rfl⟩, rfl, rfl⟩ := ran
  exact .mk opener (expression_reads ran) closer

theorem startsVariable_run (tokens : Stream) (s : State) :
    ∃ starts, startsVariable tokens s = .ok starts s := ⟨_, rfl⟩

theorem opening_reads {found : Opening} (ran : opening tokens s = .ok found t) :
    ReadsOpening tokens found s t := by
  obtain ⟨starts, looked⟩ := startsVariable_run tokens s
  rw [opening, bind_of_ok looked] at ran
  split at ran
  · simp only [bind_ok, pure_ok] at ran
    obtain ⟨decl, _, ran, rfl, rfl⟩ := ran
    exact .declare (binding_reads ran)
  · simp only [bind_ok, pure_ok] at ran
    obtain ⟨expr, _, ran, rfl, rfl⟩ := ran
    exact .evaluate (expression_reads ran)

theorem optional_reads {value : Option Expr} (ran : optionalExpression tokens s = .ok value m)
    (closed : tokens.next m = .semicolon) : ReadsOptional tokens value s (m.step tokens) := by
  simp only [optionalExpression, kind_bind] at ran
  split at ran
  · obtain ⟨rfl, rfl⟩ := pure_ok.mp ran
    exact .none closed
  · simp only [bind_ok, pure_ok] at ran
    obtain ⟨value, _, ran, rfl, rfl⟩ := ran
    exact .some (expression_reads ran) closed

theorem iterators_reads {expected : List String} {exprs : List Expr}
    (ran : listed .closeParen expected (expression .lowest) tokens s = .ok exprs t) :
    ∃ m, Reads tokens (.arguments .closeParen exprs) s m ∧ tokens.next m = .closeParen ∧
      t = m.step tokens :=
  arguments_reads (fun _ _ _ _ ran => expression_reads ran) ran

theorem returning_reads {found : Stmt} (word : tokens.next s = .returnWord)
    (ran : returning tokens s = .ok found t) : ReadsStmt tokens (.stmt found) s t := by
  simp only [returning, advance_bind, bind_ok, expect_ok, spanSince_bind, pure_ok] at ran
  obtain ⟨value, m, ran, _, _, ⟨closed, -, rfl⟩, rfl, rfl⟩ := ran
  exact .returning word (optional_reads ran closed)

theorem jump_reads {kind : Jump} {found : Stmt} (word : (tokens.next s = .breakWord ∧ kind = .breaking) ∨
    (tokens.next s = .continueWord ∧ kind = .continuing)) (ran : jump kind tokens s = .ok found t) :
    ReadsStmt tokens (.stmt found) s t := by
  simp only [jump, advance_bind, bind_ok, expect_ok, spanSince_bind, pure_ok] at ran
  obtain ⟨_, _, ⟨closed, -, rfl⟩, rfl, rfl⟩ := ran
  exact .jump word closed

theorem simple_reads {found : Stmt} (ran : simple tokens s = .ok found t) :
    ReadsStmt tokens (.stmt found) s t := by
  obtain ⟨starts, looked⟩ := startsVariable_run tokens s
  rw [simple, bind_of_ok looked] at ran
  split at ran
  · simp only [bind_ok, pure_ok] at ran
    obtain ⟨decl, _, ran, rfl, rfl⟩ := ran
    exact .declare (bindingLine_reads ran)
  · simp only [bind_ok, expect_ok, spanSince_bind, pure_ok] at ran
    obtain ⟨expr, m, ran, _, _, ⟨closed, -, rfl⟩, rfl, rfl⟩ := ran
    exact .evaluate (expression_reads ran) closed

theorem body_of_items {previous : Option Stmt} {body : List Stmt}
    (found : ReadsItems tokens .closeCurly (fun _ stmt s t => ReadsStmt tokens (.stmt stmt) s t) previous body
      s t) : ReadsStmt tokens (.body body) s t := by
  induction found with
  | none closed => exact .none closed
  | item head _ ih => exact .cons head ih

section
variable {inner : Rule Stmt}
  (reads : ∀ s found t, inner tokens s = .ok found t → ReadsStmt tokens (.stmt found) s t)
include reads

theorem blockBody_reads {body : List Stmt} (ran : blockBody inner tokens s = .ok body t) :
    ∃ m, ReadsStmt tokens (.body body) s m ∧ tokens.next m = .closeCurly ∧ t = m.step tokens := by
  have item : ∀ (previous : Option Stmt) s found t, (do if ← more then inner else unexpected ["\x7d"])
      tokens s = .ok found t → ReadsStmt tokens (.stmt found) s t := by
    intro _ s found t ran
    rw [more_bind] at ran
    split at ran
    · exact reads _ _ _ ran
    · exact (unexpected_ok.mp ran).elim
  obtain ⟨m, found, closed, rfl⟩ := items_reads item ran
  exact ⟨m, body_of_items found, closed, rfl⟩

theorem blockOf_reads {body : List Stmt} {span : Span} (ran : blockOf inner tokens s = .ok (body, span) t) :
    ∃ m, tokens.next s = .openCurly ∧ ReadsStmt tokens (.body body) (s.step tokens) m ∧
      tokens.next m = .closeCurly ∧ t = m.step tokens ∧
      span = tokens.spanTo (tokens.token s.pos).span.start t := by
  simp only [blockOf, bind_ok, expect_ok, spanSince_bind, pure_ok] at ran
  obtain ⟨_, _, ⟨opener, rfl, rfl⟩, _, _, ran, same, rfl⟩ := ran
  cases same
  obtain ⟨m, found, closer, rfl⟩ := blockBody_reads reads ran
  exact ⟨m, opener, found, closer, rfl, rfl⟩

theorem ifElse_reads {found : Stmt} (word : tokens.next s = .ifWord)
    (ran : ifElse inner tokens s = .ok found t) : ReadsStmt tokens (.stmt found) s t := by
  simp only [ifElse, advance_bind, bind_ok, kind_bind] at ran
  obtain ⟨condition, m, header, body, n, first, ran⟩ := ran
  split at ran
  · rename_i middle
    simp only [skip_bind, bind_ok, spanSince_bind, pure_ok] at ran
    obtain ⟨other, _, last, rfl, rfl⟩ := ran
    exact .ifElse word (condition_reads header) (reads _ _ _ first) middle (reads _ _ _ last)
  · simp only [spanSince_bind, pure_ok] at ran
    obtain ⟨rfl, rfl⟩ := ran
    exact .ifThen word (condition_reads header) (reads _ _ _ first)

theorem whileLoop_reads {found : Stmt} (word : tokens.next s = .whileWord)
    (ran : whileLoop inner tokens s = .ok found t) : ReadsStmt tokens (.stmt found) s t := by
  simp only [whileLoop, advance_bind, bind_ok, spanSince_bind, pure_ok] at ran
  obtain ⟨condition, m, header, body, _, first, rfl, rfl⟩ := ran
  exact .whileLoop word (condition_reads header) (reads _ _ _ first)

theorem forLoop_reads {found : Stmt} (word : tokens.next s = .forWord)
    (ran : forLoop inner tokens s = .ok found t) : ReadsStmt tokens (.stmt found) s t := by
  simp only [forLoop, advance_bind, bind_ok, expect_ok, spanSince_bind, pure_ok] at ran
  obtain ⟨_, _, ⟨opener, -, rfl⟩, openings, _, listed, condition, m, second, _, _, ⟨closed, -, rfl⟩,
    iterators, _, iterated, body, _, last, rfl, rfl⟩ := ran
  obtain ⟨l, first, ended, rfl⟩ := listed_reads (fun _ _ _ ran => opening_reads ran) listed
  obtain ⟨n, third, closer, rfl⟩ := iterators_reads iterated
  exact .forLoop word opener first ended (optional_reads second closed) third closer (reads _ _ _ last)

end

theorem statementWithin_reads (bound : Nat) {found : Stmt}
    (ran : statementWithin bound tokens s = .ok found t) : ReadsStmt tokens (.stmt found) s t := by
  induction bound generalizing s found t with
  | zero => exact (giveUp_ok.mp ran).elim
  | succ bound ih =>
    have reads : ∀ s found t, statementWithin bound tokens s = .ok found t →
        ReadsStmt tokens (.stmt found) s t := fun _ _ _ ran => ih ran
    simp only [statementWithin, kind_bind] at ran
    generalize same : tokens.next s = word at ran
    cases word with
    | openCurly =>
      simp only [bind_ok, pure_ok] at ran
      obtain ⟨⟨body, span⟩, _, ran, rfl, rfl⟩ := ran
      obtain ⟨m, opener, found, closer, rfl, rfl⟩ := blockOf_reads reads ran
      exact .block opener found closer
    | ifWord => exact ifElse_reads reads same ran
    | whileWord => exact whileLoop_reads reads same ran
    | forWord => exact forLoop_reads reads same ran
    | returnWord => exact returning_reads same ran
    | breakWord => exact jump_reads (.inl ⟨same, rfl⟩) ran
    | continueWord => exact jump_reads (.inr ⟨same, rfl⟩) ran
    | _ => exact simple_reads ran

theorem statement_reads {found : Stmt} (ran : statement tokens s = .ok found t) :
    ReadsStmt tokens (.stmt found) s t := statementWithin_reads (tokens.size + 1) ran

theorem block_reads {body : List Stmt} {span : Span} (ran : block tokens s = .ok (body, span) t) :
    ∃ m, tokens.next s = .openCurly ∧ ReadsStmt tokens (.body body) (s.step tokens) m ∧
      tokens.next m = .closeCurly ∧ t = m.step tokens ∧
      span = tokens.spanTo (tokens.token s.pos).span.start t :=
  blockOf_reads (fun _ _ _ ran => statement_reads ran) ran

end TypedScript.Grammar
