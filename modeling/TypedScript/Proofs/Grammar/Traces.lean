import TypedScript.Grammar.Outline
import TypedScript.Proofs.Grammar.DeclarationReading
import TypedScript.Proofs.Tree.Items

namespace TypedScript.Grammar

def Untouched (s t : State) : Prop := t.nextId = s.nextId ∧ t.catalog = s.catalog

-- What reading does besides taking tokens: it reads types and whole expressions, in the order of the text.
-- The types and the expressions are listed apart, since no statement needs to know how they interleave.
inductive Traces (tokens : Stream) : List Ty → List Expr → State → State → Prop where
  | done {s : State} : Traces tokens [] [] s s
  | skip {s m t : State} {types : List Ty} {roots : List Expr} (kept : Untouched s m)
      (rest : Traces tokens types roots m t) : Traces tokens types roots s t
  | type {s m t : State} {type : Ty} {types : List Ty} {roots : List Expr}
      (declared : ReadsType tokens type s m) (rest : Traces tokens types roots m t) :
      Traces tokens (type :: types) roots s t
  | root {s m t : State} {level : Level} {expr : Expr} {types : List Ty} {roots : List Expr}
      (inner : Reads tokens (.expr level expr) s m) (rest : Traces tokens types roots m t) :
      Traces tokens types (expr :: roots) s t

def TracesItems (tokens : Stream) (items : List Item) : State → State → Prop :=
  Traces tokens (items.flatMap Item.types) (items.flatMap Item.roots)

variable {tokens : Stream} {s t m n : State}

theorem Untouched.refl (s : State) : Untouched s s := ⟨rfl, rfl⟩

theorem Untouched.trans (first : Untouched s m) (second : Untouched m t) : Untouched s t :=
  ⟨second.1.trans first.1, second.2.trans first.2⟩

theorem Untouched.moved (s : State) (pos : Nat) : Untouched s (s.moved pos) := ⟨rfl, rfl⟩

theorem Untouched.step (tokens : Stream) (s : State) : Untouched s (s.step tokens) := by
  simp [Untouched]

namespace Traces

theorem append {types others : List Ty} {roots exprs : List Expr} (first : Traces tokens types roots s m)
    (second : Traces tokens others exprs m t) : Traces tokens (types ++ others) (roots ++ exprs) s t := by
  induction first with
  | done => exact second
  | skip kept _ ih => exact .skip kept (ih second)
  | type declared _ ih => exact .type declared (ih second)
  | root inner _ ih => exact .root inner (ih second)

theorem step (s : State) : Traces tokens [] [] s (s.step tokens) := .skip (.step tokens s) .done

theorem before {types : List Ty} {roots : List Expr} (rest : Traces tokens types roots (s.step tokens) t) :
    Traces tokens types roots s t := .skip (.step tokens s) rest

theorem after {types : List Ty} {roots : List Expr} (first : Traces tokens types roots s m) :
    Traces tokens types roots s (m.step tokens) := by
  have whole := first.append (step m)
  rwa [List.append_nil, List.append_nil] at whole

end Traces

theorem TracesItems.append {items others : List Item} (first : TracesItems tokens items s m)
    (second : TracesItems tokens others m t) : TracesItems tokens (items ++ others) s t := by
  unfold TracesItems
  rw [List.flatMap_append, List.flatMap_append]
  exact Traces.append first second

theorem Separated.untouched {closer : Kind} (separated : Separated tokens closer s t) : Untouched s t := by
  rcases separated with ⟨-, rfl⟩ | ⟨-, rfl⟩
  · exact .step tokens _
  · exact .refl _

theorem arguments_trace {closer : Kind} {exprs : List Expr} (reads : Reads tokens (.arguments closer exprs) s t) :
    Traces tokens [] exprs s t := by
  induction exprs generalizing s with
  | nil =>
    cases reads with
    | none _ => exact .done
  | cons first others ih =>
    cases reads with
    | argument head _ separated rest => exact .root head (.skip separated.untouched (ih rest))

theorem ReadsItems.traces {α : Type} {closer : Kind} {Item : Option α → α → State → State → Prop}
    (items : α → List TypedScript.Item)
    (item : ∀ previous found s t, Item previous found s t → TracesItems tokens (items found) s t)
    {previous : Option α} {found : List α} (reads : ReadsItems tokens closer Item previous found s t) :
    TracesItems tokens (found.flatMap items) s t := by
  induction reads with
  | none _ => exact .done
  | item head _ ih => exact (item _ _ _ _ head).append ih

theorem Listed.traces {α : Type} {closer : Kind} {Item : α → State → State → Prop}
    {items : α → List TypedScript.Item} (item : ∀ found s t, Item found s t → TracesItems tokens (items found) s t)
    (previous : Option α) (found : α) (s t : State) (listed : Listed tokens closer Item previous found s t) :
    TracesItems tokens (items found) s t := by
  obtain ⟨m, inside, separated⟩ := listed
  have whole := Traces.append (item _ _ _ inside) (.skip separated.untouched .done)
  rwa [List.append_nil, List.append_nil] at whole

theorem ReadsBinding.traces {decl : Variable} (reads : ReadsBinding tokens decl s t) :
    TracesItems tokens [.declare decl] s t := by
  cases reads with
  | mk declared _ given =>
    cases given with
    | none => exact .type declared (.before .done)
    | some _ inner => exact .type declared (.before (.before (.root inner.1 .done)))

theorem ReadsLine.traces {decl : Variable} (reads : ReadsLine tokens decl s t) :
    TracesItems tokens [.declare decl] s t := by
  cases reads with
  | mk binding _ => exact Traces.after binding.traces

theorem ReadsCondition.traces {value : Expr} (reads : ReadsCondition tokens value s t) :
    TracesItems tokens [.condition value] s t := by
  cases reads with
  | mk _ inner _ => exact .before (.root inner.1 (.step _))

theorem ReadsOpening.traces {opening : Opening} (reads : ReadsOpening tokens opening s t) :
    TracesItems tokens [opening.item] s t := by
  cases reads with
  | declare binding => exact binding.traces
  | evaluate inner => exact .root inner.1 .done

theorem ReadsOptional.traces {value : Option Expr} (reads : ReadsOptional tokens value s t) :
    Traces tokens [] value.toList s t := by
  cases reads with
  | none _ => exact .step s
  | some inner _ => exact .root inner.1 (.step _)

theorem TracesItems.ofExprs {wrap : Expr → Item} (roots : ∀ expr, (wrap expr).roots = [expr])
    (types : ∀ expr, (wrap expr).types = []) {exprs : List Expr} (trace : Traces tokens [] exprs s t) :
    TracesItems tokens (exprs.map wrap) s t := by
  have one : (exprs.map wrap).flatMap Item.roots = exprs := by simp [List.flatMap_map, roots]
  have other : (exprs.map wrap).flatMap Item.types = [] := by simp [List.flatMap_map, types]
  unfold TracesItems
  rw [one, other]
  exact trace

def Passage.items : Passage → List Item
  | .stmt found => found.items
  | .body found => Stmt.itemsOf found

theorem ReadsStmt.traces {passage : Passage} (reads : ReadsStmt tokens passage s t) :
    TracesItems tokens passage.items s t := by
  induction reads with
  | block _ _ _ inside => exact .before (.after inside)
  | ifThen _ header _ inside | whileLoop _ header _ inside => exact .before (header.traces.append inside)
  | ifElse _ header _ _ _ inside last =>
    exact .before (header.traces.append (inside.append (Traces.before last)))
  | @forLoop _ _ _ _ _ openings condition iterators _ _ _ first _ second third _ _ inside =>
    have openings := first.traces (fun opening => [opening.item])
      (Listed.traces fun _ _ _ opening => opening.traces)
    rw [← List.map_eq_flatMap] at openings
    have test : TracesItems tokens (condition.toList.map .condition) _ _ :=
      .ofExprs (fun _ => rfl) (fun _ => rfl) second.traces
    have steps : TracesItems tokens (iterators.map .value) _ _ :=
      .ofExprs (fun _ => rfl) (fun _ => rfl) (arguments_trace third)
    have header := (openings.append (Traces.before test)).append steps
    exact .before (.before (header.append (Traces.before inside)))
  | @returning _ _ value _ given =>
    have values : TracesItems tokens (value.toList.map .value) _ _ :=
      .ofExprs (fun _ => rfl) (fun _ => rfl) given.traces
    exact Traces.before values
  | jump _ _ => exact .before (.before .done)
  | declare line => exact line.traces
  | evaluate inner _ => exact .root inner.1 (.step _)
  | none _ => exact .done
  | cons _ _ first rest => exact first.append rest

theorem ReadsStmt.bare {passage : Passage} (reads : ReadsStmt tokens passage s t) :
    match passage with
    | .stmt found => found.Bare
    | .body found => Stmt.BareAll found := by
  induction reads with
  | block _ _ _ inside | ifThen _ _ _ inside | whileLoop _ _ _ inside
  | forLoop _ _ _ _ _ _ _ _ inside => exact inside
  | ifElse _ _ _ _ _ inside last => exact ⟨inside, last⟩
  | returning _ _ => exact .inl rfl
  | jump _ _ => exact .inr rfl
  | declare _ | evaluate _ _ | none _ => trivial
  | cons _ _ first rest => exact ⟨first, rest⟩

theorem ReadsParameter.traces {found : Parameter} (reads : ReadsParameter tokens found s t) :
    TracesItems tokens [.parameter found] s t := by
  cases reads with
  | mk declared _ => exact .type declared (.step _)

theorem ReadsDelegateParameter.traces {type : Ty} (reads : ReadsDelegateParameter tokens type s t) :
    TracesItems tokens [.mention type] s t := by
  cases reads with
  | bare declared => exact .type declared .done
  | named declared _ => exact .type declared (.step _)

theorem ReadsDelegate.traces {decl : Delegate} (reads : ReadsDelegate tokens decl s t) :
    TracesItems tokens (Declaration.delegate decl).items s t := by
  cases reads with
  | @mk s _ n returns parameters _ declared _ _ inner _ _ =>
    have list := inner.traces (fun type => [.mention type])
      (Listed.traces fun _ _ _ parameter => parameter.traces)
    rw [← List.map_eq_flatMap] at list
    have types : TracesItems tokens (.mention returns :: parameters.map .mention) (s.step tokens) n :=
      .type declared (.before (.before list))
    exact .before (.after (.after types))

theorem ReadsHead.traces {header : FunctionHead} (reads : ReadsHead tokens header s t) :
    TracesItems tokens (.mention header.returns :: header.parameters.map .parameter) s t := by
  cases reads with
  | @mk _ m n returns parameters declared _ _ inner _ =>
    have list := inner.traces (fun parameter => [.parameter parameter])
      (Listed.traces fun _ _ _ parameter => parameter.traces)
    rw [← List.map_eq_flatMap] at list
    exact .type declared (.before (.before (.after list)))

theorem ReadsFunction.traces {decl : Function} (reads : ReadsFunction tokens decl s t) :
    TracesItems tokens (Declaration.function decl).items s t := by
  cases reads with
  | mk first _ inner _ =>
    have body := first.traces.append (Traces.before (.after inner.traces))
    rwa [List.cons_append] at body

theorem ReadsStruct.traces {decl : Struct} (reads : ReadsStruct tokens decl s t) :
    TracesItems tokens (Declaration.struct decl).items s t := by
  cases reads with
  | mk _ _ _ inner _ =>
    have fields := inner.traces (fun field => [.declare field]) fun _ _ _ _ line => line.traces
    rw [← List.map_eq_flatMap] at fields
    exact .before (.before (.before (.after fields)))

theorem ReadsValue.untouched (reads : ReadsValue tokens s t) : Untouched s t := by
  cases reads with
  | implied => exact .refl _
  | stated _ _ => exact (Untouched.step tokens _).trans (.step tokens _)
  | negated _ _ _ => exact ((Untouched.step tokens _).trans (.step tokens _)).trans (.step tokens _)

theorem ReadsEnumeration.traces {decl : Enumeration} (reads : ReadsEnumeration tokens decl s t) :
    TracesItems tokens (Declaration.enumeration decl).items s t := by
  cases reads with
  | mk _ _ _ inner _ =>
    have members := inner.traces (fun _ => []) fun _ _ _ _ member => by
      cases member with
      | mk _ valued separated =>
        exact .before (.skip ((memberValue_reads valued).untouched.trans separated.untouched) .done)
    rw [List.flatMap_eq_nil_iff.mpr fun _ _ => rfl] at members
    exact .before (.before (.before (.after members)))

-- A declaration is read by its items, after its first type has been read once ahead if it has one there.
-- Then the catalog takes its shape.
theorem ReadsDeclaration.traces {decl : Declaration} (reads : ReadsDeclaration tokens decl s t) :
    ∃ ahead m, (∀ type ∈ ahead, type ∈ decl.items.flatMap Item.types) ∧
      Traces tokens (ahead ++ decl.items.flatMap Item.types) (decl.items.flatMap Item.roots) s m ∧
        t = m.entered (shape decl) := by
  cases reads with
  | struct inner => exact ⟨[], _, nofun, inner.traces, rfl⟩
  | enumeration inner => exact ⟨[], _, nofun, inner.traces, rfl⟩
  | delegate inner => exact ⟨[], _, nofun, inner.traces, rfl⟩
  | @function _ _ _ decl ahead inner =>
    refine ⟨[decl.returns], _, ?_, .type ahead (.before (.skip (.moved _ _) inner.traces)), rfl⟩
    simp [Declaration.items, Item.types]
  | @global _ _ _ decl ahead inner =>
    refine ⟨[decl.type], _, ?_, .type ahead (.before (.skip (.moved _ _) inner.traces)), rfl⟩
    simp [Declaration.items, Item.types]

theorem ReadsDeclaration.bare {decl : Declaration} (reads : ReadsDeclaration tokens decl s t) : decl.Bare := by
  cases reads with
  | function _ inner =>
    cases inner with
    | mk _ _ body _ => exact body.bare
  | _ => trivial

inductive ReadsDeclarations (tokens : Stream) : List Declaration → State → State → Prop where
  | nil {s : State} : ReadsDeclarations tokens [] s s
  | cons {s m t : State} {pos : Nat} {decl : Declaration} {decls : List Declaration}
      (head : ReadsDeclaration tokens decl (s.moved pos) m) (rest : ReadsDeclarations tokens decls m t) :
      ReadsDeclarations tokens (decl :: decls) s t

theorem declarations_reads {entries : List Entry} {decls : List Declaration}
    (ran : declarations entries tokens s = .ok decls t) : ReadsDeclarations tokens decls s t := by
  induction entries generalizing s decls with
  | nil =>
    obtain ⟨rfl, rfl⟩ := pure_ok.mp ran
    exact .nil
  | cons entry entries ih =>
    simp only [declarations, seek_bind, bind_ok, index_bind] at ran
    obtain ⟨decl, m, parsed, ran⟩ := ran
    split at ran
    · simp only [bind_ok, pure_ok] at ran
      obtain ⟨_, _, rest, rfl, rfl⟩ := ran
      exact .cons (declaration_reads parsed) (ih rest)
    · exact (unexpectedNear_ok.mp ran).elim

theorem ReadsDeclarations.each {holds : Declaration → Prop}
    (each : ∀ decl s t, ReadsDeclaration tokens decl s t → holds decl) {decls : List Declaration}
    (reads : ReadsDeclarations tokens decls s t) : ∀ decl ∈ decls, holds decl := by
  induction reads with
  | nil => nofun
  | cons head _ ih =>
    intro decl member
    rcases List.mem_cons.mp member with rfl | later
    · exact each _ _ _ head
    · exact ih decl later

theorem ReadsDeclarations.bare {decls : List Declaration} (reads : ReadsDeclarations tokens decls s t) :
    ∀ decl ∈ decls, decl.Bare :=
  reads.each fun _ _ _ found => found.bare

end TypedScript.Grammar
