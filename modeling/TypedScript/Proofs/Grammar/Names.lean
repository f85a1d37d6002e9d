import TypedScript.Proofs.Grammar.Announcing
import TypedScript.Proofs.Token.Words

namespace TypedScript

namespace Expr

def ownNames : Expr → List String
  | .name _ text | .member _ _ text | .setName _ text _ _ | .setMember _ _ text _ _ => [text]
  | _ => []

def namesIn (exprs : List Expr) : List String := (allOf exprs).flatMap ownNames

theorem namesIn_append (left right : List Expr) : namesIn (left ++ right) = namesIn left ++ namesIn right := by
  unfold namesIn
  rw [allOf_append, List.flatMap_append]

theorem namesIn_single (expr : Expr) : namesIn [expr] = expr.ownNames ++ namesIn expr.parts := by
  unfold namesIn
  rw [allOf_single, List.flatMap_cons]

end Expr

namespace Item

def names (item : Item) : List String := item.declared ++ Expr.namesIn item.roots

theorem mem_names {items : List Item} {name : String} :
    name ∈ items.flatMap names ↔ name ∈ items.flatMap declared ∨ name ∈ Expr.namesIn (items.flatMap roots) := by
  induction items with
  | nil => simp [Expr.namesIn, Expr.allOf]
  | cons first others ih =>
    simp only [List.flatMap_cons, Expr.namesIn_append, List.mem_append, ih, names]
    exact or_or_or_comm

end Item

namespace Declaration

def memberNames : Declaration → List String
  | .enumeration decl => decl.members.map Member.name
  | _ => []

-- All names in a declaration: its own, those of its members, fields, parameters and locals, and those that
-- its expressions refer to.
def names (decl : Declaration) : List String :=
  (decl.name :: decl.memberNames) ++ decl.items.flatMap Item.names

end Declaration

namespace Grammar

namespace Stream

def Names (tokens : Stream) (name : String) : Prop :=
  ∃ pos, (tokens.token pos).kind = .identifier ∧ (tokens.token pos).value = name

def NamesType (tokens : Stream) (name : String) : Prop :=
  ∃ pos, (tokens.token pos).kind.BeginsType ∧ (tokens.token pos).value = name

end Stream

variable {tokens : Stream} {s t m n : State} {roots others : List Expr} {expr : Expr}

theorem names_here (found : tokens.next s = .identifier) : tokens.Names (tokens.token s.pos).value :=
  ⟨s.pos, found, rfl⟩

theorem ReadsType.over {type : Ty} (reads : ReadsType tokens type s t) : type.Over tokens.NamesType := by
  induction reads with
  | @named s word => exact Ty.over_named.mpr ⟨s.pos, word, rfl⟩
  | array _ _ _ element => exact Ty.over_array.mpr element
  | map _ _ _ _ value key => exact Ty.over_map.mpr ⟨key, value⟩

structure Tokened (tokens : Stream) (roots : List Expr) : Prop where
  names : ∀ name ∈ Expr.namesIn roots, tokens.Names name
  types : Expr.States (Ty.Over tokens.NamesType) roots

namespace Tokened

theorem nil : Tokened tokens [] := ⟨List.forall_mem_nil _, List.forall_mem_nil _⟩

theorem append (first : Tokened tokens roots) (second : Tokened tokens others) :
    Tokened tokens (roots ++ others) := by
  refine ⟨?_, Expr.states_append.mpr ⟨first.types, second.types⟩⟩
  rw [Expr.namesIn_append]
  exact List.forall_mem_append.mpr ⟨first.names, second.names⟩

theorem node (parts : Tokened tokens expr.parts) (own : ∀ name ∈ expr.ownNames, tokens.Names name)
    (targets : ∀ type ∈ expr.targets, type.Over tokens.NamesType) : Tokened tokens [expr] := by
  refine ⟨?_, Expr.states_single.mpr ⟨targets, parts.types⟩⟩
  rw [Expr.namesIn_single]
  exact List.forall_mem_append.mpr ⟨own, parts.names⟩

theorem plain (parts : Tokened tokens expr.parts) (names : expr.ownNames = []) (targets : expr.targets = []) :
    Tokened tokens [expr] := by
  refine parts.node ?_ ?_
  · rw [names]
    exact List.forall_mem_nil _
  · rw [targets]
    exact List.forall_mem_nil _

theorem own (whole : Tokened tokens [expr]) : ∀ name ∈ expr.ownNames, tokens.Names name := by
  obtain ⟨names, -⟩ := whole
  rw [Expr.namesIn_single] at names
  exact (List.forall_mem_append.mp names).1

theorem parts (whole : Tokened tokens [expr]) : Tokened tokens expr.parts := by
  obtain ⟨names, types⟩ := whole
  rw [Expr.namesIn_single] at names
  exact ⟨(List.forall_mem_append.mp names).2, (Expr.states_single.mp types).2⟩

end Tokened

-- An assignment takes its name over from the expression on its left side.
theorem Reads.tokened {phrase : Phrase} (reads : Reads tokens phrase s t) : Tokened tokens phrase.exprs := by
  induction reads with
  | literal _ => exact Tokened.nil.plain rfl rfl
  | name found => exact Tokened.nil.node (List.forall_mem_singleton.mpr (names_here found)) (List.forall_mem_nil _)
  | leading _ _ _ inside | group _ _ _ inside => exact inside.plain rfl rfl
  | construct _ type _ _ _ inside =>
    exact inside.node (List.forall_mem_nil _) (List.forall_mem_singleton.mpr type.over)
  | binary _ _ _ _ _ before inside => exact (before.append inside).plain rfl rfl
  | trailing _ _ _ before => exact before.plain rfl rfl
  | setName _ _ _ _ _ before inside | setMember _ _ _ _ _ before inside =>
    exact (before.parts.append inside).node before.own (List.forall_mem_nil _)
  | setIndex _ _ _ _ _ before inside => exact (before.parts.append inside).plain rfl rfl
  | call _ _ _ _ _ before inside | element _ _ _ _ _ before inside => exact (before.append inside).plain rfl rfl
  | member _ _ _ found before =>
    exact before.node (List.forall_mem_singleton.mpr (names_here found)) (List.forall_mem_nil _)
  | cast _ _ _ type _ before =>
    exact before.node (List.forall_mem_nil _) (List.forall_mem_singleton.mpr type.over)
  | none _ => exact .nil
  | argument _ _ _ _ first rest => exact first.append rest

theorem Traces.tokened {types : List Ty} (trace : Traces tokens types roots s t) :
    (∀ type ∈ types, type.Over tokens.NamesType) ∧ Tokened tokens roots := by
  induction trace with
  | done => exact ⟨List.forall_mem_nil _, .nil⟩
  | skip _ _ ih => exact ih
  | type declared _ ih => exact ⟨List.forall_mem_cons.mpr ⟨declared.over, ih.1⟩, ih.2⟩
  | root inner _ ih => exact ⟨ih.1, inner.tokened.append ih.2⟩

def Labelled (tokens : Stream) (items : List Item) : Prop := ∀ name ∈ items.flatMap Item.declared, tokens.Names name

namespace Labelled

theorem append {items rest : List Item} (first : Labelled tokens items) (second : Labelled tokens rest) :
    Labelled tokens (items ++ rest) := by
  unfold Labelled
  rw [List.flatMap_append]
  exact List.forall_mem_append.mpr ⟨first, second⟩

theorem silent {items : List Item} (none : ∀ item ∈ items, item.declared = []) : Labelled tokens items := by
  unfold Labelled
  rw [List.flatMap_eq_nil_iff.mpr none]
  exact List.forall_mem_nil _

theorem ofExprs (wrap : Expr → Item) (none : ∀ expr, (wrap expr).declared = []) (exprs : List Expr) :
    Labelled tokens (exprs.map wrap) := by
  refine silent ?_
  intro item member
  obtain ⟨expr, -, rfl⟩ := List.mem_map.mp member
  exact none expr

theorem ofList {α : Type} {closer : Kind} {Item : Option α → α → State → State → Prop}
    {wrap : α → TypedScript.Item}
    (each : ∀ previous found s t, Item previous found s t → Labelled tokens [wrap found])
    {previous : Option α} {found : List α} (reads : ReadsItems tokens closer Item previous found s t) :
    Labelled tokens (found.map wrap) := by
  induction reads with
  | none _ => exact silent (List.forall_mem_nil _)
  | item head _ ih => exact (each _ _ _ _ head).append ih

end Labelled

theorem ReadsBinding.labelled {decl : Variable} (reads : ReadsBinding tokens decl s t) :
    Labelled tokens [.declare decl] := by
  cases reads with
  | mk _ found _ => exact List.forall_mem_singleton.mpr (names_here found)

theorem ReadsLine.labelled {decl : Variable} (reads : ReadsLine tokens decl s t) :
    Labelled tokens [.declare decl] := by
  cases reads with
  | mk binding _ => exact binding.labelled

theorem ReadsOpening.labelled {opening : Opening} (reads : ReadsOpening tokens opening s t) :
    Labelled tokens [opening.item] := by
  cases reads with
  | declare binding => exact binding.labelled
  | evaluate _ => exact .ofExprs .value (fun _ => rfl) [_]

theorem ReadsStmt.labelled {passage : Passage} (reads : ReadsStmt tokens passage s t) :
    Labelled tokens passage.items := by
  induction reads with
  | block _ _ _ inside => exact inside
  | ifThen _ _ _ inside | whileLoop _ _ _ inside =>
    exact (Labelled.ofExprs .condition (fun _ => rfl) [_]).append inside
  | ifElse _ _ _ _ _ inside last =>
    exact (Labelled.ofExprs .condition (fun _ => rfl) [_]).append (inside.append last)
  | forLoop _ _ first _ _ _ _ _ inside =>
    have openings := Labelled.ofList (fun _ _ _ _ listed => listed.choose_spec.1.labelled) first
    exact ((openings.append (.ofExprs .condition (fun _ => rfl) _)).append (.ofExprs .value (fun _ => rfl) _)).append inside
  | returning _ _ => exact .ofExprs .value (fun _ => rfl) _
  | jump _ _ | none _ => exact .silent (List.forall_mem_nil _)
  | declare line => exact line.labelled
  | evaluate _ _ => exact .ofExprs .value (fun _ => rfl) [_]
  | cons _ _ first rest => exact first.append rest

theorem ReadsParameter.labelled {found : Parameter} (reads : ReadsParameter tokens found s t) :
    Labelled tokens [.parameter found] := by
  cases reads with
  | mk _ found => exact List.forall_mem_singleton.mpr (names_here found)

theorem ReadsFunction.labelled {decl : Function} (reads : ReadsFunction tokens decl s t) :
    tokens.Names decl.name ∧ Labelled tokens (Declaration.function decl).items := by
  cases reads with
  | mk first _ inner _ =>
    cases first with
    | mk _ found _ parameters _ =>
      have listed := Labelled.ofList (fun _ _ _ _ listed => listed.choose_spec.1.labelled) parameters
      exact ⟨names_here found, listed.append inner.labelled⟩

theorem ReadsStruct.labelled {decl : Struct} (reads : ReadsStruct tokens decl s t) :
    tokens.Names decl.name ∧ Labelled tokens (Declaration.struct decl).items := by
  cases reads with
  | mk _ found _ inner _ => exact ⟨names_here found, .ofList (fun _ _ _ _ line => line.labelled) inner⟩

theorem ReadsItems.members {previous : Option Member} {members : List Member}
    (reads : ReadsItems tokens .closeCurly (ReadsMember tokens) previous members s t) :
    ∀ name ∈ members.map Member.name, tokens.Names name := by
  induction reads with
  | none _ => exact List.forall_mem_nil _
  | item head _ ih =>
    cases head with
    | mk found _ _ => exact List.forall_mem_cons.mpr ⟨names_here found, ih⟩

theorem ReadsEnumeration.labelled {decl : Enumeration} (reads : ReadsEnumeration tokens decl s t) :
    ∀ name ∈ decl.name :: decl.members.map Member.name, tokens.Names name := by
  cases reads with
  | mk _ found _ inner _ => exact List.forall_mem_cons.mpr ⟨names_here found, inner.members⟩

theorem ReadsDelegate.labelled {decl : Delegate} (reads : ReadsDelegate tokens decl s t) :
    tokens.Names decl.name ∧ Labelled tokens (Declaration.delegate decl).items := by
  cases reads with
  | mk _ _ found _ _ _ _ =>
    refine ⟨names_here found, .silent ?_⟩
    intro item member
    obtain ⟨type, -, rfl⟩ := List.mem_map.mp member
    rfl

theorem ReadsDeclaration.labelled {decl : Declaration} (reads : ReadsDeclaration tokens decl s t) :
    (∀ name ∈ decl.name :: decl.memberNames, tokens.Names name) ∧ Labelled tokens decl.items := by
  cases reads with
  | struct inner => exact ⟨List.forall_mem_singleton.mpr inner.labelled.1, inner.labelled.2⟩
  | enumeration inner => exact ⟨inner.labelled, .silent (List.forall_mem_nil _)⟩
  | delegate inner => exact ⟨List.forall_mem_singleton.mpr inner.labelled.1, inner.labelled.2⟩
  | function _ inner => exact ⟨List.forall_mem_singleton.mpr inner.labelled.1, inner.labelled.2⟩
  | global _ inner => exact ⟨inner.labelled, inner.labelled⟩

theorem ReadsDeclaration.tokened {decl : Declaration} (reads : ReadsDeclaration tokens decl s t) :
    (∀ name ∈ decl.names, tokens.Names name) ∧ ∀ type ∈ decl.written, type.Over tokens.NamesType := by
  obtain ⟨own, labelled⟩ := reads.labelled
  obtain ⟨_, _, -, trace, -⟩ := reads.traces
  obtain ⟨types, roots⟩ := trace.tokened
  constructor
  · intro name member
    rcases List.mem_append.mp member with declared | inner
    · exact own name declared
    · rcases Item.mem_names.mp inner with label | used
      · exact labelled name label
      · exact roots.names name used
  · intro type member
    rcases Item.mem_written.mp member with stated | target
    · exact types type (List.mem_append_right _ stated)
    · exact roots.types type target

end Grammar

end TypedScript
