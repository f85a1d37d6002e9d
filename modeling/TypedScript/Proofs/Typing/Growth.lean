import TypedScript.Proofs.Catalog.Grounding
import TypedScript.Proofs.Typing.Passes

namespace TypedScript.Typing

-- Checking changes a catalog in its known types alone, and never a record that is there.
structure Grows (s t : State) : Prop where
  catalog : ∃ types, t.catalog = { s.catalog with types }
  kept : ∀ id type, s.types.get? id = some type → t.types.get? id = some type

def Records (s t : State) (exprs : List Expr) : Prop :=
  ∀ id, (t.types.get? id).isSome ↔ (s.types.get? id).isSome ∨ ∃ expr ∈ exprs, expr.id = id

variable {env : Vectors} {s t m : State} {exprs others : List Expr}

namespace Grows

theorem refl (s : State) : Grows s s := ⟨⟨s.catalog.types, rfl⟩, fun _ _ found => found⟩

theorem trans (first : Grows s m) (second : Grows m t) : Grows s t := by
  obtain ⟨⟨early, before⟩, kept⟩ := first
  obtain ⟨⟨late, after⟩, keeps⟩ := second
  refine ⟨⟨late, ?_⟩, fun id type found => keeps id type (kept id type found)⟩
  rw [after, before]

theorem recorded (s : State) (node : Node) (type : Ty) : Grows s (s.recorded node type) := by
  refine ⟨s.catalog.addType_types type, ?_⟩
  intro id found known
  show (s.types.insertNew node.id type).get? id = some found
  rw [Table.get?_insertNew, known]
  rfl

end Grows

namespace Records

theorem nil (same : t.types = s.types) : Records s t (Expr.allOf []) := by
  intro id
  simp [same, Expr.allOf]

theorem append (first : Records s m exprs) (second : Records m t others) : Records s t (exprs ++ others) := by
  intro id
  rw [second id, first id]
  constructor
  · rintro ((old | ⟨expr, member, same⟩) | ⟨expr, member, same⟩)
    · exact .inl old
    · exact .inr ⟨expr, List.mem_append_left _ member, same⟩
    · exact .inr ⟨expr, List.mem_append_right _ member, same⟩
  · rintro (old | ⟨expr, member, same⟩)
    · exact .inl (.inl old)
    · rcases List.mem_append.mp member with here | there
      · exact .inl (.inr ⟨expr, here, same⟩)
      · exact .inr ⟨expr, there, same⟩

theorem roots {parts rest : List Expr} (first : Records s m (Expr.allOf parts))
    (second : Records m t (Expr.allOf rest)) : Records s t (Expr.allOf (parts ++ rest)) := by
  rw [Expr.allOf_append]
  exact first.append second

theorem node {expr : Expr} {node : Node} {type : Ty} (inner : Records s t (Expr.allOf expr.parts))
    (same : expr.node = node) : Records s (t.recorded node type) (Expr.allOf [expr]) := by
  rw [Expr.allOf_single, ← same]
  intro id
  show ((t.types.insertNew expr.id type).get? id).isSome ↔ _
  rw [Table.get?_insertNew]
  have before := inner id
  by_cases same : id = expr.id
  · simp [same]
  · have other : ¬expr.id = id := fun back => same back.symm
    simp [same, other, before]

end Records

def Query.roots : Query → List Expr
  | .expr found _ => [found]
  | .all found _ => found
  | .arguments found _ _ => found

namespace Checks

variable {query : Query}

theorem grows (checks : Checks env query s t) : Grows s t := by
  induction checks with
  | group _ ih | unary _ ih | cast _ _ ih => exact ih.trans (.recorded _ _ _)
  | literal | name _ => exact .recorded _ _ _
  | member _ _ ih | setName _ _ _ ih | construct _ _ _ ih => exact ih.trans (.recorded _ _ _)
  | setMember _ _ _ _ first last | binary _ _ _ first last | operation _ _ _ _ _ first last
  | call _ _ _ _ first last | index _ _ _ first last => exact (first.trans last).trans (.recorded _ _ _)
  | setIndex _ _ _ _ _ first second last => exact ((first.trans second).trans last).trans (.recorded _ _ _)
  | none | noArgument => exact .refl _
  | cons _ _ first last | argument _ _ _ first last => exact first.trans last

theorem records (checks : Checks env query s t) : Records s t (Expr.allOf query.roots) := by
  induction checks with
  | group _ ih | unary _ ih | cast _ _ ih | member _ _ ih | setName _ _ _ ih | construct _ _ _ ih =>
    exact ih.node rfl
  | literal | name _ => exact (Records.nil rfl).node rfl
  | setMember _ _ _ _ first last | binary _ _ _ first last | operation _ _ _ _ _ first last
  | call _ _ _ _ first last | index _ _ _ first last => exact (first.roots last).node rfl
  | setIndex _ _ _ _ _ first second last => exact ((first.roots second).roots last).node rfl
  | none | noArgument => exact .nil rfl
  | cons _ _ first last | argument _ _ _ first last => exact first.roots last

end Checks

theorem Initializes.grows {type : Ty} {given : Option Expr} (initializes : Initializes env type given s t) :
    Grows s t := by
  cases initializes with
  | none => exact .refl _
  | some inner _ => exact inner.grows

theorem Initializes.records {type : Ty} {given : Option Expr} (initializes : Initializes env type given s t) :
    Records s t (Expr.allOf given.toList) := by
  cases initializes with
  | none => exact .nil rfl
  | some inner _ => exact inner.records

theorem Grows.same (rest : Grows m t) (left : m.catalog = s.catalog) (right : m.types = s.types) : Grows s t := by
  obtain ⟨⟨types, after⟩, kept⟩ := rest
  refine ⟨⟨types, by rw [after, left]⟩, ?_⟩
  rwa [right] at kept

theorem Records.same (rest : Records m t exprs) (right : m.types = s.types) : Records s t exprs := by
  unfold Records at rest ⊢
  rwa [right] at rest

theorem bound_same {decl : Variable} {n : State}
    (bound : n = m ∨ ∃ place scopes, m.scopes.declare decl.name decl.type place = .ok scopes ∧
      n = m.rescoped scopes) : n.catalog = m.catalog ∧ n.types = m.types := by
  rcases bound with rfl | ⟨_, _, -, rfl⟩
  · exact ⟨rfl, rfl⟩
  · exact ⟨rfl, rfl⟩

namespace Passes

variable {items : List Item}

theorem grows (passes : Passes env items s t) : Grows s t := by
  induction passes with
  | done => exact .refl _
  | push _ ih | pop _ ih | frame _ _ ih | parameter _ _ _ ih => exact ih.same rfl rfl
  | mention _ _ ih => exact ih
  | declare _ given bound _ ih =>
    obtain ⟨left, right⟩ := bound_same bound
    exact given.grows.trans (ih.same left right)
  | condition test _ ih => exact test.grows.trans ih
  | value inner _ ih => exact inner.grows.trans ih

theorem records (passes : Passes env items s t) : Records s t (items.flatMap Item.exprs) := by
  induction passes with
  | done => exact .nil rfl
  | push _ ih | pop _ ih | frame _ _ ih | parameter _ _ _ ih => exact ih.same rfl
  | mention _ _ ih => exact ih
  | declare _ given bound _ ih => exact given.records.append (ih.same (bound_same bound).2)
  | condition test _ ih => exact test.records.append ih
  | value inner _ ih => exact inner.records.append ih

end Passes

end TypedScript.Typing
