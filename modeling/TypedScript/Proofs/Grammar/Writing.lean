import TypedScript.Proofs.Grammar.Numbering
import TypedScript.Proofs.Token.Words

namespace TypedScript

namespace Grammar

def Stream.Worded (tokens : Stream) : Prop := ∀ pos, (tokens.token pos).Worded

-- What the types that a program writes do to a catalog while they are read: those with brackets are entered,
-- and with them all that comes with them.
structure Writes (written : List Ty) (s t : State) : Prop where
  plain : ∀ type ∈ written, type.Over Plain
  entered : ∃ types, t.catalog = s.catalog.addTypes types ∧
    ∀ part, part ∈ types.flatMap Ty.parts ↔ ∃ type ∈ written, type.isBracketed = true ∧ part ∈ type.parts

variable {tokens : Stream} {s t m n : State} {written others : List Ty} {type : Ty}

namespace Writes

theorem none (kept : t.catalog = s.catalog) : Writes [] s t := ⟨nofun, [], kept, by simp⟩

theorem append (first : Writes written s m) (second : Writes others m t) : Writes (written ++ others) s t := by
  obtain ⟨plain, types, before, each⟩ := first
  obtain ⟨also, rest, after, every⟩ := second
  refine ⟨?_, types ++ rest, ?_, ?_⟩
  · intro type member
    rcases List.mem_append.mp member with here | there
    · exact plain type here
    · exact also type there
  · rw [after, before, Catalog.addTypes_append]
  · intro part
    rw [List.flatMap_append, List.mem_append, each, every]
    constructor
    · rintro (⟨type, found, rests⟩ | ⟨type, found, rests⟩)
      · exact ⟨type, List.mem_append_left others found, rests⟩
      · exact ⟨type, List.mem_append_right written found, rests⟩
    · rintro ⟨type, found, rests⟩
      rcases List.mem_append.mp found with here | there
      · exact .inl ⟨type, here, rests⟩
      · exact .inr ⟨type, there, rests⟩

theorem same (writes : Writes written s t) (same : ∀ type, type ∈ others ↔ type ∈ written) :
    Writes others s t := by
  obtain ⟨plain, types, after, each⟩ := writes
  refine ⟨fun type member => plain type ((same type).mp member), types, after, ?_⟩
  intro part
  simp only [each, same]

theorem before (kept : m.catalog = s.catalog) (rest : Writes written m t) : Writes written s t := by
  obtain ⟨plain, types, after, each⟩ := rest
  exact ⟨plain, types, by rw [after, kept], each⟩

theorem after (first : Writes written s m) (kept : t.catalog = m.catalog) : Writes written s t := by
  obtain ⟨plain, types, after, each⟩ := first
  exact ⟨plain, types, kept.trans after, each⟩

theorem bracket (parts : Writes written s m) (bracketed : type.isBracketed = true)
    (inside : ∀ other ∈ written, ∀ part ∈ other.parts, part ∈ type.parts)
    (built : (∀ other ∈ written, other.Over Plain) → type.Over Plain) :
    Writes [type] s (m.entered fun catalog => catalog.addType type) := by
  obtain ⟨plain, types, after, each⟩ := parts
  refine ⟨by simpa using built plain, types ++ [type], ?_, ?_⟩
  · rw [State.entered_catalog, after, Catalog.addTypes_append]
    rfl
  · intro part
    simp only [List.flatMap_append, List.mem_append, each, List.flatMap_cons, List.flatMap_nil, List.append_nil,
      List.mem_singleton, exists_eq_left, bracketed, true_and]
    constructor
    · rintro (⟨other, found, -, member⟩ | last)
      · exact inside other found part member
      · exact last
    · exact .inr

theorem node {expr : Expr} (writes : Writes (Expr.targetsIn expr.parts) s m) (silent : expr.targets = [])
    (kept : t.catalog = m.catalog) : Writes (Expr.targetsIn [expr]) s t := by
  rw [Expr.targetsIn_single, silent, List.nil_append]
  exact writes.after kept

theorem stated {expr : Expr} (writes : Writes written s m)
    (states : ∀ type, type ∈ expr.targets ++ Expr.targetsIn expr.parts ↔ type ∈ written)
    (kept : t.catalog = m.catalog) : Writes (Expr.targetsIn [expr]) s t := by
  rw [Expr.targetsIn_single]
  exact (writes.same states).after kept

theorem parts {expr : Expr} (writes : Writes (Expr.targetsIn [expr]) s t) (silent : expr.targets = []) :
    Writes (Expr.targetsIn expr.parts) s t := by
  rwa [Expr.targetsIn_single, silent, List.nil_append] at writes

theorem roots {exprs rest : List Expr} (first : Writes (Expr.targetsIn exprs) s m)
    (second : Writes (Expr.targetsIn rest) m t) : Writes (Expr.targetsIn (exprs ++ rest)) s t := by
  rw [Expr.targetsIn_append]
  exact first.append second

end Writes

section
variable (worded : tokens.Worded)
include worded

theorem ReadsType.writes (reads : ReadsType tokens type s t) : Writes [type] s t := by
  induction reads with
  | @named s word =>
    refine ⟨?_, [], State.step_catalog tokens s, by simp [Ty.isBracketed]⟩
    intro type member
    cases List.mem_singleton.mp member
    exact Ty.over_named.mpr (worded s.pos word)
  | @array s m element _ _ _ ih =>
    refine (ih.after (by simp)).bracket rfl ?_ ?_
    · intro other member part found
      cases List.mem_singleton.mp member
      exact List.mem_append_left _ found
    · exact fun plain => Ty.over_array.mpr (plain element (by simp))
  | @map s m n key value _ _ _ _ before inside =>
    have both := before.append (inside.before (State.step_catalog tokens m))
    refine (both.after (by simp)).bracket rfl ?_ ?_
    · intro other member part found
      simp only [List.cons_append, List.nil_append, List.mem_cons, List.not_mem_nil, or_false] at member
      rcases member with rfl | rfl
      · exact List.mem_append_left _ (List.mem_append_right _ found)
      · exact List.mem_append_left _ (List.mem_append_left _ found)
    · exact fun plain => Ty.over_map.mpr ⟨plain key (by simp), plain value (by simp)⟩

theorem Reads.writes {phrase : Phrase} (reads : Reads tokens phrase s t) :
    Writes (Expr.targetsIn phrase.exprs) s t := by
  induction reads with
  | literal _ | name _ =>
    refine .node ?_ rfl rfl
    exact .none (State.step_catalog tokens _)
  | leading _ _ _ inside | group _ _ _ inside =>
    exact .node (inside.before (State.step_catalog tokens _)) rfl (by simp)
  | construct _ type _ _ _ inside =>
    have target := (type.writes worded).before (State.step_catalog tokens _)
    have both := target.append (inside.before (State.step_catalog tokens _))
    exact both.stated (fun _ => .rfl) (by simp)
  | binary _ _ _ _ _ before inside =>
    have both := before.roots (inside.before (State.step_catalog tokens _))
    exact .node both rfl rfl
  | trailing _ _ _ before | member _ _ _ _ before => exact .node before rfl (by simp)
  | setName _ _ _ _ _ before inside | setMember _ _ _ _ _ before inside
  | setIndex _ _ _ _ _ before inside =>
    have both := (before.parts rfl).roots (inside.before (State.step_catalog tokens _))
    exact .node both rfl rfl
  | call _ _ _ _ _ before inside | element _ _ _ _ _ before inside =>
    have both := before.roots (inside.before (State.step_catalog tokens _))
    exact .node both rfl (by simp)
  | cast _ _ _ type _ before =>
    have both := before.append ((type.writes worded).before (State.step_catalog tokens _))
    refine both.stated (fun type => ?_) rfl
    simp only [List.mem_append]
    exact or_comm
  | none _ => exact .none rfl
  | argument _ _ separated _ first rest => exact first.roots (rest.before separated.untouched.2)

theorem Traces.writes {types : List Ty} {roots : List Expr} (trace : Traces tokens types roots s t) :
    Writes (types ++ Expr.targetsIn roots) s t := by
  induction trace with
  | done => exact .none rfl
  | skip kept _ ih => exact ih.before kept.2
  | type declared _ ih => exact (declared.writes worded).append ih
  | @root _ _ _ _ expr types roots inner _ ih =>
    refine ((inner.writes worded).append ih).same fun type => ?_
    rw [show expr :: roots = [expr] ++ roots from rfl, Expr.targetsIn_append]
    simp only [Phrase.exprs, List.mem_append]
    exact or_left_comm

theorem TracesItems.writes {items : List Item} (trace : TracesItems tokens items s t)
    (silent : ∀ item ∈ items, item.roots = []) : Writes (items.flatMap Item.types) s t := by
  have writes := Traces.writes worded trace
  rwa [List.flatMap_eq_nil_iff.mpr silent, show Expr.targetsIn [] = [] from rfl, List.append_nil] at writes

theorem ReadsDeclaration.writes {decl : Declaration} (reads : ReadsDeclaration tokens decl s t) :
    ∃ m, Writes (decl.items.flatMap Item.written) s m ∧ t = m.entered (shape decl) := by
  obtain ⟨ahead, m, again, trace, rfl⟩ := reads.traces
  refine ⟨m, (trace.writes worded).same fun type => ?_, rfl⟩
  rw [Item.mem_written]
  simp only [List.mem_append]
  constructor
  · rintro (outer | inner)
    · exact .inl (.inr outer)
    · exact .inr inner
  · rintro ((first | outer) | inner)
    · exact .inl (again type first)
    · exact .inl outer
    · exact .inr inner

end

end Grammar

end TypedScript
