import TypedScript.Proofs.Typing.Validity
import TypedScript.Proofs.Typing.Walks

namespace TypedScript.Typing

variable {env : Vectors} {s t m : State}

theorem Grows.owner? (grows : Grows s t) (name : String) : t.catalog.owner? name = s.catalog.owner? name := by
  obtain ⟨_, same⟩ := grows.catalog
  rw [same]
  rfl

theorem Checks.typed {expr : Expr} {type : Ty} (checks : Checks env (.expr expr type) s t)
    (fresh : Fresh s (Expr.allOf [expr])) : Typed t.types expr type := by
  have last : Later t t.catalog t.types := ⟨⟨t.catalog.types, rfl⟩, fun _ _ found => found⟩
  exact (checks.valid fresh last).2

-- An expression is checked on the way from one state to another, in the scopes of the first. None of the
-- expressions in it has been recorded before.
def Reaches (env : Vectors) (s t : State) (expr : Expr) : Prop :=
  ∃ type m n, Checks env (.expr expr type) m n ∧ m.scopes = s.scopes ∧ Fresh m (Expr.allOf [expr]) ∧
    Grows s m ∧ Grows n t

section Reaches

variable {expr : Expr} {exprs others : List Expr}

theorem Reaches.after (reaches : Reaches env s m expr) (grows : Grows m t) : Reaches env s t expr := by
  obtain ⟨type, first, last, checks, scopes, fresh, before, behind⟩ := reaches
  exact ⟨type, first, last, checks, scopes, fresh, before, behind.trans grows⟩

theorem Reaches.before {query : Query} (reaches : Reaches env m t expr) (earlier : Checks env query s m) :
    Reaches env s t expr := by
  obtain ⟨type, first, last, checks, scopes, fresh, before, behind⟩ := reaches
  exact ⟨type, first, last, checks, scopes.trans earlier.scopes, fresh, earlier.grows.trans before, behind⟩

theorem reaches_node {type : Ty} (whole : Checks env (.expr expr type) s t) (fresh : Fresh s (Expr.allOf [expr]))
    (inner : ∀ found ∈ Expr.allOf expr.parts, Reaches env s t found) :
    ∀ found ∈ Expr.allOf [expr], Reaches env s t found := by
  rw [Expr.allOf_single]
  refine List.forall_mem_cons.mpr ⟨?_, inner⟩
  exact ⟨type, s, t, whole, rfl, fresh, .refl s, .refl t⟩

theorem reaches_append {query next : Query} (first : Checks env query s m) (last : Checks env next m t)
    (left : ∀ found ∈ Expr.allOf exprs, Reaches env s m found)
    (right : ∀ found ∈ Expr.allOf others, Reaches env m t found) :
    ∀ found ∈ Expr.allOf (exprs ++ others), Reaches env s t found := by
  rw [Expr.allOf_append]
  refine List.forall_mem_append.mpr ⟨?_, ?_⟩
  · exact fun found member => (left found member).after last.grows
  · exact fun found member => (right found member).before first

theorem reaches_recorded {node : Node} {type : Ty} (inner : ∀ found ∈ exprs, Reaches env s t found) :
    ∀ found ∈ exprs, Reaches env s (t.recorded node type) found :=
  fun found member => (inner found member).after (.recorded t node type)

theorem Checks.reaches {query : Query} (checks : Checks env query s t) (fresh : Fresh s (Expr.allOf query.roots)) :
    ∀ found ∈ Expr.allOf query.roots, Reaches env s t found := by
  induction checks with
  | group body ih => exact reaches_node (.group body) fresh (reaches_recorded (ih fresh.within))
  | literal => exact reaches_node .literal fresh nofun
  | name bound => exact reaches_node (.name bound) fresh nofun
  | member before found ih =>
    exact reaches_node (.member before found) fresh (reaches_recorded (ih fresh.within))
  | setName bound last assigns ih =>
    exact reaches_node (.setName bound last assigns) fresh (reaches_recorded (ih fresh.within))
  | unary body ih => exact reaches_node (.unary body) fresh (reaches_recorded (ih fresh.within))
  | cast body known ih => exact reaches_node (.cast body known) fresh (reaches_recorded (ih fresh.within))
  | construct known last fits ih =>
    exact reaches_node (.construct known last fits) fresh (reaches_recorded (ih fresh.within))
  | @setMember s m t node object name operator value objectType target given first found last assigns one two =>
    have parts : Fresh s (Expr.allOf ([object] ++ [value])) := fresh.within
    obtain ⟨early, late⟩ := parts.pair first.records
    exact reaches_node (.setMember first found last assigns) fresh
      (reaches_recorded (reaches_append first last (one early) (two late)))
  | @setIndex s m n t node object index operator value container key target given first second found last assigns
      one two three =>
    have parts : Fresh s (Expr.allOf ([object] ++ ([index] ++ [value]))) := fresh.within
    obtain ⟨early, rest⟩ := parts.pair first.records
    obtain ⟨between, late⟩ := rest.pair second.records
    -- What comes after the object is taken as one query, since only two follow each other in `reaches_append`.
    have both : Checks env (.all [index, value] [key, given]) m t := .cons second (.cons last .none)
    exact reaches_node (.setIndex first second found last assigns) fresh
      (reaches_recorded (reaches_append first both (one early) (reaches_append second last (two between) (three late))))
  | @binary s m t node operator left right leftType rightType type first last found one two =>
    have parts : Fresh s (Expr.allOf ([left] ++ [right])) := fresh.within
    obtain ⟨early, late⟩ := parts.pair first.records
    exact reaches_node (.binary first last found) fresh
      (reaches_recorded (reaches_append first last (one early) (two late)))
  | @operation s m t node callee arguments calleeType type given op first meant arity last found one two =>
    have parts : Fresh s (Expr.allOf ([callee] ++ arguments)) := fresh.within
    obtain ⟨early, late⟩ := parts.pair first.records
    exact reaches_node (.operation first meant arity last found) fresh
      (reaches_recorded (reaches_append first last (one early) (two late)))
  | @call s m t node callee arguments calleeType signature given first plain found last one two =>
    have parts : Fresh s (Expr.allOf ([callee] ++ arguments)) := fresh.within
    obtain ⟨early, late⟩ := parts.pair first.records
    exact reaches_node (.call first plain found last) fresh
      (reaches_recorded (reaches_append first last (one early) (two late)))
  | @index s m t node callee argument container key type first last found one two =>
    have parts : Fresh s (Expr.allOf ([callee] ++ [argument])) := fresh.within
    obtain ⟨early, late⟩ := parts.pair first.records
    exact reaches_node (.index first last found) fresh
      (reaches_recorded (reaches_append first last (one early) (two late)))
  | none | noArgument => nofun
  | @cons s m t head rest type given first last one two =>
    have both : Fresh s (Expr.allOf ([head] ++ rest)) := fresh
    obtain ⟨early, late⟩ := both.pair first.records
    exact reaches_append first last (one early) (two late)
  | @argument s m t head rest parameter type parameters given first fits last one two =>
    have both : Fresh s (Expr.allOf ([head] ++ rest)) := fresh
    obtain ⟨early, late⟩ := both.pair first.records
    exact reaches_append first last (one early) (two late)

end Reaches

theorem Initializes.reaches {type : Ty} {given : Option Expr} (initializes : Initializes env type given s t)
    (fresh : Fresh s (Expr.allOf given.toList)) : ∀ found ∈ Expr.allOf given.toList, Reaches env s t found := by
  cases initializes with
  | none => nofun
  | some inner _ => exact inner.reaches fresh

def Visits (env : Vectors) (s t : State) (site : Site) : Prop :=
  ∃ m n, m.scopes = site.scopes ∧ site.Fits n.catalog ∧ Grows s m ∧ Grows n t ∧
    ∀ expr ∈ site.item.exprs, Reaches env m n expr

theorem Visits.before {site : Site} (visits : Visits env m t site) (grows : Grows s m) : Visits env s t site := by
  obtain ⟨first, last, around, fits, before, behind, each⟩ := visits
  exact ⟨first, last, around, fits, grows.trans before, behind, each⟩

theorem visits_cons {site : Site} {sites : List Site} {n : State} (around : s.scopes = site.scopes)
    (fits : site.Fits m.catalog) (grows : Grows s m) (each : ∀ expr ∈ site.item.exprs, Reaches env s m expr)
    (move : Grows m n) (rest : Walks env sites n t) (later : ∀ other ∈ sites, Visits env n t other) :
    ∀ other ∈ site :: sites, Visits env s t other := by
  refine List.forall_mem_cons.mpr ⟨?_, ?_⟩
  · exact ⟨s, m, around, fits, .refl s, move.trans rest.passes.grows, each⟩
  · exact fun other member => (later other member).before (grows.trans move)

theorem Walks.visits {sites : List Site} (walks : Walks env sites s t)
    (fresh : Fresh s (sites.flatMap fun site => site.item.exprs)) : ∀ site ∈ sites, Visits env s t site := by
  have moved (s m : State) (catalog : m.catalog = s.catalog) (types : m.types = s.types) : Grows s m :=
    (Grows.refl m).same catalog types
  induction walks with
  | done => nofun
  | @push s _ _ _ ih => exact fun site member => (ih fresh site member).before (moved s s.pushed rfl rfl)
  | @pop s _ _ _ ih => exact fun site member => (ih fresh site member).before (moved s s.popped rfl rfl)
  | @frame s _ _ function _ ih =>
    exact fun site member => (ih fresh site member).before (moved s (s.framed function) rfl rfl)
  | @declare s m n t sites setting decl place known given fits bound rest ih =>
    obtain ⟨catalog, types⟩ := bound_same bound
    have after := fresh.right given.records
    unfold Fresh at after ih
    rw [types] at ih
    exact visits_cons rfl fits given.grows (given.reaches fresh.left) (moved m n catalog types) rest (ih after)
  | @parameter s t sites setting decl place scopes known fits bound rest ih =>
    exact visits_cons rfl fits (.refl s) nofun (moved s (s.rescoped scopes) rfl rfl) rest (ih fresh)
  | @mention s t sites setting type place known rest ih =>
    exact visits_cons rfl nofun (.refl s) nofun (.refl s) rest (ih fresh)
  | @condition s m t sites setting expr test rest ih =>
    exact visits_cons rfl nofun test.grows (test.reaches fresh.left) (.refl m) rest (ih (fresh.right test.records))
  | @value s m t sites setting expr type inner rest ih =>
    exact visits_cons rfl nofun inner.grows (inner.reaches fresh.left) (.refl m) rest (ih (fresh.right inner.records))

end TypedScript.Typing
