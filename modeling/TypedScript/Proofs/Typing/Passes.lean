import TypedScript.Proofs.Tree.Items
import TypedScript.Proofs.Typing.Checks

namespace TypedScript.Typing

inductive Initializes (env : Vectors) (type : Ty) : Option Expr → State → State → Prop where
  | none {s : State} : Initializes env type none s s
  | some {s t : State} {value : Expr} {given : Ty} (inner : Checks env (.expr value given) s t)
      (fits : t.catalog.accepts type given = true) : Initializes env type (some value) s t

-- The checks of items one after the other. Scopes and the function around them come and go in between; the
-- catalog and the types of expressions change with the expressions alone.
inductive Passes (env : Vectors) : List Item → State → State → Prop where
  | done {s : State} : Passes env [] s s
  | push {s t : State} {items : List Item} (rest : Passes env items s.pushed t) : Passes env items s t
  | pop {s t : State} {items : List Item} (rest : Passes env items s.popped t) : Passes env items s t
  | frame {s t : State} {items : List Item} (function : Option Frame)
      (rest : Passes env items (s.framed function) t) : Passes env items s t
  | declare {s m n t : State} {items : List Item} {decl : Variable} {place : Position}
      (known : s.catalog.requireKnown place decl.type = .ok ())
      (given : Initializes env decl.type decl.initializer s m)
      (bound : n = m ∨ ∃ place scopes, m.scopes.declare decl.name decl.type place = .ok scopes ∧
        n = m.rescoped scopes)
      (rest : Passes env items n t) : Passes env (.declare decl :: items) s t
  | parameter {s t : State} {items : List Item} {decl : Parameter} {place : Position} {scopes : Scopes}
      (known : s.catalog.requireKnown place decl.type = .ok ())
      (bound : s.scopes.declare decl.name decl.type place = .ok scopes)
      (rest : Passes env items (s.rescoped scopes) t) : Passes env (.parameter decl :: items) s t
  | mention {s t : State} {items : List Item} {type : Ty} {place : Position}
      (known : s.catalog.requireKnown place type = .ok ()) (rest : Passes env items s t) :
      Passes env (.mention type :: items) s t
  | condition {s m t : State} {items : List Item} {expr : Expr} (test : Checks env (.expr expr .bool) s m)
      (rest : Passes env items m t) : Passes env (.condition expr :: items) s t
  | value {s m t : State} {items : List Item} {expr : Expr} {type : Ty}
      (inner : Checks env (.expr expr type) s m) (rest : Passes env items m t) :
      Passes env (.value expr :: items) s t

end TypedScript.Typing
