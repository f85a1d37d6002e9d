import TypedScript.Grammar.Expression
import TypedScript.Proofs.Grammar.Run

namespace TypedScript.Grammar

variable {tokens : Stream} {s t m n : State}

-- What a rule has read when it succeeds, as a relation between the state before and the state after. The
-- relations leave out the bounds of the rules and where a rule looks ahead; every later statement about
-- parsed trees is an induction over them.
inductive ReadsType (tokens : Stream) : Ty → State → State → Prop where
  | named {s : State} (word : ((tokens.next s).isTypeWord || tokens.next s = .identifier) = true) :
      ReadsType tokens (.named (tokens.token s.pos).value) s (s.step tokens)
  | array {s m : State} {element : Ty} (left : ReadsType tokens element s m)
      (opener : tokens.next m = .openBracket) (closer : tokens.next (m.step tokens) = .closeBracket) :
      ReadsType tokens (.array element) s
        (((m.step tokens).step tokens).entered fun catalog => catalog.addType (.array element))
  | map {s m n : State} {key value : Ty} (left : ReadsType tokens value s m)
      (opener : tokens.next m = .openBracket) (inner : ReadsType tokens key (m.step tokens) n)
      (closer : tokens.next n = .closeBracket) :
      ReadsType tokens (.map key value) s
        ((n.step tokens).entered fun catalog => catalog.addType (.map key value))

theorem typeHead_reads {type : Ty} (ran : typeHead tokens s = .ok type t) : ReadsType tokens type s t := by
  simp only [typeHead, kind_bind] at ran
  split at ran
  · rename_i word
    simp only [advance_bind, pure_ok] at ran
    obtain ⟨rfl, rfl⟩ := ran
    exact .named word
  · exact (unexpected_ok.mp ran).elim

theorem typeSuffix_reads {inner : Rule Ty} {left type : Ty}
    (reads : ∀ s type t, inner tokens s = .ok type t → ReadsType tokens type s t)
    (before : ReadsType tokens left s m) (ran : typeSuffix inner left tokens m = .ok type t) :
    ReadsType tokens type s t := by
  simp only [typeSuffix, bracketed, kind_bind, enter_bind, bind_ok, expect_ok, pure_ok] at ran
  obtain ⟨_, _, ⟨opener, -, rfl⟩, _, n, inside, _, _, ⟨closer, -, rfl⟩, rfl, rfl⟩ := ran
  split at inside
  · rw [pure_ok] at inside
    obtain ⟨rfl, rfl⟩ := inside
    exact .array before opener closer
  · rw [bind_ok] at inside
    obtain ⟨key, _, ran, inside⟩ := inside
    rw [pure_ok] at inside
    obtain ⟨rfl, rfl⟩ := inside
    exact .map before opener (reads _ _ _ ran) closer

theorem typeSuffixes_reads {inner : Rule Ty} {level : Level}
    (reads : ∀ s type t, inner tokens s = .ok type t → ReadsType tokens type s t) (bound : Nat)
    {left type : Ty} (before : ReadsType tokens left s m)
    (ran : typeSuffixes inner level bound left tokens m = .ok type t) : ReadsType tokens type s t := by
  induction bound generalizing left m with
  | zero => exact (giveUp_ok.mp ran).elim
  | succ bound ih =>
    simp only [typeSuffixes, kind_bind] at ran
    split at ran
    · rw [pure_ok] at ran
      obtain ⟨rfl, rfl⟩ := ran
      exact before
    · rw [bind_ok] at ran
      obtain ⟨wider, n, suffix, ran⟩ := ran
      exact ih (typeSuffix_reads reads before suffix) ran

theorem typeWithin_reads (bound : Nat) {level : Level} {type : Ty}
    (ran : typeWithin bound level tokens s = .ok type t) : ReadsType tokens type s t := by
  induction bound generalizing level s type t with
  | zero => exact (giveUp_ok.mp ran).elim
  | succ bound ih =>
    simp only [typeWithin, bind_ok] at ran
    obtain ⟨left, m, start, ran⟩ := ran
    exact typeSuffixes_reads (fun _ _ _ inner => ih inner) _ (typeHead_reads start) ran

theorem typeName_reads {level : Level} {type : Ty} (ran : typeName level tokens s = .ok type t) :
    ReadsType tokens type s t := typeWithin_reads _ ran

theorem typeSuffixes_stops {inner : Rule Ty} {level : Level} (bound : Nat) {left type : Ty}
    (ran : typeSuffixes inner level bound left tokens s = .ok type t) :
    (Level.ofKindInType (tokens.next t)).rank ≤ level.rank := by
  induction bound generalizing left s with
  | zero => exact (giveUp_ok.mp ran).elim
  | succ bound ih =>
    simp only [typeSuffixes, kind_bind] at ran
    split at ran
    · rename_i stops
      obtain ⟨rfl, rfl⟩ := pure_ok.mp ran
      exact stops
    · obtain ⟨wider, n, -, ran⟩ := bind_ok.mp ran
      exact ih ran

theorem typeName_stops {type : Ty} (ran : typeName .lowest tokens s = .ok type t) :
    tokens.next t ≠ .openBracket := by
  obtain ⟨left, m, -, ran⟩ := bind_ok.mp ran
  have stops := typeSuffixes_stops _ ran
  intro opener
  rw [opener] at stops
  cases stops

def Separated (tokens : Stream) (closer : Kind) (s t : State) : Prop :=
  (tokens.next s = .comma ∧ t = s.step tokens) ∨ (tokens.next s = closer ∧ t = s)

inductive ReadsItems {α : Type} (tokens : Stream) (closer : Kind)
    (Item : Option α → α → State → State → Prop) : Option α → List α → State → State → Prop where
  | none {s : State} {previous : Option α} (closed : tokens.next s = closer) :
      ReadsItems tokens closer Item previous [] s s
  | item {s m t : State} {previous : Option α} {first : α} {others : List α}
      (head : Item previous first s m) (rest : ReadsItems tokens closer Item (some first) others m t) :
      ReadsItems tokens closer Item previous (first :: others) s t

theorem itemsFrom_reads {α : Type} {closer : Kind} {item : Option α → Rule α}
    {Item : Option α → α → State → State → Prop}
    (reads : ∀ previous s found t, item previous tokens s = .ok found t → Item previous found s t)
    (bound : Nat) {previous : Option α} {found : List α}
    (ran : itemsFrom closer item bound previous tokens s = .ok found t) :
    ReadsItems tokens closer Item previous found s t := by
  induction bound generalizing previous s found with
  | zero => exact (giveUp_ok.mp ran).elim
  | succ bound ih =>
    simp only [itemsFrom, kind_bind] at ran
    split at ran
    · rename_i closed
      obtain ⟨rfl, rfl⟩ := pure_ok.mp ran
      exact .none closed
    · simp only [bind_ok, pure_ok] at ran
      obtain ⟨first, m, head, others, _, rest, rfl, rfl⟩ := ran
      exact .item (reads _ _ _ _ head) (ih rest)

theorem items_reads {α : Type} {closer : Kind} {item : Option α → Rule α}
    {Item : Option α → α → State → State → Prop}
    (reads : ∀ previous s found t, item previous tokens s = .ok found t → Item previous found s t)
    {found : List α} (ran : items closer item tokens s = .ok found t) :
    ∃ m, ReadsItems tokens closer Item none found s m ∧ tokens.next m = closer ∧ t = m.step tokens := by
  simp only [items, bind_ok, expect_ok, pure_ok] at ran
  obtain ⟨_, m, ran, _, _, ⟨closed, -, rfl⟩, rfl, rfl⟩ := ran
  exact ⟨m, itemsFrom_reads reads _ ran, closed, rfl⟩

theorem separator_ok {closer : Kind} {expected : List String} :
    separator closer expected tokens s = .ok () t ↔
      (tokens.next s = .comma ∧ t = s.step tokens) ∨
        (tokens.next s ≠ .comma ∧ tokens.next s = closer ∧ t = s) := by
  simp only [separator, kind_bind]
  by_cases comma : tokens.next s = .comma
  · simp [comma, skip_run, eq_comm]
  · by_cases closed : tokens.next s = closer
    · rw [if_neg comma, if_pos closed, pure_ok]
      subst closed
      simp [comma, eq_comm]
    · simp [comma, closed, unexpected_ok]

theorem separator_separates {closer : Kind} {expected : List String}
    (ran : separator closer expected tokens s = .ok () t) : Separated tokens closer s t := by
  rcases separator_ok.mp ran with comma | ⟨-, closed⟩
  · exact .inl comma
  · exact .inr closed

def Listed {α : Type} (tokens : Stream) (closer : Kind) (Item : α → State → State → Prop)
    (_ : Option α) (found : α) (s t : State) : Prop :=
  ∃ m, Item found s m ∧ Separated tokens closer m t

theorem listed_reads {α : Type} {closer : Kind} {expected : List String} {item : Rule α}
    {Item : α → State → State → Prop}
    (reads : ∀ s found t, item tokens s = .ok found t → Item found s t)
    {found : List α} (ran : listed closer expected item tokens s = .ok found t) :
    ∃ m, ReadsItems tokens closer (Listed tokens closer Item) none found s m ∧ tokens.next m = closer ∧
      t = m.step tokens := by
  refine items_reads ?_ ran
  intro _ s found t ran
  simp only [bind_ok, pure_ok] at ran
  obtain ⟨_, m, ran, _, n, separated, rfl, rfl⟩ := ran
  exact ⟨m, reads _ _ _ ran, separator_separates separated⟩

def Stops (tokens : Stream) (level : Level) (s : State) : Prop :=
  (Level.ofKind (tokens.next s)).rank ≤ level.rank

def literalOf? (found : Token) : Option Literal :=
  match found.kind with
  | .number => (Number.Binary64.ofText? found.value).map .number
  | .text => some (.string found.value)
  | .character => found.value.toList.head?.map .char
  | .trueWord => some (.bool true)
  | .falseWord => some (.bool false)
  | .nullWord => some .null
  | _ => none

def operandLevel (operator : Kind) : Level :=
  if operator = .caret then .multiplicative else Level.ofKind operator

-- The recursive parts of an expression: an expression in which every operator is above a level, which may
-- still go on, and arguments up to a closing token.
inductive Phrase where
  | expr (level : Level) (expr : Expr)
  | arguments (closer : Kind) (exprs : List Expr)

def nodeOf (s : State) (span : Span) : Node := ⟨s.nextId, span⟩

inductive Reads (tokens : Stream) : Phrase → State → State → Prop where
  | literal {s : State} {level : Level} {value : Literal}
      (found : literalOf? (tokens.token s.pos) = some value) :
      Reads tokens (.expr level (.literal (nodeOf (s.step tokens) (tokens.token s.pos).span) value)) s
        (s.step tokens).numbered
  | name {s : State} {level : Level} (found : tokens.next s = .identifier) :
      Reads tokens (.expr level (.name (nodeOf (s.step tokens) (tokens.token s.pos).span)
        (tokens.token s.pos).value)) s (s.step tokens).numbered
  | leading {s m : State} {level : Level} {operator : UnaryOp} {operand : Expr}
      (found : UnaryOp.ofKind? (tokens.next s) = some operator)
      (inner : Reads tokens (.expr .unary operand) (s.step tokens) m) (stops : Stops tokens .unary m) :
      Reads tokens (.expr level (.unary (nodeOf m ((tokens.token s.pos).span.join operand.span))
        operator operand false)) s m.numbered
  | group {s m : State} {level : Level} {body : Expr} (opener : tokens.next s = .openParen)
      (inner : Reads tokens (.expr .lowest body) (s.step tokens) m) (closer : tokens.next m = .closeParen) :
      Reads tokens (.expr level (.group (nodeOf (m.step tokens)
        (tokens.spanTo (tokens.token s.pos).span.start (m.step tokens))) body)) s (m.step tokens).numbered
  | construct {s m n : State} {level : Level} {target : Ty} {exprs : List Expr}
      (opener : tokens.next s = .newWord) (type : ReadsType tokens target (s.step tokens) m)
      (opened : tokens.next m = .openParen)
      (inner : Reads tokens (.arguments .closeParen exprs) (m.step tokens) n)
      (closer : tokens.next n = .closeParen) :
      Reads tokens (.expr level (.construct (nodeOf (n.step tokens)
        (tokens.spanTo (tokens.token s.pos).span.start (n.step tokens))) target exprs)) s
        (n.step tokens).numbered
  | binary {s m n : State} {level : Level} {operator : BinaryOp} {left right : Expr}
      (before : Reads tokens (.expr level left) s m)
      (above : level.rank < (Level.ofKind (tokens.next m)).rank)
      (found : BinaryOp.ofKind? (tokens.next m) = some operator)
      (inner : Reads tokens (.expr (operandLevel (tokens.next m)) right) (m.step tokens) n)
      (stops : Stops tokens (operandLevel (tokens.next m)) n) :
      Reads tokens (.expr level (.binary (nodeOf n (left.span.join right.span)) operator left right)) s
        n.numbered
  | trailing {s m : State} {level : Level} {operator : UnaryOp} {left : Expr}
      (before : Reads tokens (.expr level left) s m)
      (above : level.rank < (Level.ofKind (tokens.next m)).rank)
      (found : (tokens.next m = .plusPlus ∧ operator = .increment) ∨
        (tokens.next m = .minusMinus ∧ operator = .decrement)) :
      Reads tokens (.expr level (.unary (nodeOf (m.step tokens) (left.span.join (tokens.token m.pos).span))
        operator left true)) s (m.step tokens).numbered
  | setName {s m n : State} {level : Level} {operator : AssignOp} {node : Node} {name : String} {value : Expr}
      (before : Reads tokens (.expr level (.name node name)) s m)
      (above : level.rank < (Level.ofKind (tokens.next m)).rank)
      (found : AssignOp.ofKind? (tokens.next m) = some operator)
      (inner : Reads tokens (.expr .lowest value) (m.step tokens) n) (stops : Stops tokens .lowest n) :
      Reads tokens (.expr level (.setName (nodeOf n (node.span.join value.span)) name operator value)) s
        n.numbered
  | setMember {s m n : State} {level : Level} {operator : AssignOp} {node : Node} {name : String}
      {object value : Expr} (before : Reads tokens (.expr level (.member node object name)) s m)
      (above : level.rank < (Level.ofKind (tokens.next m)).rank)
      (found : AssignOp.ofKind? (tokens.next m) = some operator)
      (inner : Reads tokens (.expr .lowest value) (m.step tokens) n) (stops : Stops tokens .lowest n) :
      Reads tokens (.expr level (.setMember (nodeOf n (node.span.join value.span)) object name operator value))
        s n.numbered
  | setIndex {s m n : State} {level : Level} {operator : AssignOp} {node : Node}
      {object index value : Expr} (before : Reads tokens (.expr level (.index node object [index])) s m)
      (above : level.rank < (Level.ofKind (tokens.next m)).rank)
      (found : AssignOp.ofKind? (tokens.next m) = some operator)
      (inner : Reads tokens (.expr .lowest value) (m.step tokens) n) (stops : Stops tokens .lowest n) :
      Reads tokens (.expr level (.setIndex (nodeOf n (node.span.join value.span)) object index operator value))
        s n.numbered
  | call {s m n : State} {level : Level} {left : Expr} {exprs : List Expr}
      (before : Reads tokens (.expr level left) s m)
      (above : level.rank < (Level.ofKind (tokens.next m)).rank) (opener : tokens.next m = .openParen)
      (inner : Reads tokens (.arguments .closeParen exprs) (m.step tokens) n)
      (closer : tokens.next n = .closeParen) :
      Reads tokens (.expr level (.call (nodeOf (n.step tokens) (tokens.spanTo left.start (n.step tokens)))
        left exprs)) s (n.step tokens).numbered
  | element {s m n : State} {level : Level} {left : Expr} {exprs : List Expr}
      (before : Reads tokens (.expr level left) s m)
      (above : level.rank < (Level.ofKind (tokens.next m)).rank) (opener : tokens.next m = .openBracket)
      (inner : Reads tokens (.arguments .closeBracket exprs) (m.step tokens) n)
      (closer : tokens.next n = .closeBracket) :
      Reads tokens (.expr level (.index (nodeOf (n.step tokens) (tokens.spanTo left.start (n.step tokens)))
        left exprs)) s (n.step tokens).numbered
  | member {s m : State} {level : Level} {left : Expr} (before : Reads tokens (.expr level left) s m)
      (above : level.rank < (Level.ofKind (tokens.next m)).rank) (dot : tokens.next m = .dot)
      (found : tokens.next (m.step tokens) = .identifier) :
      Reads tokens (.expr level (.member
        (nodeOf ((m.step tokens).step tokens) (tokens.spanTo left.start ((m.step tokens).step tokens))) left
        (tokens.token (m.step tokens).pos).value)) s ((m.step tokens).step tokens).numbered
  | cast {s m n : State} {level : Level} {left : Expr} {target : Ty}
      (before : Reads tokens (.expr level left) s m)
      (above : level.rank < (Level.ofKind (tokens.next m)).rank) (word : tokens.next m = .asWord)
      (type : ReadsType tokens target (m.step tokens) n) (ended : tokens.next n ≠ .openBracket) :
      Reads tokens (.expr level (.cast (nodeOf n (tokens.spanTo left.start n)) left target)) s n.numbered
  | none {s : State} {closer : Kind} (closed : tokens.next s = closer) :
      Reads tokens (.arguments closer []) s s
  | argument {s m n t : State} {closer : Kind} {first : Expr} {others : List Expr}
      (head : Reads tokens (.expr .lowest first) s m) (stops : Stops tokens .lowest m)
      (separated : Separated tokens closer m n) (rest : Reads tokens (.arguments closer others) n t) :
      Reads tokens (.arguments closer (first :: others)) s t

theorem node_bind {β : Type} (span : Span) (rest : Node → Rule β) :
    (node span >>= rest) tokens s = rest (nodeOf s span) tokens s.numbered := rfl

theorem nodeFrom_bind {β : Type} (start : Position) (rest : Node → Rule β) :
    (nodeFrom start >>= rest) tokens s = rest (nodeOf s (tokens.spanTo start s)) tokens s.numbered := by
  have ran : nodeFrom start tokens s = .ok (nodeOf s (tokens.spanTo start s)) s.numbered := by
    unfold nodeFrom
    rw [spanSince_bind]
    rfl
  exact bind_of_ok ran

theorem literal_ok {value : Literal} {span : Span} {expr : Expr} :
    literal value span tokens s = .ok expr t ↔ .literal (nodeOf s span) value = expr ∧ s.numbered = t := by
  unfold literal
  rw [node_bind, pure_ok]

theorem primary_reads {level : Level} {expr : Expr} (ran : primary tokens s = .ok expr t) :
    Reads tokens (.expr level expr) s t := by
  have whole : ∀ value, literalOf? (tokens.token s.pos) = some value →
      literal value (tokens.token s.pos).span tokens (s.step tokens) = .ok expr t →
        Reads tokens (.expr level expr) s t := by
    intro value found made
    obtain ⟨rfl, rfl⟩ := literal_ok.mp made
    exact .literal found
  simp only [primary, advance_bind] at ran
  generalize same : (tokens.token s.pos).kind = found at ran
  cases found with
  | number =>
    cases read : Number.Binary64.ofText? (tokens.token s.pos).value with
    | some value =>
      simp only [read] at ran
      exact whole _ (by simp [literalOf?, same, read]) ran
    | none =>
      simp only [read] at ran
      exact (raise_ok.mp ran).elim
  | text => exact whole _ (by simp [literalOf?, same]) ran
  | character =>
    cases read : (tokens.token s.pos).value.toList with
    | cons value rest =>
      simp only [read] at ran
      exact whole _ (by simp [literalOf?, same, read]) ran
    | nil =>
      simp only [read] at ran
      exact (raise_ok.mp ran).elim
  | trueWord => exact whole _ (by simp [literalOf?, same]) ran
  | falseWord => exact whole _ (by simp [literalOf?, same]) ran
  | nullWord => exact whole _ (by simp [literalOf?, same]) ran
  | identifier =>
    simp only [node_bind, pure_ok] at ran
    obtain ⟨rfl, rfl⟩ := ran
    exact .name same
  | _ => exact (raise_ok.mp ran).elim

def InnerReads (tokens : Stream) (inner : Inner) : Prop :=
  ∀ level s expr t, inner level tokens s = .ok expr t →
    Reads tokens (.expr level expr) s t ∧ Stops tokens level t

theorem arguments_of_items {closer : Kind} {previous : Option Expr} {exprs : List Expr}
    (found : ReadsItems tokens closer
      (Listed tokens closer fun expr s t => Reads tokens (.expr .lowest expr) s t ∧ Stops tokens .lowest t)
      previous exprs s t) : Reads tokens (.arguments closer exprs) s t := by
  induction found with
  | none closed => exact .none closed
  | item head rest ih =>
    obtain ⟨m, ⟨inside, stops⟩, separated⟩ := head
    exact .argument inside stops separated ih

section
variable {inner : Inner} (reads : InnerReads tokens inner)
include reads

theorem leading_reads {level : Level} {expr : Expr} (ran : leading inner tokens s = .ok expr t) :
    Reads tokens (.expr level expr) s t := by
  simp only [leading, advance_bind] at ran
  cases found : UnaryOp.ofKind? (tokens.token s.pos).kind with
  | none =>
    simp only [found] at ran
    exact (unexpected_ok.mp ran).elim
  | some operator =>
    simp only [found, bind_ok, node_bind, pure_ok] at ran
    obtain ⟨operand, m, ran, rfl, rfl⟩ := ran
    obtain ⟨inside, stops⟩ := reads _ _ _ _ ran
    exact .leading found inside stops

theorem group_reads {level : Level} {expr : Expr} (opener : tokens.next s = .openParen)
    (ran : group inner tokens s = .ok expr t) : Reads tokens (.expr level expr) s t := by
  simp only [group, advance_bind, bind_ok, expect_ok, nodeFrom_bind, pure_ok] at ran
  obtain ⟨body, m, ran, _, _, ⟨closer, -, rfl⟩, rfl, rfl⟩ := ran
  exact .group opener (reads _ _ _ _ ran).1 closer

theorem arguments_reads {closer : Kind} {expected : List String} {exprs : List Expr}
    (ran : listed closer expected (inner .lowest) tokens s = .ok exprs t) :
    ∃ m, Reads tokens (.arguments closer exprs) s m ∧ tokens.next m = closer ∧ t = m.step tokens := by
  obtain ⟨m, found, closed, rfl⟩ := listed_reads (fun _ _ _ ran => reads _ _ _ _ ran) ran
  exact ⟨m, arguments_of_items found, closed, rfl⟩

theorem construct_reads {level : Level} {expr : Expr} (opener : tokens.next s = .newWord)
    (ran : construct inner tokens s = .ok expr t) : Reads tokens (.expr level expr) s t := by
  simp only [construct, advance_bind, bind_ok, expect_ok, nodeFrom_bind, pure_ok] at ran
  obtain ⟨target, m, type, _, _, ⟨opened, -, rfl⟩, exprs, _, ran, rfl, rfl⟩ := ran
  obtain ⟨n, inside, closer, rfl⟩ := arguments_reads reads ran
  exact .construct opener (typeName_reads type) opened inside closer

theorem head_reads {level : Level} {expr : Expr} (ran : head inner tokens s = .ok expr t) :
    Reads tokens (.expr level expr) s t := by
  simp only [head, kind_bind] at ran
  generalize same : tokens.next s = found at ran
  cases found with
  | number | text | character | trueWord | falseWord | nullWord | identifier => exact primary_reads ran
  | not | dash | plusPlus | minusMinus => exact leading_reads reads ran
  | openParen => exact group_reads reads same ran
  | newWord => exact construct_reads reads same ran
  | _ => exact (unexpected_ok.mp ran).elim

section
variable {level : Level} {left : Expr} (before : Reads tokens (.expr level left) s m)
  (above : level.rank < (Level.ofKind (tokens.next m)).rank)
include before above

theorem binary_reads {second : Level} {expr : Expr} (same : operandLevel (tokens.next m) = second)
    (ran : binary inner second left tokens m = .ok expr t) : Reads tokens (.expr level expr) s t := by
  subst same
  simp only [binary, advance_bind] at ran
  cases found : BinaryOp.ofKind? (tokens.token m.pos).kind with
  | none =>
    simp only [found] at ran
    exact (raise_ok.mp ran).elim
  | some operator =>
    simp only [found, bind_ok, node_bind, pure_ok] at ran
    obtain ⟨right, n, ran, rfl, rfl⟩ := ran
    obtain ⟨inside, stops⟩ := reads _ _ _ _ ran
    exact .binary before above found inside stops

theorem assignment_reads {expr : Expr} (ran : assignment inner left tokens m = .ok expr t) :
    Reads tokens (.expr level expr) s t := by
  simp only [assignment, advance_bind] at ran
  cases found : AssignOp.ofKind? (tokens.token m.pos).kind with
  | none =>
    simp only [found] at ran
    exact (unexpected_ok.mp ran).elim
  | some operator =>
    simp only [found, bind_ok] at ran
    obtain ⟨value, n, ran, made⟩ := ran
    obtain ⟨inside, stops⟩ := reads _ _ _ _ ran
    unfold assignTo at made
    split at made
    · simp only [node_bind, pure_ok] at made
      obtain ⟨rfl, rfl⟩ := made
      exact .setName before above found inside stops
    · simp only [node_bind, pure_ok] at made
      obtain ⟨rfl, rfl⟩ := made
      exact .setMember before above found inside stops
    · simp only [node_bind, pure_ok] at made
      obtain ⟨rfl, rfl⟩ := made
      exact .setIndex before above found inside stops
    · exact (raise_ok.mp made).elim

theorem call_reads {expr : Expr} (opener : tokens.next m = .openParen)
    (ran : call inner left tokens m = .ok expr t) : Reads tokens (.expr level expr) s t := by
  simp only [call, skip_bind, bind_ok, nodeFrom_bind, pure_ok] at ran
  obtain ⟨exprs, _, ran, rfl, rfl⟩ := ran
  obtain ⟨n, inside, closer, rfl⟩ := arguments_reads reads ran
  exact .call before above opener inside closer

theorem element_reads {expr : Expr} (opener : tokens.next m = .openBracket)
    (ran : element inner left tokens m = .ok expr t) : Reads tokens (.expr level expr) s t := by
  simp only [element, skip_bind, bind_ok, nodeFrom_bind, pure_ok] at ran
  obtain ⟨exprs, _, ran, rfl, rfl⟩ := ran
  obtain ⟨n, inside, closer, rfl⟩ := arguments_reads reads ran
  exact .element before above opener inside closer

omit reads

theorem trailing_reads {expr : Expr} (sign : tokens.next m = .plusPlus ∨ tokens.next m = .minusMinus)
    (ran : trailing left tokens m = .ok expr t) : Reads tokens (.expr level expr) s t := by
  simp only [trailing, advance_bind, node_bind, pure_ok] at ran
  obtain ⟨rfl, rfl⟩ := ran
  change tokens.next m = .plusPlus ∨ (tokens.token m.pos).kind = .minusMinus at sign
  refine .trailing before above ?_
  rcases sign with plus | minus
  · exact .inl ⟨plus, if_pos plus⟩
  · exact .inr ⟨minus, by simp [minus]⟩

theorem member_reads {expr : Expr} (dot : tokens.next m = .dot)
    (ran : member left tokens m = .ok expr t) : Reads tokens (.expr level expr) s t := by
  simp only [member, skip_bind, bind_ok, expect_ok, nodeFrom_bind, pure_ok] at ran
  obtain ⟨_, _, ⟨found, rfl, rfl⟩, rfl, rfl⟩ := ran
  exact .member before above dot found

theorem cast_reads {expr : Expr} (word : tokens.next m = .asWord)
    (ran : cast left tokens m = .ok expr t) : Reads tokens (.expr level expr) s t := by
  simp only [cast, skip_bind, bind_ok, nodeFrom_bind, pure_ok] at ran
  obtain ⟨target, n, type, rfl, rfl⟩ := ran
  exact .cast before above word (typeName_reads type) (typeName_stops type)

include reads

theorem extend_reads {expr : Expr} (ran : extend inner (tokens.next m) left tokens m = .ok expr t) :
    Reads tokens (.expr level expr) s t := by
  generalize same : tokens.next m = next at ran
  cases next with
  | assign | plusEquals | minusEquals | starEquals | slashEquals | percentEquals =>
    exact assignment_reads reads before above ran
  | caret => exact binary_reads reads before above (by rw [same]; rfl) ran
  | plusPlus => exact trailing_reads before above (.inl same) ran
  | minusMinus => exact trailing_reads before above (.inr same) ran
  | asWord => exact cast_reads before above same ran
  | openParen => exact call_reads reads before above same ran
  | openBracket => exact element_reads reads before above same ran
  | dot => exact member_reads before above same ran
  | and | or | equals | notEquals | tildeEquals | less | lessEquals | greater | greaterEquals | plus | dash
  | star | slash | percent => exact binary_reads reads before above (by rw [same]; rfl) ran
  | _ => simp [same, Level.ofKind, Level.rank] at above

end

-- The loop keeps what has been read so far to its left.
theorem extensions_reads {level : Level} (bound : Nat) {left expr : Expr}
    (before : Reads tokens (.expr level left) s m)
    (ran : extensions inner level bound left tokens m = .ok expr t) :
    Reads tokens (.expr level expr) s t ∧ Stops tokens level t := by
  induction bound generalizing left m with
  | zero => exact (giveUp_ok.mp ran).elim
  | succ bound ih =>
    simp only [extensions, kind_bind] at ran
    split at ran
    · rename_i stops
      obtain ⟨rfl, rfl⟩ := pure_ok.mp ran
      exact ⟨before, stops⟩
    · rename_i above
      obtain ⟨wider, n, extended, ran⟩ := bind_ok.mp ran
      exact ih (extend_reads reads before (Nat.lt_of_not_le above) extended) ran

end

theorem expressionWithin_reads (bound : Nat) : InnerReads tokens (expressionWithin bound) := by
  induction bound with
  | zero =>
    intro level s expr t ran
    exact (giveUp_ok.mp ran).elim
  | succ bound ih =>
    intro level s expr t ran
    obtain ⟨left, m, start, ran⟩ := bind_ok.mp ran
    exact extensions_reads ih _ (head_reads ih start) ran

theorem expression_reads {level : Level} {expr : Expr} (ran : expression level tokens s = .ok expr t) :
    Reads tokens (.expr level expr) s t ∧ Stops tokens level t := expressionWithin_reads _ _ _ _ _ ran

end TypedScript.Grammar
