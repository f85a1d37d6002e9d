import TypedScript.Grammar.Outline
import TypedScript.Proofs.Catalog.Grounding
import TypedScript.Proofs.Grammar.Run
import TypedScript.Proofs.Tandem
import TypedScript.Proofs.Tree.Mirrors

namespace TypedScript

structure Token.Mirrors (At : Position → Position → Prop) (left right : Token) : Prop where
  kind : left.kind = right.kind
  value : left.value = right.value
  span : left.span.Mirrors At right.span

theorem Token.Mirrors.eq {left right : Token} (mirrors : left.Mirrors Eq right) : left = right := by
  obtain ⟨_, _, _⟩ := right
  obtain ⟨rfl, rfl, spans⟩ := mirrors
  cases spans.eq
  rfl

namespace Grammar

structure Stream.Matches (At : Position → Position → Prop) (left right : Stream) : Prop where
  size : left.size = right.size
  token : ∀ pos, (left.token pos).Mirrors At (right.token pos)
  kindAt : ∀ pos, left.kindAt pos = right.kindAt pos
  endBefore : ∀ pos, At (left.endBefore pos) (right.endBefore pos)
  file : left.file = right.file

theorem Stream.Matches.refl (tokens : Stream) : tokens.Matches Eq tokens :=
  ⟨rfl, fun _ => ⟨rfl, rfl, rfl, rfl⟩, fun _ => rfl, fun _ => rfl, rfl⟩

-- Two runs of the grammar in states at one position. No step of theirs may depend on more than the position.
structure Pairing extends Tandem Stream State where
  reads : left.Matches At right
  pos : ∀ {s t}, states s t → s.pos = t.pos
  moved : ∀ {s t}, states s t → ∀ pos, states (s.moved pos) (t.moved pos)
  entered : ∀ {s t}, states s t → ∀ {change : Catalog → Catalog},
    (∀ catalog, (change catalog).names = catalog.names) → states (s.entered change) (t.entered change)

variable {α β : Type} {pair : Pairing} {s t m : State}

abbrev Twin (pair : Pairing) (same : α → β → Prop) (first : Rule α) (second : Rule β) : Prop :=
  Mirror pair.toTandem same first second

structure TypedName.Mirrors (At : Position → Position → Prop) (left right : Ty × Token) : Prop where
  type : left.1 = right.1
  name : left.2.Mirrors At right.2

theorem TypedName.Mirrors.eq {left right : Ty × Token} (mirrors : TypedName.Mirrors Eq left right) : left = right :=
  Prod.ext mirrors.type mirrors.name.eq

structure FunctionHead.Mirrors (At : Position → Position → Prop) (left right : FunctionHead) : Prop where
  returns : left.returns = right.returns
  name : left.name.Mirrors At right.name
  parameters : List.Forall₂ (Parameter.Mirrors At) left.parameters right.parameters

theorem FunctionHead.Mirrors.eq {left right : FunctionHead} (mirrors : left.Mirrors Eq right) : left = right := by
  obtain ⟨_, _, _⟩ := left
  obtain ⟨_, _, _⟩ := right
  obtain ⟨rfl, names, parameters⟩ := mirrors
  cases names.eq
  cases eq_map_of_forall₂ parameters fun _ _ => Parameter.Mirrors.eq
  rw [List.map_id']

theorem FunctionHead.Mirrors.signature {At : Position → Position → Prop} {left right : FunctionHead}
    (headers : left.Mirrors At right) : left.signature = right.signature := by
  unfold FunctionHead.signature
  rw [headers.returns, map_eq_of_forall₂ headers.parameters fun _ _ parameters => parameters.type]

namespace Pairing

variable (pair : Pairing) (states : pair.states s t)
include states

theorem token : (pair.left.token s.pos).Mirrors pair.At (pair.right.token t.pos) := by
  rw [pair.pos states]
  exact pair.reads.token t.pos

theorem step : pair.states (s.step pair.left) (t.step pair.right) := by
  have after : ∀ (tokens : Stream) (s : State),
      s.step tokens = s.moved (if s.pos < tokens.size then s.pos + 1 else s.pos) := by
    intro tokens s
    unfold State.step State.moved
    split <;> rfl
  rw [after, after, pair.pos states, pair.reads.size]
  exact pair.moved states _

end Pairing

namespace Twin

variable {same : α → β → Prop} {first : Rule α} {second : Rule β}

theorem token : Twin pair (Token.Mirrors pair.At) token token := fun _ _ states => .ok (pair.token states) states

theorem kind : Twin pair Eq kind kind := fun _ _ states => .ok (pair.token states).kind states

theorem peek (offset : Nat) : Twin pair Eq (peek offset) (peek offset) := by
  intro s t states
  refine .ok ?_ states
  rw [pair.pos states]
  exact pair.reads.kindAt _

theorem advance : Twin pair (Token.Mirrors pair.At) advance advance :=
  fun _ _ states => .ok (pair.token states) (pair.step states)

theorem bindToken {γ δ : Type} {alike : γ → δ → Prop} {first second : Rule Token} {next : Token → Rule γ}
    {last : Token → Rule δ} (start : Twin pair (Token.Mirrors pair.At) first second)
    (rest : ∀ kind value span other, Span.Mirrors pair.At span other →
      Twin pair alike (next ⟨kind, value, span⟩) (last ⟨kind, value, other⟩)) :
    Twin pair alike (first >>= next) (second >>= last) := by
  apply start.bind
  intro found token tokens
  obtain ⟨kind, value, span⟩ := found
  obtain ⟨_, _, other⟩ := token
  obtain ⟨rfl, rfl, spans⟩ := tokens
  exact rest kind value span other spans

theorem skip : Twin pair Eq skip skip := advance.bind fun _ _ _ => .pure rfl

theorem index : Twin pair Eq index index := fun _ _ states => .ok (pair.pos states) states

theorem seek (pos : Nat) : Twin pair Eq (seek pos) (seek pos) := fun _ _ states => .ok rfl (pair.moved states pos)

theorem file : Twin pair Eq file file := fun _ _ states => .ok pair.reads.file states

theorem more : Twin pair Eq more more := by
  intro s t states
  refine .ok ?_ states
  rw [(pair.token states).kind, pair.pos states, pair.reads.size]

theorem enter {change : Catalog → Catalog} (kept : ∀ catalog, (change catalog).names = catalog.names) :
    Twin pair Eq (enter change) (enter change) := fun _ _ states => .ok rfl (pair.entered states kept)

theorem raise (cause : Cause) {place other : Position} (places : pair.At place other) :
    Twin pair same (raise cause place) (raise cause other) := fun _ _ states => .error ⟨rfl, places⟩ states

theorem unexpected (expected : List String) : Twin pair same (unexpected expected) (unexpected expected) := by
  apply bindToken token
  intro _ _ _ _ spans
  exact raise _ spans.start

theorem unexpectedNear (message : String) : Twin pair same (unexpectedNear message) (unexpectedNear message) := by
  apply bindToken token
  intro _ _ _ _ spans
  exact raise _ spans.start

theorem giveUp : Twin pair same giveUp giveUp := unexpected _

theorem expect (wanted : Kind) : Twin pair (Token.Mirrors pair.At) (expect wanted) (expect wanted) :=
  kind.bindEq fun _ => .ite advance (unexpected _)

theorem place : Twin pair pair.At place place := token.bind fun _ _ tokens => .pure tokens.span.start

theorem spanSince {start other : Position} (starts : pair.At start other) :
    Twin pair (Span.Mirrors pair.At) (spanSince start) (spanSince other) := by
  intro s t states
  rw [spanSince_run, spanSince_run]
  refine .ok ⟨starts, ?_⟩ states
  unfold Stream.spanTo
  rw [pair.pos states]
  exact pair.reads.endBefore t.pos

theorem bounded {rule : Nat → Rule α} {other : Nat → Rule β}
    (each : ∀ bound, Twin pair same (rule bound) (other bound)) : Twin pair same (bounded rule) (bounded other) := by
  intro s t states
  unfold Grammar.bounded
  rw [pair.reads.size]
  exact each _ s t states

section
variable {closer : Kind} {item : Option α → Rule α} {other : Option β → Rule β}
  (each : ∀ previous before, Option.Rel same previous before → Twin pair same (item previous) (other before))
include each

theorem itemsFrom (bound : Nat) {previous : Option α} {before : Option β} (befores : Option.Rel same previous before) :
    Twin pair (List.Forall₂ same) (itemsFrom closer item bound previous) (itemsFrom closer other bound before) := by
  induction bound generalizing previous before with
  | zero => exact giveUp
  | succ bound ih =>
    refine kind.bindEq fun _ => .ite (.pure .nil) ?_
    apply (each previous before befores).bind
    intro first last firsts
    exact (ih (.some firsts)).bind fun _ _ others => .pure (.cons firsts others)

theorem items : Twin pair (List.Forall₂ same) (items closer item) (items closer other) :=
  (bounded fun bound => itemsFrom each bound .none).bind fun _ _ lists => (expect closer).bind fun _ _ _ => .pure lists

end

theorem separator (closer : Kind) (expected : List String) :
    Twin pair Eq (separator closer expected) (separator closer expected) :=
  kind.bindEq fun _ => .ite skip (.ite (.pure rfl) (unexpected _))

theorem listed {closer : Kind} {expected : List String} {item : Rule α} {other : Rule β}
    (each : Twin pair same item other) :
    Twin pair (List.Forall₂ same) (listed closer expected item) (listed closer expected other) := by
  apply items
  intro _ _ _
  exact each.bind fun _ _ values => (separator _ _).bindEq fun _ => .pure values

theorem typeHead : Twin pair Eq typeHead typeHead :=
  kind.bindEq fun _ => .ite (bindToken advance fun _ _ _ _ _ => .pure rfl) (unexpected _)

section
variable {inner : Rule Ty} (within : Twin pair Eq inner inner)
include within

theorem bracketed (left : Ty) : Twin pair Eq (bracketed inner left) (bracketed inner left) :=
  kind.bindEq fun _ => .ite (.pure rfl) (within.bindEq fun _ => .pure rfl)

theorem typeSuffix (left : Ty) : Twin pair Eq (typeSuffix inner left) (typeSuffix inner left) :=
  (expect _).bind fun _ _ _ => (bracketed within left).bindEq fun type => (expect _).bind fun _ _ _ =>
    (enter fun catalog => catalog.addType_names type).bindEq fun _ => .pure rfl

theorem typeSuffixes (level : Level) (bound : Nat) (left : Ty) :
    Twin pair Eq (typeSuffixes inner level bound left) (typeSuffixes inner level bound left) := by
  induction bound generalizing left with
  | zero => exact giveUp
  | succ bound ih => exact kind.bindEq fun _ => .ite (.pure rfl) ((typeSuffix within left).bindEq fun wider => ih wider)

end

theorem typeWithin (bound : Nat) (level : Level) : Twin pair Eq (typeWithin bound level) (typeWithin bound level) := by
  induction bound generalizing level with
  | zero => exact giveUp
  | succ bound ih => exact typeHead.bindEq fun left => bounded fun steps => typeSuffixes (ih .lowest) level steps left

theorem typeName (level : Level) : Twin pair Eq (typeName level) (typeName level) :=
  bounded fun bound => typeWithin bound level

theorem keywordName (keyword : Kind) : Twin pair (Token.Mirrors pair.At) (keywordName keyword) (keywordName keyword) :=
  (expect _).bind fun _ _ _ => expect _

theorem delegateParameter : Twin pair Eq delegateParameter delegateParameter :=
  (typeName _).bindEq fun _ => kind.bindEq fun _ => .ite (skip.bindEq fun _ => .pure rfl) (.pure rfl)

theorem delegateHead : Twin pair (Delegate.Mirrors pair.At) delegateHead delegateHead := by
  apply (expect _).bind
  intro opener other openers
  refine (typeName _).bindEq fun returns => bindToken (expect _) fun _ _ _ _ _ => (expect _).bind fun _ _ _ => ?_
  apply (listed delegateParameter).bind
  intro parameters given lists
  obtain rfl := List.forall₂_eq_eq_eq ▸ lists
  exact (expect _).bind fun _ _ _ => (spanSince openers.span.start).bind fun _ _ spans => .pure ⟨rfl, rfl, spans⟩

theorem parameter : Twin pair (Parameter.Mirrors pair.At) parameter parameter := by
  apply place.bind
  intro start other starts
  exact (typeName _).bindEq fun _ => bindToken (expect _) fun _ _ _ _ _ => (spanSince starts).bind fun _ _ spans =>
    .pure ⟨rfl, rfl, spans⟩

theorem functionHead : Twin pair (FunctionHead.Mirrors pair.At) functionHead functionHead :=
  (typeName _).bindEq fun _ => (expect _).bind fun _ _ names => (expect _).bind fun _ _ _ =>
    (listed parameter).bind fun _ _ lists => .pure ⟨rfl, names, lists⟩

theorem typedName : Twin pair (TypedName.Mirrors pair.At) typedName typedName :=
  (typeName _).bindEq fun _ => (expect _).bind fun _ _ names => .pure ⟨rfl, names⟩

theorem closeAll (bound : Nat) (closers : List Kind) :
    Twin pair Eq (closeAll bound closers) (closeAll bound closers) := by
  induction bound generalizing closers with
  | zero =>
    cases closers with
    | nil => exact .pure rfl
    | cons closer outer => exact giveUp
  | succ bound ih =>
    cases closers with
    | nil => exact .pure rfl
    | cons closer outer =>
      refine kind.bindEq fun next => .ite (unexpected _) ?_
      cases next.closing? with
      | some inner => exact skip.bindEq fun _ => ih _
      | none =>
        exact .ite (skip.bindEq fun _ => ih _) (.ite (unexpected _) (skip.bindEq fun _ => ih _))

theorem balanced : Twin pair Eq balanced balanced := by
  apply kind.bindEq
  intro next
  cases next.closing? with
  | none => exact unexpected _
  | some closer => exact skip.bindEq fun _ => bounded fun bound => closeAll bound _

theorem toSemicolon (bound : Nat) : Twin pair Eq (toSemicolon bound) (toSemicolon bound) := by
  induction bound with
  | zero => exact giveUp
  | succ bound ih =>
    exact kind.bindEq fun next => .ite (.pure rfl) (.ite (unexpected _) (.ite (balanced.bindEq fun _ => ih)
      (.ite (unexpected _) (skip.bindEq fun _ => ih))))

theorem skipBody : Twin pair Eq skipBody skipBody := kind.bindEq fun _ => .ite balanced (unexpected _)

theorem skipInitializer : Twin pair Eq skipInitializer skipInitializer :=
  kind.bindEq fun _ => .ite (skip.bindEq fun _ => bounded toSemicolon) (.ite (.pure rfl) (unexpected _))

end Twin

structure Blind (names others : Table String Owner) (s t : State) : Prop where
  pos : s.pos = t.pos
  left : s.catalog.names = names
  right : t.catalog.names = others

-- One text that is read at one position, whatever is in the catalogs and whatever identities are given. Each run keeps
-- the claimed names that it started with.
def Pairing.blind (tokens : Stream) (names others : Table String Owner) : Pairing where
  left := tokens
  right := tokens
  At := Eq
  Ids := fun _ _ => True
  states := Blind names others
  reads := .refl tokens
  pos := Blind.pos
  moved := fun blind _ => ⟨rfl, blind.left, blind.right⟩
  entered := fun blind _ kept => ⟨blind.pos, (kept _).trans blind.left, (kept _).trans blind.right⟩

-- A rule that looks at the tokens alone. Rules for statements are not of this sort, since the names of types decide
-- what a statement is.
abbrev Oblivious (tokens : Stream) (rule : Rule α) : Prop :=
  ∀ names others, Twin (.blind tokens names others) Eq rule rule

namespace Oblivious

variable {tokens : Stream}

section
variable {rule : Rule α} (oblivious : Oblivious tokens rule) {value : α} (ran : rule tokens s = .ok value m)
include oblivious ran

theorem ok (same : s.pos = t.pos) : ∃ n, rule tokens t = .ok value n ∧ m.pos = n.pos := by
  have outcomes : (Pairing.blind tokens s.catalog.names t.catalog.names).Outcomes Eq (rule tokens s) (rule tokens t) :=
    oblivious _ _ s t ⟨same, rfl, rfl⟩
  rw [ran] at outcomes
  generalize rule tokens t = outcome at outcomes
  cases outcomes with
  | ok values after =>
    subst values
    exact ⟨_, rfl, after.pos⟩

theorem names : m.catalog.names = s.catalog.names := by
  have outcomes : (Pairing.blind tokens s.catalog.names s.catalog.names).Outcomes Eq (rule tokens s) (rule tokens s) :=
    oblivious _ _ s s ⟨rfl, rfl, rfl⟩
  rw [ran] at outcomes
  cases outcomes with
  | ok _ after => exact after.left

theorem owner? (name : String) : m.catalog.owner? name = s.catalog.owner? name := by
  unfold Catalog.owner?
  rw [oblivious.names ran]

end

theorem place : Oblivious tokens place := fun _ _ => Twin.place

theorem kind : Oblivious tokens kind := fun _ _ => Twin.kind

theorem index : Oblivious tokens index := fun _ _ => Twin.index

theorem seek (pos : Nat) : Oblivious tokens (seek pos) := fun _ _ => Twin.seek pos

theorem keywordName (keyword : Kind) : Oblivious tokens (keywordName keyword) :=
  fun _ _ => (Twin.keywordName keyword).imp fun _ _ => Token.Mirrors.eq

theorem typeName (level : Level) : Oblivious tokens (typeName level) := fun _ _ => Twin.typeName level

theorem typedName : Oblivious tokens typedName := fun _ _ => Twin.typedName.imp fun _ _ => TypedName.Mirrors.eq

theorem functionHead : Oblivious tokens functionHead :=
  fun _ _ => Twin.functionHead.imp fun _ _ => FunctionHead.Mirrors.eq

theorem delegateHead : Oblivious tokens delegateHead :=
  fun _ _ => Twin.delegateHead.imp fun _ _ headers => (Delegate.Mirrors.eq headers).symm

end Oblivious

structure Stream.Mirrors (At : Position → Position → Prop) (left right : Stream) : Prop where
  tokens : List.Forall₂ (Token.Mirrors At) left.toList right.toList
  some : 0 < left.size
  file : left.file = right.file

namespace Stream.Mirrors

variable {At : Position → Position → Prop} {left right : Stream} (mirrors : left.Mirrors At right)
include mirrors

theorem size : left.size = right.size := mirrors.tokens.length_eq

theorem getElem? (pos : Nat) : Option.Rel (Token.Mirrors At) left[pos]? right[pos]? := by
  rw [← Array.getElem?_toList, ← Array.getElem?_toList]
  exact getElem?_of_forall₂ mirrors.tokens pos

theorem token (pos : Nat) : (left.token pos).Mirrors At (right.token pos) := by
  have inside : min pos (left.size - 1) < left.size := by
    have some := mirrors.some
    omega
  have same := mirrors.getElem? (min pos (left.size - 1))
  unfold Stream.token
  rw [← mirrors.size]
  generalize found : left[min pos (left.size - 1)]? = first at same
  generalize right[min pos (left.size - 1)]? = second at same
  cases same with
  | some tokens => exact tokens
  | none => exact absurd inside (Nat.not_lt.mpr (Array.getElem?_eq_none_iff.mp found))

theorem kindAt (pos : Nat) : left.kindAt pos = right.kindAt pos := by
  have same := mirrors.getElem? pos
  unfold Stream.kindAt
  generalize left[pos]? = first at same
  generalize right[pos]? = second at same
  cases same with
  | some tokens => exact tokens.kind
  | none => rfl

theorem endBefore (pos : Nat) : At (left.endBefore pos) (right.endBefore pos) := by
  cases pos with
  | zero => exact (mirrors.token 0).span.start
  | succ before =>
    have same := mirrors.getElem? before
    simp only [Stream.endBefore]
    generalize left[before]? = first at same
    generalize right[before]? = second at same
    cases same with
    | some tokens => exact tokens.span.stop
    | none => exact (mirrors.token (before + 1)).span.start

theorem reads : left.Matches At right where
  size := mirrors.size
  token := mirrors.token
  kindAt := mirrors.kindAt
  endBefore := mirrors.endBefore
  file := mirrors.file

theorem first : left.first = right.first := by
  unfold Stream.first
  rw [mirrors.kindAt]

end Stream.Mirrors

def Pairing.laid {At : Position → Position → Prop} {left right : Stream} (mirrors : left.Mirrors At right) :
    Pairing where
  left := left
  right := right
  At := At
  Ids := Eq
  states := Eq
  reads := mirrors.reads
  pos := congrArg State.pos
  moved := fun same pos => congrArg (State.moved · pos) same
  entered := fun same change _ => congrArg (State.entered · change) same

namespace Twin

variable {At : Position → Position → Prop} {left right : Stream} {mirrors : left.Mirrors At right}

theorem claim (name : String) (owner : Owner) {place other : Position} (places : At place other) :
    Twin (.laid mirrors) Eq (claim name owner place) (claim name owner other) := by
  rintro s _ rfl
  have same : Answer.Mirrors At Eq (s.catalog.requireFree name place) (s.catalog.requireFree name other) :=
    Catalog.requireFree_mirrors rfl name places
  unfold Grammar.claim Catalog.claim
  generalize s.catalog.requireFree name place = answer at same
  generalize s.catalog.requireFree name other = result at same
  cases same with
  | ok => exact .ok rfl rfl
  | error errors => exact .error errors rfl

theorem outlineNamed (keyword : Kind) (owner : Owner) :
    Twin (.laid mirrors) Eq (outlineNamed keyword owner) (outlineNamed keyword owner) :=
  bindToken (keywordName keyword) fun _ _ _ _ spans => (claim _ owner spans.start).bindEq fun _ =>
    skipBody.bindEq fun _ => .pure rfl

theorem outlineDelegate : Twin (.laid mirrors) Eq outlineDelegate outlineDelegate := by
  apply place.bind
  intro start other starts
  apply delegateHead.bind
  intro header given headers
  rw [headers.name, headers.signature]
  exact (claim _ _ starts).bindEq fun _ => (enter fun catalog => catalog.addDelegate_names _ _).bindEq fun _ =>
    .pure rfl

theorem outlineFunction : Twin (.laid mirrors) Eq outlineFunction outlineFunction := by
  apply functionHead.bind
  intro header given headers
  rw [headers.name.value, headers.signature]
  exact (claim _ _ headers.name.span.start).bindEq fun _ => (enter fun catalog => catalog.addFunction_names _ _).bindEq
    fun _ => skipBody.bindEq fun _ => .pure rfl

theorem outlineGlobal (type : Ty) {name token : Token} (names : name.Mirrors At token) :
    Twin (.laid mirrors) Eq (outlineGlobal type name) (outlineGlobal type token) := by
  unfold Grammar.outlineGlobal
  rw [names.value]
  exact (claim _ _ names.span.start).bindEq fun _ => (enter fun catalog => catalog.addGlobal_names _ _).bindEq fun _ =>
    skipInitializer.bindEq fun _ => (expect _).bind fun _ _ _ => .pure rfl

theorem outlineTyped : Twin (.laid mirrors) Eq outlineTyped outlineTyped := by
  apply index.bindEq
  intro start
  apply typedName.bind
  intro found other alike
  obtain ⟨type, name⟩ := found
  obtain ⟨_, token⟩ := other
  obtain ⟨rfl, names⟩ := alike
  exact kind.bindEq fun _ => .ite ((seek start).bindEq fun _ => outlineFunction) (outlineGlobal type names)

theorem outlineDeclaration : Twin (.laid mirrors) Eq outlineDeclaration outlineDeclaration := by
  apply kind.bindEq
  intro next
  cases next with
  | structWord => exact outlineNamed _ _
  | enumWord => exact outlineNamed _ _
  | delegateWord => exact outlineDelegate
  | _ => exact outlineTyped

theorem entries (bound : Nat) : Twin (.laid mirrors) Eq (entries bound) (entries bound) := by
  induction bound with
  | zero => exact giveUp
  | succ bound ih =>
    exact more.bindEq fun _ => .ite (index.bindEq fun _ => outlineDeclaration.bindEq fun _ => index.bindEq fun _ =>
      ih.bindEq fun _ => .pure rfl) (.pure rfl)

theorem outline : Twin (.laid mirrors) Eq outline outline := bounded entries

end Twin

end Grammar

end TypedScript
