import TypedScript.Proofs.Catalog.Contents
import TypedScript.Proofs.Grammar.Claiming
import TypedScript.Proofs.Grammar.Printing

namespace TypedScript

structure Field where
  type : Ty
  name : String
  value : Option Number.Binary64
deriving DecidableEq

-- The declarations that have no code: a file of them says what there is and leaves out how it works.
inductive Interface where
  | delegate (returns : Ty) (name : String) (parameters : List (Ty × String))
  | struct (name : String) (fields : List Field)
  | global (type : Ty) (name : String)
deriving DecidableEq

def Field.yield (field : Field) : List Mark :=
  field.type.yield ++ .token .identifier field.name ::
    (field.value.elim [] (fun value => [.fixed .assign, .numeral value]) ++ [.fixed .semicolon])

inductive Field.Starts : Option Number.Binary64 → Option Expr → Prop where
  | none : Starts none none
  | number {value : Number.Binary64} {node : Node} : Starts (some value) (some (.literal node (.number value)))

structure Field.Makes (field : Field) (made : Variable) : Prop where
  type : made.type = field.type
  name : made.name = field.name
  value : Starts field.value made.initializer

namespace Interface

def name : Interface → String
  | delegate _ name _ => name
  | struct name _ => name
  | global _ name => name

def owner : Interface → Owner
  | delegate _ _ _ => .delegate
  | struct _ _ => .struct
  | global _ _ => .global

def parameterYield (parameter : Ty × String) : List Mark :=
  parameter.1.yield ++ [.token .identifier parameter.2]

def yield : Interface → List Mark
  | delegate returns name parameters =>
    .fixed .delegateWord :: (returns.yield ++ .token .identifier name :: .fixed .openParen ::
      (Mark.listed parameterYield parameters ++ [.fixed .closeParen, .fixed .semicolon]))
  | struct name fields =>
    .fixed .structWord :: .token .identifier name :: .fixed .openCurly ::
      (fields.flatMap Field.yield ++ [.fixed .closeCurly])
  | global type name => Field.yield ⟨type, name, none⟩

inductive Makes : Interface → Declaration → Prop where
  | delegate {returns : Ty} {name : String} {parameters : List (Ty × String)} {span : Span} :
      Makes (.delegate returns name parameters) (.delegate ⟨name, ⟨returns, parameters.map Prod.fst⟩, span⟩)
  | struct {name : String} {fields : List Field} {made : List Variable} {span : Span}
      (each : List.Forall₂ Field.Makes fields made) : Makes (.struct name fields) (.struct ⟨name, made, span⟩)
  | global {type : Ty} {name : String} {made : Variable} (line : Field.Makes ⟨type, name, none⟩ made) :
      Makes (.global type name) (.global made)

end Interface

namespace Grammar

variable {α β : Type} {tokens : Stream} {s t : State} {i j k : Nat}

namespace Returns

theorem place : Returns tokens place (fun _ => True) i i := fun s here => ⟨_, s, rfl, trivial, here⟩

theorem spanSince (start : Position) : Returns tokens (spanSince start) (fun _ => True) i i :=
  fun s here => ⟨_, s, spanSince_run start, trivial, here⟩

theorem enter (change : Catalog → Catalog) : Returns tokens (enter change) (fun _ => True) i i :=
  fun s here => ⟨(), s.entered change, rfl, trivial, here⟩

theorem index : Returns tokens index (· = i) i i := fun s here => ⟨s.pos, s, rfl, here, here⟩

theorem seek (pos : Nat) : Returns tokens (seek pos) (fun _ => True) i pos :=
  fun s _ => ⟨(), s.moved pos, rfl, trivial, rfl⟩

theorem kind_is {wanted : Kind} {next : Kind → Rule β} {want : β → Prop} (here : (tokens.token i).kind = wanted)
    (rest : Returns tokens (next wanted) want i j) : Returns tokens (Grammar.kind >>= next) want i j := by
  refine .bind .kind ?_
  rintro _ rfl
  rwa [here]

end Returns

theorem number_returns {value : Number.Binary64} (spans : Spans tokens [.numeral value] i j) (inside : j < tokens.size)
    (ends : (tokens.token j).kind = .semicolon) :
    Returns tokens (expression .lowest) (fun made => Field.Starts (some value) (some made)) i j := by
  let written : Expr := .literal ⟨0, .point (.first "")⟩ (.number value)
  have recovered := shorter_all (j - i + 1) written i j trivial spans inside (Nat.lt_succ_self _)
  have stops : (Level.ofKind (tokens.token j).kind).rank ≤ Level.lowest.rank := by rw [ends]; decide
  have returns : Returns tokens (expressionWithin (tokens.size + 1) .lowest) (CopyOf written) i j :=
    recovered.returns (by omega) inside (by decide) (fits_lowest written) stops
  refine Returns.imp returns fun made copy => ?_
  cases made with
  | literal node found =>
    obtain rfl : found = .number value := (Expr.literal.inj copy).2
    exact .number
  | _ => cases copy

theorem initializer_returns {value : Option Number.Binary64}
    (spans : Spans tokens (value.elim [] fun value => [.fixed .assign, .numeral value]) i j) (inside : j < tokens.size)
    (ends : (tokens.token j).kind = .semicolon) : Returns tokens initializer (Field.Starts value) i j := by
  cases value with
  | none =>
    cases spans.nil_eq inside
    exact .kind_is ends (.pure .none)
  | some number =>
    obtain ⟨here, sign, -, rest⟩ := spans.token_cons
    refine .kind_is sign (.bind (.skip here) fun _ _ => ?_)
    exact .bind (number_returns rest inside ends) fun made starts => .pure starts

theorem boundName_returns (inside : i < tokens.size) (name : (tokens.token i).kind = .identifier) :
    Returns tokens boundName (· = tokens.token i) i (i + 1) := .kind_is name (.advance inside)

theorem field_returns {field : Field} (spans : Spans tokens field.yield i j) (inside : j < tokens.size) :
    Returns tokens bindingLine field.Makes i j := by
  obtain ⟨m, typed, rest⟩ := spans.split
  obtain ⟨named, word, value, rest⟩ := rest.token_cons
  obtain ⟨n, given, rest⟩ := rest.split
  obtain ⟨ended, sign, -, rest⟩ := rest.token_cons
  cases rest.nil_eq inside
  have bracketless : (tokens.token m).kind ≠ .openBracket := by rw [word]; decide
  have bare : Returns tokens binding field.Makes i n := by
    refine .bind .place fun _ _ => .bind (typeName_returns typed named bracketless) fun type same => ?_
    refine .bind (boundName_returns named word) fun name found => ?_
    refine .bind (initializer_returns given ended sign) fun first starts => .bind (.spanSince _) fun span _ => .pure ?_
    exact ⟨same, found ▸ value, starts⟩
  refine .bind bare fun bare makes => .bind (.expect ended sign) fun _ _ => .bind (.spanSince _) fun span _ => .pure ?_
  exact ⟨makes.type, makes.name, makes.value⟩

theorem type_begins (type : Ty) {marks : List Mark} (spans : Spans tokens (type.yield ++ marks) i j) :
    i < j ∧ (tokens.token i).kind.BeginsType := by
  induction type generalizing marks with
  | named name =>
    obtain ⟨_, kind, -, rest⟩ := spans.token_cons
    rw [kind]
    exact ⟨rest.le, Kind.ofTypeName_begins name⟩
  | array element ih =>
    rw [Ty.yield, List.append_assoc] at spans
    exact ih spans
  | map key value _ ih =>
    rw [Ty.yield, List.append_assoc] at spans
    exact ih spans

theorem keywordName_returns {keyword : Kind} (first : i < tokens.size) (word : (tokens.token i).kind = keyword)
    (second : i + 1 < tokens.size) (name : (tokens.token (i + 1)).kind = .identifier) :
    Returns tokens (keywordName keyword) (· = tokens.token (i + 1)) i (i + 2) :=
  .bind (.expect first word) fun _ _ => .expect second name

theorem struct_returns {name : String} {fields : List Field}
    (spans : Spans tokens (Interface.struct name fields).yield i j) (inside : j < tokens.size) :
    Returns tokens struct (Interface.struct name fields).Makes i j := by
  obtain ⟨first, word, -, rest⟩ := spans.token_cons
  obtain ⟨second, kind, value, rest⟩ := rest.token_cons
  obtain ⟨third, opener, -, rest⟩ := rest.token_cons
  obtain ⟨m, lines, rest⟩ := rest.split
  obtain ⟨last, closer, -, rest⟩ := rest.token_cons
  cases rest.nil_eq inside
  refine .bind .place fun _ _ => .bind (keywordName_returns first word second kind) fun found same => ?_
  refine .bind (.expect third opener) fun _ _ => ?_
  have list : Returns tokens (items .closeCurly fun _ => bindingLine) (List.Forall₂ Field.Makes fields) (i + 3)
      (m + 1) := by
    refine .bind (j := m) ?_ fun made each => .bind (.expect last closer) fun _ _ => .pure each
    intro s here
    refine itemsFrom_returns rfl (fun _ _ => List.flatMap_cons) ?_ lines last closer none (by omega) s here
    intro field _ others p q low high line _
    obtain ⟨lt, begins⟩ := type_begins field.type line
    refine ⟨lt, ?_, field_returns line (by omega)⟩
    intro same
    rw [same] at begins
    cases begins
  refine .bind list fun made each => .bind (.enter _) fun _ _ => .bind (.spanSince _) fun span _ => .pure ?_
  rw [same, value]
  exact .struct each

theorem delegateParameter_returns {parameter : Ty × String}
    (spans : Spans tokens (Interface.parameterYield parameter) i j) (inside : j < tokens.size) :
    Returns tokens delegateParameter (· = parameter.1) i j := by
  obtain ⟨m, typed, rest⟩ := spans.split
  obtain ⟨named, word, -, rest⟩ := rest.token_cons
  cases rest.nil_eq inside
  have bracketless : (tokens.token m).kind ≠ .openBracket := by rw [word]; decide
  refine .bind (typeName_returns typed named bracketless) fun type same => ?_
  exact .kind_is word (.bind (.skip named) fun _ _ => .pure same)

theorem delegateHead_returns {returns : Ty} {name : String} {parameters : List (Ty × String)}
    (spans : Spans tokens (Interface.delegate returns name parameters).yield i j) (inside : j < tokens.size) :
    Returns tokens delegateHead (fun made => made.name = name ∧ made.signature = ⟨returns, parameters.map Prod.fst⟩)
      i j := by
  obtain ⟨first, word, -, rest⟩ := spans.token_cons
  obtain ⟨m, typed, rest⟩ := rest.split
  obtain ⟨second, kind, value, rest⟩ := rest.token_cons
  obtain ⟨third, opener, -, rest⟩ := rest.token_cons
  obtain ⟨n, list, rest⟩ := rest.split
  obtain ⟨fourth, closer, -, rest⟩ := rest.token_cons
  obtain ⟨last, sign, -, rest⟩ := rest.token_cons
  cases rest.nil_eq inside
  have bracketless : (tokens.token m).kind ≠ .openBracket := by rw [kind]; decide
  have given : Returns tokens (listed .closeParen [",", ")"] delegateParameter)
      (List.Forall₂ (fun parameter type => type = parameter.1) parameters) (m + 2) (n + 1) := by
    refine listed_returns ?_ list fourth closer rfl
    intro parameter _ p q low high text _
    obtain ⟨lt, begins⟩ := type_begins parameter.1 text
    refine ⟨lt, ?_, delegateParameter_returns text (by omega)⟩
    intro same
    rw [same] at begins
    cases begins
  refine .bind (.expect first word) fun start _ => .bind (typeName_returns typed second bracketless) fun type same => ?_
  refine .bind (.expect second kind) fun found named => .bind (.expect third opener) fun _ _ => ?_
  refine .bind given fun types each => .bind (.expect last sign) fun _ _ => .bind (.spanSince _) fun span _ => .pure ?_
  have listed : types = parameters.map Prod.fst := by
    rw [← List.forall₂_eq_eq_eq, List.forall₂_map_right_iff]
    exact each.flip
  rw [same, named, value, listed]
  exact ⟨rfl, rfl⟩

theorem delegate_returns {returns : Ty} {name : String} {parameters : List (Ty × String)}
    (spans : Spans tokens (Interface.delegate returns name parameters).yield i j) (inside : j < tokens.size) :
    Returns tokens delegate (Interface.delegate returns name parameters).Makes i j := by
  refine .bind (delegateHead_returns spans inside) ?_
  rintro ⟨_, _, span⟩ ⟨rfl, rfl⟩
  exact .bind (.enter _) fun _ _ => .pure .delegate

theorem typedName_returns {type : Ty} {name : String} (spans : Spans tokens (Interface.global type name).yield i j)
    (inside : j < tokens.size) :
    ∃ k, j = k + 1 ∧ (tokens.token k).kind = .semicolon ∧
      Returns tokens typedName (fun found => found.1 = type ∧ found.2.value = name) i k := by
  obtain ⟨m, typed, rest⟩ := spans.split
  obtain ⟨named, word, value, rest⟩ := rest.token_cons
  obtain ⟨-, sign, -, rest⟩ := rest.token_cons
  have bracketless : (tokens.token m).kind ≠ .openBracket := by rw [word]; decide
  refine ⟨m + 1, (rest.nil_eq inside).symm, sign, ?_⟩
  refine .bind (typeName_returns typed named bracketless) fun made same => ?_
  refine .bind (.expect named word) fun found here => ?_
  exact .pure ⟨same, here ▸ value⟩

theorem global_returns {type : Ty} {name : String}
    (spans : Spans tokens (Interface.global type name).yield i j) (inside : j < tokens.size) :
    Returns tokens typedDeclaration (Interface.global type name).Makes i j := by
  obtain ⟨k, -, sign, looked⟩ := typedName_returns spans inside
  refine .bind .index fun start same => .bind looked fun _ _ => .kind_is sign (.bind (.seek start) fun _ _ => ?_)
  rw [same]
  exact .bind (field_returns spans inside) fun made line => .bind (.enter _) fun _ _ => .pure (.global line)

theorem interface_returns {interface : Interface} (spans : Spans tokens interface.yield i j)
    (inside : j < tokens.size) :
    Returns tokens declaration interface.Makes i j := by
  cases interface with
  | delegate returns name parameters =>
    obtain ⟨_, word, -, -⟩ := spans.token_cons
    exact .kind_is word (delegate_returns spans inside)
  | struct name fields =>
    obtain ⟨_, word, -, -⟩ := spans.token_cons
    exact .kind_is word (struct_returns spans inside)
  | global type name =>
    obtain ⟨-, begins⟩ := type_begins type spans
    refine .bind .kind ?_
    rintro next rfl
    have returns := global_returns spans inside
    generalize (tokens.token i).kind = next at begins
    cases next with
    | structWord | enumWord | delegateWord => cases begins
    | _ => exact returns

-- A rule of the outline that finds a name in a range of tokens, from every state in which the name is free.
def Enlists (tokens : Stream) (rule : Rule (Owner × String)) (owner : Owner) (name : String) (i j : Nat) : Prop :=
  ∀ s : State, s.pos = i → s.catalog.owner? name = none → ∃ t, rule tokens s = .ok (owner, name) t ∧ t.pos = j

namespace Enlists

variable {owner : Owner} {name : String}

theorem bind {first : Rule α} {next : α → Rule (Owner × String)} {middle : α → Prop}
    (oblivious : Oblivious tokens first) (start : Returns tokens first middle i k)
    (rest : ∀ found, middle found → Enlists tokens (next found) owner name k j) :
    Enlists tokens (first >>= next) owner name i j := by
  intro s here free
  obtain ⟨found, m, ran, right, there⟩ := start s here
  rw [← oblivious.owner? ran] at free
  rw [bind_of_ok ran]
  exact rest found right m there free

theorem claim (valid : Catalog.isValidName name = true) (place : Position) {next : Unit → Rule (Owner × String)}
    (rest : Returns tokens (next ()) (· = (owner, name)) i j) :
    Enlists tokens (claim name owner place >>= next) owner name i j := by
  intro s here free
  have claimed : ∃ catalog, s.catalog.claim name owner place = .ok () catalog :=
    ⟨_, Catalog.claim_ok_iff.mpr ⟨Catalog.requireFree_ok.mpr ⟨if_pos valid, free⟩, rfl⟩⟩
  obtain ⟨catalog, claimed⟩ := claimed
  have ran : Grammar.claim name owner place tokens s = .ok () (s.entered fun _ => catalog) := by
    unfold Grammar.claim
    rw [claimed]
    rfl
  obtain ⟨_, t, last, rfl, there⟩ := rest (s.entered fun _ => catalog) here
  rw [bind_of_ok ran]
  exact ⟨t, last, there⟩

end Enlists

section
variable (closed : Closed tokens)

include closed in
theorem structBody_returns {name : String} {fields : List Field}
    (spans : Spans tokens (Interface.struct name fields).yield i j) (inside : j < tokens.size) :
    Returns tokens skipBody (fun _ => True) (i + 2) j := by
  obtain ⟨_, t, ran, -, there⟩ := struct_returns spans inside ⟨i, 0, .initial⟩ rfl
  obtain ⟨_, m, -, rfl, ⟨word, named, opener, inner, closer⟩⟩ := struct_reads ran
  have body := inner.nested fun _ _ _ _ line => line.nested closed
  have first : ((⟨i, 0, .initial⟩ : State).step tokens).pos = i + 1 := closed.step_pos (by rw [word]; decide)
  have second : (((⟨i, 0, .initial⟩ : State).step tokens).step tokens).pos = i + 2 := by
    rw [closed.step_pos (by rw [named]; decide), first]
  intro s here
  have same := here.trans second.symm
  have opened := (Stream.next_congr same).trans opener
  exact ⟨(), _, skipBody_nested closed opened same body closer, trivial, there⟩

include closed in
theorem struct_enlists {name : String} {fields : List Field} (valid : Catalog.isValidName name = true)
    (spans : Spans tokens (Interface.struct name fields).yield i j) (inside : j < tokens.size) :
    Enlists tokens (outlineNamed .structWord .struct) .struct name i j := by
  obtain ⟨first, word, -, rest⟩ := spans.token_cons
  obtain ⟨second, kind, value, -⟩ := rest.token_cons
  refine .bind (.keywordName _) (keywordName_returns first word second kind) ?_
  rintro found rfl
  rw [value]
  exact .claim valid _ (.bind (structBody_returns closed spans inside) fun _ _ => .pure rfl)

theorem delegate_enlists {returns : Ty} {name : String} {parameters : List (Ty × String)}
    (valid : Catalog.isValidName name = true)
    (spans : Spans tokens (Interface.delegate returns name parameters).yield i j) (inside : j < tokens.size) :
    Enlists tokens outlineDelegate .delegate name i j := by
  refine .bind .place .place fun start _ => .bind .delegateHead (delegateHead_returns spans inside) ?_
  rintro header ⟨rfl, -⟩
  exact .claim valid start (.bind (.enter _) fun _ _ => .pure rfl)

theorem global_enlists {type : Ty} {name : String} (valid : Catalog.isValidName name = true)
    (spans : Spans tokens (Interface.global type name).yield i j) (inside : j < tokens.size) :
    Enlists tokens outlineTyped .global name i j := by
  obtain ⟨k, rfl, sign, looked⟩ := typedName_returns spans inside
  refine .bind .index .index fun start _ => .bind .typedName looked ?_
  rintro ⟨_, found⟩ ⟨rfl, rfl⟩
  refine .bind .kind .kind ?_
  rintro _ rfl
  rw [sign]
  have skipped : Returns tokens skipInitializer (fun _ => True) k k := .kind_is sign (.pure trivial)
  exact .claim valid _ (.bind (.enter _) fun _ _ => .bind skipped fun _ _ =>
    .bind (.expect (Nat.lt_of_succ_lt inside) sign) fun _ _ => .pure rfl)

include closed in
theorem interface_enlists {interface : Interface} (valid : Catalog.isValidName interface.name = true)
    (spans : Spans tokens interface.yield i j) (inside : j < tokens.size) :
    Enlists tokens outlineDeclaration interface.owner interface.name i j := by
  refine .bind .kind .kind ?_
  rintro next rfl
  cases interface with
  | delegate returns name parameters =>
    obtain ⟨_, word, -, -⟩ := spans.token_cons
    rw [word]
    exact delegate_enlists valid spans inside
  | struct name fields =>
    obtain ⟨_, word, -, -⟩ := spans.token_cons
    rw [word]
    exact struct_enlists closed valid spans inside
  | global type name =>
    obtain ⟨-, begins⟩ := type_begins type spans
    have enlists := global_enlists valid spans inside
    generalize (tokens.token i).kind = next at begins
    cases next with
    | structWord | enumWord | delegateWord => cases begins
    | _ => exact enlists

end

theorem interface_begins {interface : Interface} (spans : Spans tokens interface.yield i j) :
    i < j ∧ (tokens.token i).kind ≠ .endOfFile := by
  cases interface with
  | delegate returns name parameters =>
    obtain ⟨_, word, -, rest⟩ := spans.token_cons
    exact ⟨rest.le, by rw [word]; decide⟩
  | struct name fields =>
    obtain ⟨_, word, -, rest⟩ := spans.token_cons
    exact ⟨rest.le, by rw [word]; decide⟩
  | global type name =>
    obtain ⟨lt, begins⟩ := type_begins type spans
    refine ⟨lt, ?_⟩
    intro same
    rw [same] at begins
    cases begins

structure Lists (tokens : Stream) (interface : Interface) (entry : Entry) : Prop where
  spans : Spans tokens interface.yield entry.start entry.stop
  inside : entry.stop < tokens.size

theorem interfaces_outlined (closed : Closed tokens) {list : List Interface} {bound : Nat}
    (valid : ∀ interface ∈ list, Catalog.isValidName interface.name = true)
    (distinct : (list.map Interface.name).Nodup) (spans : Spans tokens (list.flatMap Interface.yield) i j)
    (inside : j < tokens.size) (ended : (tokens.token j).kind = .endOfFile) (here : s.pos = i) (enough : j - i < bound)
    (free : ∀ interface ∈ list, s.catalog.owner? interface.name = none) :
    ∃ found t, entries bound tokens s = .ok found t ∧ List.Forall₂ (Lists tokens) list found ∧
      s.catalog.names.Extends t.catalog.names ∧
      ∀ interface ∈ list, t.catalog.owner? interface.name = some interface.owner := by
  obtain ⟨fewer, rfl⟩ : ∃ fewer, bound = fewer + 1 := ⟨bound - 1, by omega⟩
  induction list generalizing i s fewer with
  | nil =>
    cases spans.nil_eq inside
    have finished : ¬(decide (s.pos < tokens.size) && decide (tokens.next s ≠ .endOfFile)) = true := by
      rw [Stream.next, here, ended]
      simp
    refine ⟨[], s, ?_, .nil, .refl _, List.forall_mem_nil _⟩
    rw [entries, more_bind, if_neg finished]
    rfl
  | cons first others ih =>
    rw [List.flatMap_cons] at spans
    obtain ⟨m, before, rest⟩ := spans.split
    have short := rest.le
    obtain ⟨lt, live⟩ := interface_begins before
    obtain ⟨own, later⟩ := List.forall_mem_cons.mp free
    obtain ⟨right, rights⟩ := List.forall_mem_cons.mp valid
    obtain ⟨unlike, apart⟩ := List.nodup_cons.mp distinct
    obtain ⟨t, ran, there⟩ := interface_enlists closed right before (by omega) s here own
    obtain ⟨-, names⟩ := outlineDeclaration_claims.names _ _ _ ran
    -- The name that was claimed is none of the others, which are still free.
    have still : ∀ interface ∈ others, t.catalog.owner? interface.name = none := by
      intro interface member
      have other : interface.name ≠ first.name := fun same => unlike (same ▸ List.mem_map_of_mem member)
      have old := later interface member
      unfold Catalog.owner? at old ⊢
      rw [names, Table.get?_insertNew, old, if_neg other]
      rfl
    -- Every interface takes a token at least, so that the bound lasts.
    obtain ⟨fewest, rfl⟩ : ∃ fewest, fewer = fewest + 1 := ⟨fewer - 1, by omega⟩
    have owned : t.catalog.owner? first.name = some first.owner := by
      unfold Catalog.owner? at own ⊢
      rw [names, Table.get?_insertNew, own, if_pos rfl]
      rfl
    obtain ⟨found, last, outlined, lists, kept, all⟩ := ih rights apart rest there still fewest (by omega)
    have more : (decide (s.pos < tokens.size) && decide (tokens.next s ≠ .endOfFile)) = true := by
      rw [Stream.next, here]
      simp only [Bool.and_eq_true, decide_eq_true_eq]
      exact ⟨by omega, live⟩
    have within : m < tokens.size := by omega
    have grown : s.catalog.names.Extends t.catalog.names := by
      rw [names]
      exact Table.extends_insertNew _ _ _
    refine ⟨⟨first.owner, first.name, i, m⟩ :: found, last, ?_, .cons ⟨before, within⟩ lists, grown.trans kept,
      List.forall_mem_cons.mpr ⟨kept _ _ owned, all⟩⟩
    rw [entries, more_bind, if_pos more, index_bind, bind_of_ok ran]
    dsimp only
    rw [index_bind, bind_of_ok outlined, here, there]
    rfl

theorem interfaces_parsed {list : List Interface} {found : List Entry} (lists : List.Forall₂ (Lists tokens) list found)
    (s : State) : ∃ made t, declarations found tokens s = .ok made t ∧ List.Forall₂ Interface.Makes list made := by
  induction lists generalizing s with
  | nil => exact ⟨[], s, rfl, .nil⟩
  | @cons first entry _ _ here _ ih =>
    obtain ⟨decl, m, ran, makes, there⟩ := interface_returns here.spans here.inside (s.moved entry.start) rfl
    obtain ⟨made, t, rest, others⟩ := ih m
    refine ⟨decl :: made, t, ?_, .cons makes others⟩
    rw [declarations, seek_bind, bind_of_ok ran, index_bind, if_pos there, bind_of_ok rest]
    rfl

end Grammar

end TypedScript
