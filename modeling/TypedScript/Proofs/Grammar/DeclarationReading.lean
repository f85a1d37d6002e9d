import TypedScript.Grammar.Declaration
import TypedScript.Proofs.Grammar.Twins
import TypedScript.Proofs.Grammar.StatementReading

namespace TypedScript.Grammar

variable {tokens : Stream} {s t m n : State}

inductive ReadsMember (tokens : Stream) (previous : Option Member) : Member → State → State → Prop where
  | mk {s m t : State} {value : Int} (found : tokens.next s = .identifier)
      (valued : memberValue (tokens.token s.pos) (previous.map Member.value) tokens (s.step tokens) =
        .ok value m)
      (separated : Separated tokens .closeCurly m t) :
      ReadsMember tokens previous ⟨(tokens.token s.pos).value, value,
        tokens.spanTo (tokens.token s.pos).span.start m⟩ s t

inductive ReadsValue (tokens : Stream) : State → State → Prop where
  | implied {s : State} : ReadsValue tokens s s
  | stated {s : State} (sign : tokens.next s = .assign) (number : tokens.next (s.step tokens) = .number) :
      ReadsValue tokens s ((s.step tokens).step tokens)
  | negated {s : State} (sign : tokens.next s = .assign) (dash : tokens.next (s.step tokens) = .dash)
      (number : tokens.next ((s.step tokens).step tokens) = .number) :
      ReadsValue tokens s (((s.step tokens).step tokens).step tokens)

inductive ReadsDelegateParameter (tokens : Stream) : Ty → State → State → Prop where
  | bare {s t : State} {type : Ty} (declared : ReadsType tokens type s t) :
      ReadsDelegateParameter tokens type s t
  | named {s m : State} {type : Ty} (declared : ReadsType tokens type s m)
      (found : tokens.next m = .identifier) : ReadsDelegateParameter tokens type s (m.step tokens)

inductive ReadsDelegate (tokens : Stream) : Delegate → State → State → Prop where
  | mk {s m n : State} {returns : Ty} {parameters : List Ty} (word : tokens.next s = .delegateWord)
      (declared : ReadsType tokens returns (s.step tokens) m) (found : tokens.next m = .identifier)
      (opener : tokens.next (m.step tokens) = .openParen)
      (inner : ReadsItems tokens .closeParen (Listed tokens .closeParen (ReadsDelegateParameter tokens)) none
        parameters ((m.step tokens).step tokens) n)
      (closer : tokens.next n = .closeParen) (ended : tokens.next (n.step tokens) = .semicolon) :
      ReadsDelegate tokens ⟨(tokens.token m.pos).value, ⟨returns, parameters⟩,
        tokens.spanTo (tokens.token s.pos).span.start ((n.step tokens).step tokens)⟩ s
        ((n.step tokens).step tokens)

inductive ReadsParameter (tokens : Stream) : Parameter → State → State → Prop where
  | mk {s m : State} {type : Ty} (declared : ReadsType tokens type s m)
      (found : tokens.next m = .identifier) :
      ReadsParameter tokens ⟨type, (tokens.token m.pos).value,
        tokens.spanTo (tokens.token s.pos).span.start (m.step tokens)⟩ s (m.step tokens)

inductive ReadsHead (tokens : Stream) : FunctionHead → State → State → Prop where
  | mk {s m n : State} {returns : Ty} {parameters : List Parameter}
      (declared : ReadsType tokens returns s m) (found : tokens.next m = .identifier)
      (opener : tokens.next (m.step tokens) = .openParen)
      (inner : ReadsItems tokens .closeParen (Listed tokens .closeParen (ReadsParameter tokens)) none
        parameters ((m.step tokens).step tokens) n)
      (closer : tokens.next n = .closeParen) :
      ReadsHead tokens ⟨returns, tokens.token m.pos, parameters⟩ s (n.step tokens)

inductive ReadsStruct (tokens : Stream) : Struct → State → State → Prop where
  | mk {s m : State} {fields : List Variable} (word : tokens.next s = .structWord)
      (found : tokens.next (s.step tokens) = .identifier)
      (opener : tokens.next ((s.step tokens).step tokens) = .openCurly)
      (inner : ReadsItems tokens .closeCurly (fun _ => ReadsLine tokens) none fields
        (((s.step tokens).step tokens).step tokens) m)
      (closer : tokens.next m = .closeCurly) :
      ReadsStruct tokens ⟨(tokens.token (s.step tokens).pos).value, fields,
        tokens.spanTo (tokens.token s.pos).span.start (m.step tokens)⟩ s (m.step tokens)

inductive ReadsEnumeration (tokens : Stream) : Enumeration → State → State → Prop where
  | mk {s m : State} {members : List Member} (word : tokens.next s = .enumWord)
      (found : tokens.next (s.step tokens) = .identifier)
      (opener : tokens.next ((s.step tokens).step tokens) = .openCurly)
      (inner : ReadsItems tokens .closeCurly (ReadsMember tokens) none members
        (((s.step tokens).step tokens).step tokens) m)
      (closer : tokens.next m = .closeCurly) :
      ReadsEnumeration tokens ⟨(tokens.token (s.step tokens).pos).value, members,
        tokens.spanTo (tokens.token s.pos).span.start (m.step tokens)⟩ s (m.step tokens)

inductive ReadsFunction (tokens : Stream) : Function → State → State → Prop where
  | mk {s m n : State} {header : FunctionHead} {body : List Stmt} (first : ReadsHead tokens header s m)
      (opener : tokens.next m = .openCurly) (inner : ReadsStmt tokens (.body body) (m.step tokens) n)
      (closer : tokens.next n = .closeCurly) :
      ReadsFunction tokens ⟨header.returns, header.name.value, header.parameters, body,
        tokens.spanTo (tokens.token m.pos).span.start (n.step tokens), .named header.signature.path,
        tokens.spanTo (tokens.token s.pos).span.start (n.step tokens)⟩ s (n.step tokens)

-- The catalog takes the shape of a declaration when all of it has been read.
def shape : Declaration → Catalog → Catalog
  | .global decl, catalog => catalog.addGlobal decl.name decl.type
  | .function decl, catalog => catalog.addFunction decl.name ⟨decl.returns, decl.parameters.map Parameter.type⟩
  | .enumeration decl, catalog =>
    catalog.addEnum decl.name (decl.members.map fun member => (member.name, member.value))
  | .delegate decl, catalog => catalog.addDelegate decl.name decl.signature
  | .struct decl, catalog =>
    catalog.addStruct decl.name (decl.fields.map fun field => (field.name, field.type))

-- The type and the name of a function or a global are read twice: once to find the token after them, and
-- again from the same position, with the types of the first reading in the catalog.
inductive ReadsDeclaration (tokens : Stream) : Declaration → State → State → Prop where
  | struct {s m : State} {decl : Struct} (inner : ReadsStruct tokens decl s m) :
      ReadsDeclaration tokens (.struct decl) s (m.entered (shape (.struct decl)))
  | enumeration {s m : State} {decl : Enumeration} (inner : ReadsEnumeration tokens decl s m) :
      ReadsDeclaration tokens (.enumeration decl) s (m.entered (shape (.enumeration decl)))
  | delegate {s m : State} {decl : Delegate} (inner : ReadsDelegate tokens decl s m) :
      ReadsDeclaration tokens (.delegate decl) s (m.entered (shape (.delegate decl)))
  | function {s l m : State} {decl : Function} (ahead : ReadsType tokens decl.returns s l)
      (inner : ReadsFunction tokens decl ((l.step tokens).moved s.pos) m) :
      ReadsDeclaration tokens (.function decl) s (m.entered (shape (.function decl)))
  | global {s l m : State} {decl : Variable} (ahead : ReadsType tokens decl.type s l)
      (inner : ReadsLine tokens decl ((l.step tokens).moved s.pos) m) :
      ReadsDeclaration tokens (.global decl) s (m.entered (shape (.global decl)))

theorem keywordName_ok {keyword : Kind} {found : Token} :
    keywordName keyword tokens s = .ok found t ↔ tokens.next s = keyword ∧
      tokens.next (s.step tokens) = .identifier ∧ found = tokens.token (s.step tokens).pos ∧
      t = (s.step tokens).step tokens := by
  simp only [keywordName, bind_ok, expect_ok]
  constructor
  · rintro ⟨_, _, ⟨word, rfl, rfl⟩, rest⟩
    exact ⟨word, rest⟩
  · rintro ⟨word, rest⟩
    exact ⟨_, _, ⟨word, rfl, rfl⟩, rest⟩

theorem struct_reads {found : Declaration} (ran : struct tokens s = .ok found t) :
    ∃ decl m, found = .struct decl ∧ t = m.entered (shape (.struct decl)) ∧ ReadsStruct tokens decl s m := by
  simp only [struct, place_bind, bind_ok, keywordName_ok, expect_ok, enter_bind, spanSince_bind,
    pure_ok] at ran
  obtain ⟨_, _, ⟨word, named, rfl, rfl⟩, _, _, ⟨opener, -, rfl⟩, fields, _, ran, rfl, rfl⟩ := ran
  obtain ⟨m, inner, closer, rfl⟩ := items_reads (fun _ _ _ _ ran => bindingLine_reads ran) ran
  exact ⟨_, _, rfl, rfl, .mk word named opener inner closer⟩

theorem integer_ok {value : Int} (ran : integer tokens s = .ok value t) :
    tokens.next s = .number ∧ t = s.step tokens := by
  simp only [integer, bind_ok, expect_ok] at ran
  obtain ⟨found, _, ⟨number, -, rfl⟩, ran⟩ := ran
  refine ⟨number, ?_⟩
  cases read : Number.Signed64.ofText? found.value with
  | some value =>
    simp only [read] at ran
    exact (pure_ok.mp ran).2.symm
  | none =>
    simp only [read] at ran
    exact (raise_ok.mp ran).elim

theorem statedValue_ok {member : Token} {previous : Option Int} {value : Int}
    (ran : statedValue member previous tokens s = .ok value t) :
    ∃ found, signedInteger tokens s = .ok found t := by
  simp only [statedValue, place_bind, bind_ok] at ran
  obtain ⟨found, m, read, ran⟩ := ran
  refine ⟨found, ?_⟩
  cases previous with
  | none =>
    obtain ⟨-, rfl⟩ := pure_ok.mp ran
    exact read
  | some minimum =>
    simp only at ran
    split at ran
    · exact (raise_ok.mp ran).elim
    · obtain ⟨-, rfl⟩ := pure_ok.mp ran
      exact read

theorem impliedValue_ok {member : Token} {previous : Option Int} {value : Int}
    (ran : impliedValue member previous tokens s = .ok value t) : s = t := by
  cases previous with
  | none => exact (pure_ok.mp ran).2
  | some previous =>
    simp only [impliedValue] at ran
    cases next : Number.Signed64.next? previous with
    | some value =>
      simp only [next] at ran
      exact (pure_ok.mp ran).2
    | none =>
      simp only [next] at ran
      exact (raise_ok.mp ran).elim

theorem memberValue_reads {member : Token} {previous : Option Int} {value : Int}
    (ran : memberValue member previous tokens s = .ok value t) : ReadsValue tokens s t := by
  simp only [memberValue, kind_bind] at ran
  split at ran
  · rename_i sign
    rw [skip_bind] at ran
    obtain ⟨found, read⟩ := statedValue_ok ran
    simp only [signedInteger, kind_bind] at read
    split at read
    · rename_i dash
      simp only [skip_bind, bind_ok, pure_ok] at read
      obtain ⟨_, _, read, -, rfl⟩ := read
      obtain ⟨number, rfl⟩ := integer_ok read
      exact .negated sign dash number
    · obtain ⟨number, rfl⟩ := integer_ok read
      exact .stated sign number
  · cases impliedValue_ok ran
    exact .implied

theorem enumMember_reads {previous : Option Member} {member : Member}
    (ran : enumMember previous tokens s = .ok member t) : ReadsMember tokens previous member s t := by
  simp only [enumMember, bind_ok, expect_ok, spanSince_bind, pure_ok] at ran
  obtain ⟨_, _, ⟨found, rfl, rfl⟩, value, m, valued, _, _, separated, rfl, rfl⟩ := ran
  exact .mk found valued (separator_separates separated)

theorem enumeration_reads {found : Declaration} (ran : enumeration tokens s = .ok found t) :
    ∃ decl m, found = .enumeration decl ∧ t = m.entered (shape (.enumeration decl)) ∧ ReadsEnumeration tokens decl s m := by
  simp only [enumeration, place_bind, bind_ok, keywordName_ok, expect_ok, enter_bind, spanSince_bind,
    pure_ok] at ran
  obtain ⟨_, _, ⟨word, named, rfl, rfl⟩, _, _, ⟨opener, -, rfl⟩, members, _, ran, rfl, rfl⟩ := ran
  have item : ∀ previous s member t, enumMember previous tokens s = .ok member t →
      ReadsMember tokens previous member s t := fun _ _ _ _ ran => enumMember_reads ran
  obtain ⟨m, inner, closer, rfl⟩ := items_reads item ran
  exact ⟨_, _, rfl, rfl, .mk word named opener inner closer⟩

theorem delegateParameter_reads {type : Ty} (ran : delegateParameter tokens s = .ok type t) :
    ReadsDelegateParameter tokens type s t := by
  simp only [delegateParameter, bind_ok, kind_bind] at ran
  obtain ⟨_, m, declared, ran⟩ := ran
  split at ran
  · rename_i found
    simp only [skip_bind, pure_ok] at ran
    obtain ⟨rfl, rfl⟩ := ran
    exact .named (typeName_reads declared) found
  · obtain ⟨rfl, rfl⟩ := pure_ok.mp ran
    exact .bare (typeName_reads declared)

theorem delegateHead_reads {decl : Delegate} (ran : delegateHead tokens s = .ok decl t) :
    ReadsDelegate tokens decl s t := by
  simp only [delegateHead, bind_ok, expect_ok, spanSince_bind, pure_ok] at ran
  obtain ⟨_, _, ⟨word, rfl, rfl⟩, returns, m, declared, _, _, ⟨found, rfl, rfl⟩, _, _, ⟨opener, -, rfl⟩,
    parameters, _, ran, _, _, ⟨ended, -, rfl⟩, rfl, rfl⟩ := ran
  obtain ⟨n, inner, closer, rfl⟩ := listed_reads (fun _ _ _ ran => delegateParameter_reads ran) ran
  exact .mk word (typeName_reads declared) found opener inner closer ended

theorem parameter_reads {found : Parameter} (ran : parameter tokens s = .ok found t) :
    ReadsParameter tokens found s t := by
  simp only [parameter, place_bind, bind_ok, expect_ok, spanSince_bind, pure_ok] at ran
  obtain ⟨type, m, declared, _, _, ⟨found, rfl, rfl⟩, rfl, rfl⟩ := ran
  exact .mk (typeName_reads declared) found

theorem functionHead_reads {header : FunctionHead} (ran : functionHead tokens s = .ok header t) :
    ReadsHead tokens header s t := by
  simp only [functionHead, bind_ok, expect_ok, pure_ok] at ran
  obtain ⟨returns, m, declared, _, _, ⟨found, rfl, rfl⟩, _, _, ⟨opener, -, rfl⟩, parameters, _, ran, rfl,
    rfl⟩ := ran
  obtain ⟨n, inner, closer, rfl⟩ := listed_reads (fun _ _ _ ran => parameter_reads ran) ran
  exact .mk (typeName_reads declared) found opener inner closer

theorem typedName_reads {type : Ty} {name : Token} (ran : typedName tokens s = .ok (type, name) t) :
    ∃ m, ReadsType tokens type s m ∧ tokens.next m = .identifier ∧ name = tokens.token m.pos ∧
      t = m.step tokens := by
  simp only [typedName, bind_ok, expect_ok, pure_ok] at ran
  obtain ⟨_, m, declared, _, _, ⟨found, rfl, rfl⟩, same, rfl⟩ := ran
  cases same
  exact ⟨m, typeName_reads declared, found, rfl, rfl⟩

theorem function_reads {found : Declaration} (ran : function tokens s = .ok found t) :
    ∃ decl m, found = .function decl ∧ t = m.entered (shape (.function decl)) ∧ ReadsFunction tokens decl s m := by
  simp only [function, place_bind, bind_ok, enter_bind, spanSince_bind, pure_ok] at ran
  obtain ⟨header, m, first, ⟨body, span⟩, _, inside, rfl, rfl⟩ := ran
  obtain ⟨n, opener, inner, closer, rfl, rfl⟩ := block_reads inside
  exact ⟨_, _, rfl, rfl, .mk (functionHead_reads first) opener inner closer⟩

theorem global_reads {found : Declaration} (ran : global tokens s = .ok found t) :
    ∃ decl m, found = .global decl ∧ t = m.entered (shape (.global decl)) ∧ ReadsLine tokens decl s m := by
  simp only [global, bind_ok, enter_bind, pure_ok] at ran
  obtain ⟨decl, m, line, rfl, rfl⟩ := ran
  exact ⟨_, _, rfl, rfl, bindingLine_reads line⟩

-- Both readings of the type of a function or a global give the same type.
theorem typeName_again {type other : Ty} {level : Level} (same : s.pos = m.pos)
    (first : typeName level tokens s = .ok type t) (second : typeName level tokens m = .ok other n) :
    type = other := by
  obtain ⟨_, again, -⟩ := (Oblivious.typeName level).ok first same
  rw [again] at second
  cases second
  rfl

theorem function_returns {decl : Function} (ran : function tokens s = .ok (.function decl) t) :
    ∃ m, typeName .lowest tokens s = .ok decl.returns m := by
  simp only [function, functionHead, place_bind, bind_ok, enter_bind, spanSince_bind, pure_ok] at ran
  obtain ⟨_, _, ⟨returns, m, declared, _, _, _, _, _, _, _, _, _, rfl, -⟩, _, _, _, same, -⟩ := ran
  cases same
  exact ⟨m, declared⟩

theorem global_type {decl : Variable} (ran : global tokens s = .ok (.global decl) t) :
    ∃ m, typeName .lowest tokens s = .ok decl.type m := by
  simp only [global, bindingLine, binding, place_bind, bind_ok, enter_bind, spanSince_bind, pure_ok] at ran
  obtain ⟨_, _, ⟨_, _, ⟨type, m, declared, _, _, _, _, _, _, rfl, -⟩, _, _, _, rfl, -⟩, same, -⟩ := ran
  cases same
  exact ⟨m, declared⟩

theorem typedDeclaration_reads {decl : Declaration} (ran : typedDeclaration tokens s = .ok decl t) :
    ReadsDeclaration tokens decl s t := by
  simp only [typedDeclaration, typedName, index_bind, bind_ok, expect_ok, pure_ok, kind_bind, seek_bind] at ran
  obtain ⟨_, _, ⟨type, l, ahead, _, _, ⟨-, rfl, rfl⟩, rfl, rfl⟩, ran⟩ := ran
  have here : s.pos = ((l.step tokens).moved s.pos).pos := rfl
  split at ran
  · obtain ⟨decl, m, rfl, rfl, inner⟩ := function_reads ran
    obtain ⟨_, again⟩ := function_returns ran
    cases typeName_again here ahead again
    exact .function (typeName_reads ahead) inner
  · obtain ⟨decl, m, rfl, rfl, inner⟩ := global_reads ran
    obtain ⟨_, again⟩ := global_type ran
    cases typeName_again here ahead again
    exact .global (typeName_reads ahead) inner

theorem declaration_reads {decl : Declaration} (ran : declaration tokens s = .ok decl t) :
    ReadsDeclaration tokens decl s t := by
  simp only [declaration, kind_bind] at ran
  generalize tokens.next s = word at ran
  cases word with
  | structWord =>
    obtain ⟨decl, m, rfl, rfl, inner⟩ := struct_reads ran
    exact .struct inner
  | enumWord =>
    obtain ⟨decl, m, rfl, rfl, inner⟩ := enumeration_reads ran
    exact .enumeration inner
  | delegateWord =>
    simp only [delegate, bind_ok, enter_bind, pure_ok] at ran
    obtain ⟨decl, m, header, rfl, rfl⟩ := ran
    exact .delegate (delegateHead_reads header)
  | _ => exact typedDeclaration_reads ran

end TypedScript.Grammar
