import TypedScript.Proofs.Grammar.Agreement
import TypedScript.Proofs.Grammar.Writing

namespace TypedScript

def Function.signature (decl : Function) : Signature := ⟨decl.returns, decl.parameters.map Parameter.type⟩

namespace Declaration

def entered : Declaration → List Ty
  | .global decl => [decl.type]
  | .function decl => decl.signature.types
  | .enumeration _ => []
  | .delegate decl => decl.signature.types
  | .struct decl => decl.fields.map Variable.type

def written (decl : Declaration) : List Ty := decl.items.flatMap Item.written

theorem written_of_entered {decl : Declaration} {type : Ty} (member : type ∈ decl.entered) :
    type ∈ decl.written := by
  refine Item.mem_written.mpr (.inl ?_)
  cases decl with
  | global decl => exact member
  | enumeration decl => cases member
  | function decl =>
    rcases List.mem_cons.mp member with rfl | inner
    · exact List.mem_cons_self
    · obtain ⟨parameter, there, rfl⟩ := List.mem_map.mp inner
      refine List.mem_flatMap.mpr ⟨.parameter parameter, ?_, List.mem_cons_self⟩
      simp [items, there]
  | delegate decl => exact List.mem_flatMap.mpr ⟨.mention type, List.mem_map_of_mem member, List.mem_cons_self⟩
  | struct decl =>
    obtain ⟨field, there, rfl⟩ := List.mem_map.mp member
    exact List.mem_flatMap.mpr ⟨.declare field, List.mem_map_of_mem there, List.mem_cons_self⟩

structure Settled (leaf callable : String → Prop) (decl : Declaration) : Prop where
  entered : ∀ type ∈ decl.entered, type.Over leaf
  bracketed : ∀ type ∈ decl.written, type.isBracketed = true → type.Over leaf
  named : decl.owner.isType = true → leaf decl.name
  called : ∀ function, decl = .function function → callable function.signature.path

end Declaration

namespace Grammar

variable {tokens : Stream} {s t m n l : State} {leaf callable : String → Prop} {decl : Declaration}
  {catalog : Catalog}

theorem shape_names (decl : Declaration) (catalog : Catalog) : (shape decl catalog).names = catalog.names := by
  cases decl with
  | global decl => exact catalog.addType_names _
  | function decl => exact catalog.addFunction_names _ _
  | enumeration decl => exact catalog.addType_names _
  | delegate decl => exact catalog.addTypes_names _
  | struct decl => exact catalog.addTypes_names _

theorem shape_grounded (settled : decl.Settled leaf callable) (grounded : catalog.Grounded leaf callable) :
    (shape decl catalog).Grounded leaf callable := by
  have entered := settled.entered
  cases decl with
  | global decl => exact grounded.addGlobal (entered decl.type List.mem_cons_self)
  | function decl => exact grounded.addFunction (settled.called decl rfl) entered
  | enumeration decl => exact grounded.addEnum (settled.named rfl)
  | delegate decl => exact grounded.addDelegate (fun _ => settled.named rfl) entered
  | struct decl =>
    refine grounded.addStruct (settled.named rfl) fun field member => ?_
    obtain ⟨decl, there, rfl⟩ := List.mem_map.mp member
    exact entered decl.type (List.mem_map_of_mem there)

theorem Writes.grounded {written : List Ty} (writes : Writes written s t)
    (rests : ∀ type ∈ written, type.isBracketed = true → type.Over leaf)
    (grounded : s.catalog.Grounded leaf callable) : t.catalog.Grounded leaf callable := by
  obtain ⟨-, types, after, each⟩ := writes
  rw [after]
  refine grounded.addTypes fun entered member => ?_
  obtain ⟨type, found, bracketed, part⟩ := (each entered).mp (List.mem_flatMap.mpr ⟨entered, member, entered.mem_parts⟩)
  exact ((rests type found bracketed).parts entered part).mono fun name leaf _ => leaf

theorem Writes.names {written : List Ty} (writes : Writes written s t) : t.catalog.names = s.catalog.names := by
  obtain ⟨-, types, after, -⟩ := writes
  rw [after, Catalog.addTypes_names]

theorem Skips.untouched (skips : Skips tokens s t) : Untouched s t := by
  induction skips with
  | done => exact .refl _
  | @token s t _ _ ih => exact (Untouched.step tokens s).trans ih

theorem skipBody_untouched (ran : skipBody tokens s = .ok () t) : Untouched s t :=
  (Untouched.step tokens s).trans (skipBody_skips ran).2.untouched

-- What an outline leaves of a declaration in the catalog. The bodies of structs and enumerations are skipped.
def announced : Declaration → Catalog → Catalog
  | .struct _, catalog | .enumeration _, catalog => catalog
  | decl, catalog => shape decl catalog

-- An outline reads types that enter with the declaration anyway, claims the name and enters the rest.
def Announces (decl : Declaration) (s t : State) : Prop :=
  ∃ written m place claimed, Writes written s m ∧ (∀ type ∈ written, type ∈ decl.entered) ∧
    m.catalog.claim decl.name decl.owner place = .ok () claimed ∧ t.catalog = announced decl claimed

theorem Announces.after {written : List Ty} (announces : Announces decl m n) (writes : Writes written s t)
    (inside : ∀ type ∈ written, type ∈ decl.entered) (kept : m.catalog = t.catalog) : Announces decl s n := by
  obtain ⟨others, l, place, claimed, rest, also, claims, last⟩ := announces
  refine ⟨written ++ others, l, place, claimed, writes.append (rest.before kept), ?_, claims, last⟩
  intro type member
  rcases List.mem_append.mp member with here | there
  · exact inside type here
  · exact also type there

theorem typedName_type {type : Ty} {name : Token} (ran : typedName tokens s = .ok (type, name) t) :
    ∃ m, typeName .lowest tokens s = .ok type m := by
  simp only [typedName, bind_ok, pure_ok] at ran
  obtain ⟨_, m, declared, _, _, -, same, -⟩ := ran
  cases same
  exact ⟨m, declared⟩

section
variable (worded : tokens.Worded) (same : s.pos = m.pos) {entry : Owner × String}

include worded in
theorem ReadsDelegate.writes {header : Delegate} (reads : ReadsDelegate tokens header s t) :
    Writes header.signature.types s t := by
  have writes := reads.traces.writes worded fun item member => by
    obtain ⟨type, -, rfl⟩ := List.mem_map.mp member
    rfl
  simpa [Declaration.items, Item.types, List.flatMap_map, Signature.types] using writes

include worded in
theorem ReadsHead.writes {header : FunctionHead} (reads : ReadsHead tokens header s t) :
    Writes header.signature.types s t := by
  have writes := reads.traces.writes worded fun item member => by
    rcases List.mem_cons.mp member with rfl | inner
    · rfl
    · obtain ⟨parameter, -, rfl⟩ := List.mem_map.mp inner
      rfl
  rw [List.flatMap_cons, List.flatMap_map, show (fun parameter => (Item.parameter parameter).types) =
    fun parameter => [parameter.type] from rfl, ← List.map_eq_flatMap] at writes
  exact writes

include same

theorem named_announces {keyword : Kind} (outlined : outlineNamed keyword decl.owner tokens m = .ok entry n)
    (name : decl.name = (tokens.token (s.step tokens).pos).value)
    (skipped : ∀ catalog, announced decl catalog = catalog) : Announces decl m n := by
  simp only [outlineNamed, bind_ok, keywordName_ok, pure_ok] at outlined
  obtain ⟨_, _, ⟨-, -, rfl, rfl⟩, _, _, claim, _, _, body, -, rfl⟩ := outlined
  obtain ⟨claimed, claims, rfl⟩ := claim_ok claim
  rw [← State.step_pos_congr same, ← name] at claims
  refine ⟨[], (m.step tokens).step tokens, _, claimed, .none (by simp), nofun, claims, ?_⟩
  rw [(skipBody_untouched body).2, skipped]
  rfl

include worded

theorem delegate_announces (parsed : delegate tokens s = .ok decl t)
    (outlined : outlineDelegate tokens m = .ok entry n) : Announces decl m n := by
  simp only [delegate, bind_ok, enter_bind, pure_ok] at parsed
  obtain ⟨header, _, read, rfl, rfl⟩ := parsed
  obtain ⟨l, again, -⟩ := Oblivious.delegateHead.ok read same
  simp only [outlineDelegate, place_bind] at outlined
  rw [bind_of_ok again] at outlined
  simp only [bind_ok, enter_bind, pure_ok] at outlined
  obtain ⟨_, _, claim, -, rfl⟩ := outlined
  obtain ⟨claimed, claims, rfl⟩ := claim_ok claim
  exact ⟨_, l, _, claimed, (delegateHead_reads again).writes worded, fun _ member => member, claims, rfl⟩

theorem function_announces (parsed : function tokens s = .ok decl t)
    (outlined : outlineFunction tokens m = .ok entry n) : Announces decl m n := by
  simp only [function, place_bind, bind_ok, enter_bind, spanSince_bind, pure_ok] at parsed
  obtain ⟨header, _, read, ⟨body, span⟩, _, -, rfl, rfl⟩ := parsed
  obtain ⟨l, again, -⟩ := Oblivious.functionHead.ok read same
  unfold outlineFunction at outlined
  rw [bind_of_ok again] at outlined
  simp only [bind_ok, enter_bind, pure_ok] at outlined
  obtain ⟨_, _, claim, _, _, body, -, rfl⟩ := outlined
  obtain ⟨claimed, claims, rfl⟩ := claim_ok claim
  refine ⟨_, l, _, claimed, (functionHead_reads again).writes worded, fun _ member => member, claims, ?_⟩
  exact (skipBody_untouched body).2

theorem global_announces {type : Ty} {name : Token} (parsed : global tokens s = .ok decl t)
    (looked : typedName tokens m = .ok (type, name) l) (outlined : outlineGlobal type name tokens l = .ok entry n) :
    Announces decl m n := by
  simp only [global, bindingLine, binding, place_bind, bind_ok, expect_ok, enter_bind, spanSince_bind,
    pure_ok] at parsed
  obtain ⟨_, _, ⟨_, _, ⟨declared, k, typed, found, _, bound, value, _, -, rfl, rfl⟩, _, _, -, rfl, rfl⟩, rfl,
    rfl⟩ := parsed
  obtain ⟨-, rfl, rfl⟩ := boundName_ok bound
  simp only [typedName, bind_ok, expect_ok, pure_ok] at looked
  obtain ⟨_, j, again, _, _, ⟨-, rfl, rfl⟩, twice, rfl⟩ := looked
  cases twice
  obtain ⟨_, other, kept⟩ := (Oblivious.typeName .lowest).ok typed same
  rw [again] at other
  cases other
  simp only [outlineGlobal, bind_ok, enter_bind, expect_ok, pure_ok] at outlined
  obtain ⟨_, _, claim, _, _, rest, _, _, ⟨-, -, rfl⟩, -, rfl⟩ := outlined
  obtain ⟨claimed, claims, rfl⟩ := claim_ok claim
  rw [← kept] at claims
  have writes := ((typeName_reads again).writes worded).after (State.step_catalog tokens j)
  refine ⟨_, _, _, claimed, writes, fun _ member => member, claims, ?_⟩
  rw [State.step_catalog, (skipInitializer_skips rest).untouched.2, ← kept]
  rfl

-- The type of a function is read once ahead of the rest of its header.
theorem typedDeclaration_announces (parsed : typedDeclaration tokens s = .ok decl t)
    (outlined : outlineTyped tokens m = .ok entry n) : Announces decl m n := by
  simp only [typedDeclaration, index_bind, bind_ok, kind_bind, seek_bind] at parsed
  obtain ⟨⟨type, name⟩, k, looked, parsed⟩ := parsed
  obtain ⟨l, again, kept⟩ := Oblivious.typedName.ok looked same
  simp only [outlineTyped, index_bind] at outlined
  rw [bind_of_ok again, kind_bind, ← Stream.next_congr kept] at outlined
  split at parsed
  · rename_i opened
    rw [if_pos opened, seek_bind] at outlined
    have announces := function_announces (s := k.moved s.pos) (m := l.moved m.pos) worded same parsed outlined
    obtain ⟨decl, _, rfl, -, -⟩ := function_reads parsed
    obtain ⟨_, returns⟩ := function_returns parsed
    obtain ⟨_, ahead⟩ := typedName_type looked
    cases typeName_again (s := s) (m := k.moved s.pos) rfl ahead returns
    obtain ⟨j, declared, -, -, rfl⟩ := typedName_reads again
    have writes := (declared.writes worded).after (State.step_catalog tokens j)
    refine announces.after writes ?_ rfl
    intro type member
    cases List.mem_singleton.mp member
    exact List.mem_cons_self
  · rename_i other
    rw [if_neg other] at outlined
    exact global_announces (s := k.moved s.pos) worded same parsed again outlined

theorem declaration_announces (parsed : declaration tokens s = .ok decl t)
    (outlined : outlineDeclaration tokens m = .ok entry n) : Announces decl m n := by
  simp only [declaration, kind_bind] at parsed
  simp only [outlineDeclaration, kind_bind, ← Stream.next_congr same] at outlined
  generalize tokens.next s = word at parsed outlined
  cases word with
  | structWord =>
    obtain ⟨decl, _, rfl, rfl, ⟨_, _, _, _, _⟩⟩ := struct_reads parsed
    exact named_announces same outlined rfl fun _ => rfl
  | enumWord =>
    obtain ⟨decl, _, rfl, rfl, ⟨_, _, _, _, _⟩⟩ := enumeration_reads parsed
    exact named_announces same outlined rfl fun _ => rfl
  | delegateWord => exact delegate_announces worded same parsed outlined
  | _ => exact typedDeclaration_announces worded same parsed outlined

end

def Keeps (before after : Catalog) : Prop :=
  ∀ name owner, before.owner? name = some owner → after.owner? name = some owner

theorem announced_names (decl : Declaration) (catalog : Catalog) :
    (announced decl catalog).names = catalog.names := by
  cases decl with
  | struct _ | enumeration _ => rfl
  | global _ | function _ | delegate _ => exact shape_names _ _

theorem announced_grounded (settled : decl.Settled leaf callable) (grounded : catalog.Grounded leaf callable) :
    (announced decl catalog).Grounded leaf callable := by
  cases decl with
  | struct _ | enumeration _ => exact grounded
  | global _ | function _ | delegate _ => exact shape_grounded settled grounded

namespace Announces

theorem owners (announces : Announces decl s t) :
    Keeps s.catalog t.catalog ∧ t.catalog.owner? decl.name = some decl.owner := by
  obtain ⟨_, m, place, claimed, writes, -, claims, last⟩ := announces
  obtain ⟨free, rfl⟩ := Catalog.claim_ok claims
  have after (name : String) : t.catalog.owner? name =
      (s.catalog.owner? name).or (if name = decl.name then some decl.owner else none) := by
    unfold Catalog.owner?
    rw [last, announced_names, Catalog.addTypes_names, Table.get?_insertNew, writes.names]
  constructor
  · intro name owner found
    rw [after, found]
    rfl
  · unfold Catalog.owner? at free
    rw [writes.names] at free
    rw [after, Catalog.owner?, free, if_pos rfl]
    rfl

theorem grounded (announces : Announces decl s t) (settled : decl.Settled leaf callable)
    (grounded : s.catalog.Grounded leaf callable) : t.catalog.Grounded leaf callable := by
  obtain ⟨_, m, place, claimed, writes, inside, claims, last⟩ := announces
  rw [last]
  have read := writes.grounded (fun type member _ => settled.entered type (inside type member)) grounded
  exact announced_grounded settled (Catalog.claim_grounded read settled.named claims)

end Announces

inductive AnnouncesAll : List Declaration → Catalog → Catalog → Prop where
  | nil {catalog : Catalog} : AnnouncesAll [] catalog catalog
  | cons {s m : State} {after : Catalog} {decl : Declaration} {decls : List Declaration}
      (head : Announces decl s m) (rest : AnnouncesAll decls m.catalog after) :
      AnnouncesAll (decl :: decls) s.catalog after

theorem AnnouncesAll.append {left right : List Declaration} {before middle after : Catalog}
    (first : AnnouncesAll left before middle) (second : AnnouncesAll right middle after) :
    AnnouncesAll (left ++ right) before after := by
  induction first with
  | nil => exact second
  | cons head _ ih => exact .cons head (ih second)

theorem entries_announce (worded : tokens.Worded) {bound : Nat} {found : List Entry} {decls : List Declaration}
    (outlined : entries bound tokens s = .ok found t) (parsed : declarations found tokens m = .ok decls n) :
    AnnouncesAll decls s.catalog t.catalog := by
  induction bound generalizing s m found decls with
  | zero => exact (giveUp_ok.mp outlined).elim
  | succ bound ih =>
    simp only [entries, more_bind] at outlined
    split at outlined
    · simp only [index_bind, bind_ok, pure_ok] at outlined
      obtain ⟨⟨owner, name⟩, l, first, others, _, rest, rfl, rfl⟩ := outlined
      simp only [declarations, seek_bind, bind_ok, index_bind] at parsed
      obtain ⟨decl, k, head, parsed⟩ := parsed
      split at parsed
      · simp only [bind_ok, pure_ok] at parsed
        obtain ⟨_, _, last, rfl, rfl⟩ := parsed
        exact .cons (declaration_announces (s := m.moved s.pos) worded rfl head first) (ih rest last)
      · exact (unexpectedNear_ok.mp parsed).elim
    · obtain ⟨rfl, rfl⟩ := pure_ok.mp outlined
      obtain ⟨rfl, -⟩ := pure_ok.mp parsed
      exact .nil

namespace AnnouncesAll

variable {decls : List Declaration} {before after : Catalog}

theorem owners (announces : AnnouncesAll decls before after) :
    Keeps before after ∧ ∀ decl ∈ decls, after.owner? decl.name = some decl.owner := by
  induction announces with
  | nil => exact ⟨fun _ _ found => found, nofun⟩
  | cons head _ ih =>
    obtain ⟨keeps, owned⟩ := head.owners
    refine ⟨fun name owner found => ih.1 name owner (keeps name owner found), ?_⟩
    intro decl member
    rcases List.mem_cons.mp member with rfl | later
    · exact ih.1 _ _ owned
    · exact ih.2 decl later

theorem grounded (announces : AnnouncesAll decls before after)
    (settled : ∀ decl ∈ decls, decl.Settled leaf callable) (grounded : before.Grounded leaf callable) :
    after.Grounded leaf callable := by
  induction announces with
  | nil => exact grounded
  | cons head _ ih =>
    have here := head.grounded (settled _ (by simp)) grounded
    exact ih (fun decl later => settled decl (by simp [later])) here

end AnnouncesAll

theorem ReadsDeclarations.grounded (worded : tokens.Worded) {decls : List Declaration}
    (reads : ReadsDeclarations tokens decls s t) (settled : ∀ decl ∈ decls, decl.Settled leaf callable)
    (grounded : s.catalog.Grounded leaf callable) : t.catalog.Grounded leaf callable := by
  induction reads with
  | nil => exact grounded
  | @cons s _ _ pos decl _ head _ ih =>
    obtain ⟨m, writes, rfl⟩ := head.writes worded
    have here := settled decl (by simp)
    have read := writes.grounded here.bracketed grounded
    exact ih (fun decl later => settled decl (by simp [later])) (shape_grounded here read)

theorem ReadsDeclarations.names (worded : tokens.Worded) {decls : List Declaration}
    (reads : ReadsDeclarations tokens decls s t) :
    t.catalog.names = s.catalog.names ∧ ∀ decl ∈ decls, ∀ type ∈ decl.written, type.Over Plain := by
  induction reads with
  | nil => exact ⟨rfl, nofun⟩
  | @cons s _ _ pos decl _ head _ ih =>
    obtain ⟨m, writes, rfl⟩ := head.writes worded
    refine ⟨ih.1.trans ((shape_names decl m.catalog).trans writes.names), ?_⟩
    intro other member
    rcases List.mem_cons.mp member with rfl | later
    · exact writes.plain
    · exact ih.2 other later

end Grammar

end TypedScript
