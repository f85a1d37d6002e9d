import TypedScript.Proofs.Program.Pieces
import TypedScript.Proofs.Typing.Discipline
import TypedScript.Proofs.Typing.TwinPrograms

namespace TypedScript

namespace Catalog.Lists

variable {decls : List Declaration} {catalog : Catalog}

theorem knows (lists : catalog.Lists (.of decls)) {decl : Declaration} {type : Ty} (member : decl ∈ decls)
    (found : type ∈ decl.known) : catalog.Knows type := by
  intro part inside
  exact Option.isSome_of_eq_some ((lists.types part.path part).mpr ⟨rfl, .inr ⟨decl, member, type, found, inside⟩⟩)

theorem complete (lists : catalog.Lists (.of decls)) : Typing.Complete catalog where
  builtin := by
    intro name member part inside
    cases List.mem_singleton.mp inside
    exact Option.isSome_of_eq_some ((lists.types _ _).mpr ⟨rfl, .inl (List.mem_map_of_mem member)⟩)
  structs := by
    intro name fields found field inside
    obtain ⟨decl, member, rfl, rfl⟩ := (lists.structs _ _).mp found
    obtain ⟨entry, there, rfl⟩ := List.mem_map.mp inside
    exact lists.knows member (Declaration.entered_known (List.mem_map_of_mem there))
  enums := by
    intro name members found
    obtain ⟨decl, member, rfl, -⟩ := (lists.enums _ _).mp found
    exact lists.knows member (Declaration.own_known List.mem_cons_self)
  delegates := by
    intro path signature found type inside
    rcases (lists.delegates _ _).mp found with ⟨decl, member, -, rfl⟩ | ⟨decl, member, -, rfl⟩
    · exact lists.knows member (Declaration.entered_known inside)
    · exact lists.knows member (Declaration.entered_known inside)
  globals := by
    intro name type found
    obtain ⟨decl, member, -, rfl⟩ := (lists.globals _ _).mp found
    exact lists.knows member (Declaration.entered_known List.mem_cons_self)
  functions := by
    intro name type found
    obtain ⟨decl, member, -, rfl⟩ := (lists.functions _ _).mp found
    exact lists.knows member (Declaration.own_known List.mem_cons_self)

theorem written (lists : catalog.Lists (.of decls)) {list : List Declaration} (sub : ∀ decl ∈ list, decl ∈ decls) :
    ∀ type ∈ (list.flatMap Declaration.items).flatMap Item.written, type.isBracketed = true → catalog.Knows type := by
  intro type member bracketed
  obtain ⟨item, found, inside⟩ := List.mem_flatMap.mp member
  obtain ⟨decl, there, listed⟩ := List.mem_flatMap.mp found
  exact lists.knows (sub decl there)
    (Declaration.bracketed_known (List.mem_flatMap.mpr ⟨item, listed, inside⟩) bracketed)

end Catalog.Lists

namespace Typing

theorem Complete.root {catalog : Catalog} (complete : Complete catalog) {name : String} {type : Ty}
    (found : (Scope.root catalog).get? name = some type) : catalog.Knows type := by
  rw [Scope.get?_root, Option.or_eq_some_iff, Option.or_eq_some_iff] at found
  rcases found with (enumerated | ⟨-, called⟩) | ⟨-, stored⟩
  · obtain ⟨members, entry, rfl⟩ := Option.map_eq_some_iff.mp enumerated
    exact complete.enums name members entry
  · exact complete.functions name type called
  · exact complete.globals name type stored

-- A state in which the next file is checked: outside all functions and with nothing recorded from an identity on.
structure Ready (entered : Catalog) (start : Nat) (s : State) : Prop where
  catalog : s.catalog = entered
  scopes : s.scopes = ⟨.root entered, []⟩
  function : s.function = none
  fresh : ∀ id, start ≤ id → s.types.get? id = none

theorem Ready.start (entered : Catalog) : Ready entered 0 (.start entered) := ⟨rfl, rfl, rfl, fun _ _ => rfl⟩

theorem Ready.beside {catalog entered : Catalog} {start : Nat} {t : State} (ready : Ready entered start t)
    (agrees : catalog.Agrees entered) (complete : Complete catalog) :
    Pairing.Beside catalog entered start (.start catalog) t := by
  have same : (Scope.root catalog).get? = (Scope.root entered).get? := by
    funext name
    rw [Scope.get?_root, Scope.get?_root, agrees.enums, agrees.functions, agrees.globals]
  refine ⟨rfl, ready.catalog, ?_, ready.function.symm, ?_⟩
  · rw [ready.scopes]
    exact .cons ⟨same, complete.root⟩ .nil
  · intro id
    exact (ready.fresh _ (Nat.le_add_left _ _)).symm

end Typing

def File.typed (file : File) (types : Typing.TypeMap) : List (Expr × Option Ty) :=
  (file.items.flatMap Item.exprs).map fun expr => (expr.relabel Node.unnumbered, types.get? expr.id)

theorem File.typed_later (file : File) (shift : Nat) {types later : Typing.TypeMap}
    (same : ∀ expr ∈ file.items.flatMap Item.exprs, later.get? (expr.id + shift) = types.get? expr.id) :
    (file.later shift).typed later = file.typed types := by
  have exprs : (file.later shift).items.flatMap Item.exprs =
      (file.items.flatMap Item.exprs).map (Expr.later shift) := by
    rw [File.items_relabel, List.flatMap_map, List.map_flatMap]
    simp only [Item.exprs_relabel]
  unfold typed
  rw [exprs, List.map_map]
  apply List.map_congr_left
  intro expr member
  have text : (expr.later shift).relabel Node.unnumbered = expr.relabel Node.unnumbered := by
    rw [Expr.relabel_relabel]
    rfl
  have number : (expr.later shift).id = expr.id + shift := by
    unfold Expr.id
    rw [Expr.node_relabel]
    rfl
  show (_, _) = (_, _)
  rw [text, number, same expr member]

namespace Piece

open Typing

variable {named : Catalog} {source : Source} {piece : Piece}

theorem Of.bare (of : piece.Of named source) (shift : Nat) : (piece.file.later shift).Bare := by
  obtain ⟨_, parsed⟩ := of.parsed
  rcases parseFile_later piece.tokens piece.entries shift rfl with ⟨_, _, _, _, base, run⟩ | ⟨_, failed, -⟩
  · cases parsed.symm.trans base
    obtain ⟨_, reads, -, -⟩ := parseFile_reads run
    exact reads.bare
  · cases parsed.symm.trans failed

theorem Of.below (of : piece.Of named source) :
    ∀ expr ∈ piece.file.items.flatMap Item.exprs, expr.id < piece.count := by
  obtain ⟨_, parsed⟩ := of.parsed
  rw [← Item.allOf_roots]
  intro expr member
  exact ((parseFile_numbered parsed).2.range expr member).2

variable {catalog entered : Catalog} {env : Vectors} {decls : List Declaration} {start : Nat} {s t : State}

def Checked (env : Vectors) (catalog : Catalog) (piece : Piece) (t : State) : Prop :=
  checkDeclarations piece.file.declarations env (.start catalog) = .ok () t

theorem Of.records (of : piece.Of named source) (checked : piece.Checked env catalog t) (id : Nat) :
    (t.types.get? id).isSome ↔ ∃ expr ∈ piece.file.items.flatMap Item.exprs, expr.id = id := by
  have bare : piece.file.Bare := by
    obtain ⟨_, parsed⟩ := of.parsed
    obtain ⟨_, reads, -, -⟩ := parseFile_reads parsed
    exact reads.bare
  have recorded := (checkDeclarations_passes bare checked).records id
  have none : ((State.start catalog).types.get? id).isSome = false := rfl
  rw [none] at recorded
  simpa only [File.items, Bool.false_eq_true, false_or] using recorded

theorem Of.fresh (of : piece.Of named source) (checked : piece.Checked env catalog t) {id : Nat}
    (above : piece.count ≤ id) : t.types.get? id = none := by
  cases found : t.types.get? id with
  | none => rfl
  | some type =>
    obtain ⟨expr, member, rfl⟩ := (of.records checked id).mp (Option.isSome_of_eq_some found)
    exact absurd (of.below expr member) (Nat.not_lt_of_le above)

-- A piece is checked after others as it is alone, by a catalog that is equal as a map.
theorem checks_later (of : piece.Of named source) (lists : catalog.Lists (.of decls))
    (sub : ∀ decl ∈ piece.file.declarations, decl ∈ decls) (agrees : catalog.Agrees entered)
    (ready : Ready entered start t) :
    (∃ m n, piece.Checked env catalog m ∧
      checkDeclarations (piece.file.later start).declarations env t = .ok () n ∧ Ready entered (start + piece.count) n ∧
      ∀ id, n.types.get? (id + start) = m.types.get? id) ∨
    ∃ error m n, checkDeclarations piece.file.declarations env (.start catalog) = .error error m ∧
      checkDeclarations (piece.file.later start).declarations env t = .error error n := by
  have mirrors : List.Forall₂ (Declaration.Mirrors Eq (LaterBy start)) piece.file.declarations
      (piece.file.later start).declarations := forall₂_map_self Declaration.mirrors_later _
  have twin : Twin (.complete agrees lists.complete start env) (fun _ => True)
      (checkDeclarations piece.file.declarations) (checkDeclarations (piece.file.later start).declarations) :=
    .checkDeclarations mirrors (lists.written sub) fun found member =>
      lists.knows (sub _ member) (Declaration.own_known List.mem_cons_self)
  have outcomes : (Pairing.complete agrees lists.complete start env).Outcomes (fun value found => value = found ∧ True)
      (checkDeclarations piece.file.declarations env (.start catalog))
      (checkDeclarations (piece.file.later start).declarations env t) :=
    twin _ _ (ready.beside agrees lists.complete)
  unfold Checked
  generalize ran : checkDeclarations piece.file.declarations env (.start catalog) = outcome at outcomes
  generalize also : checkDeclarations (piece.file.later start).declarations env t = result at outcomes
  cases outcomes with
  | error errors =>
    cases errors.eq
    exact .inr ⟨_, _, _, rfl, rfl⟩
  | @ok _ _ m n _ after =>
    have kept := (checkDeclarations_leaves _).passed also
    refine .inl ⟨m, n, rfl, rfl, ⟨after.right, ?_, kept.idle ready.function, ?_⟩, fun id => (after.types id).symm⟩
    · rw [← ready.scopes]
      exact kept.scopes
    · intro id above
      -- Identities of the second run are those of the first, shifted. Beyond the count of the piece the first has
      -- none.
      obtain ⟨own, rfl⟩ : ∃ own, id = own + start := ⟨id - start, by omega⟩
      rw [← after.types own]
      exact of.fresh ran (by omega)

theorem lay_bare {pieces : List Piece} (of : ∀ piece ∈ pieces, ∃ source, piece.Of named source) :
    ∀ file ∈ lay start pieces, file.Bare := by
  induction pieces generalizing start with
  | nil => nofun
  | cons first others ih =>
    obtain ⟨⟨_, here⟩, later⟩ := List.forall_mem_cons.mp of
    exact List.forall_mem_cons.mpr ⟨here.bare start, ih later⟩

structure Stands (env : Vectors) (catalog : Catalog) (types : TypeMap) (piece : Piece) (file : File) : Prop where
  text : ∃ shift, file = piece.file.later shift
  typed : ∃ t, piece.Checked env catalog t ∧ file.typed types = piece.file.typed t.types ∧
    ∀ entry ∈ file.typed types, entry.2.isSome

section
variable {pieces : List Piece} (of : ∀ piece ∈ pieces, ∃ source, piece.Of named source)
  (lists : catalog.Lists (.of decls)) (sub : ∀ piece ∈ pieces, ∀ decl ∈ piece.file.declarations, decl ∈ decls)
  (agrees : catalog.Agrees entered) (ready : Ready entered start s)
include of lists sub agrees ready

theorem lay_stands (ran : checkFiles (lay start pieces) env s = .ok () t) :
    t.catalog = entered ∧ List.Forall₂ (Stands env catalog t.types) pieces (lay start pieces) := by
  induction pieces generalizing start s with
  | nil =>
    obtain ⟨-, rfl⟩ := pure_ok.mp ran
    exact ⟨ready.catalog, .nil⟩
  | cons first others ih =>
    obtain ⟨⟨_, here⟩, later⟩ := List.forall_mem_cons.mp of
    obtain ⟨own, rest⟩ := List.forall_mem_cons.mp sub
    simp only [lay, checkFiles, bind_ok] at ran
    obtain ⟨_, n, head, last⟩ := ran
    rcases checks_later here lists own agrees ready with ⟨m, k, alone, run, next, types⟩ | ⟨_, _, _, -, failed⟩
    · cases head.symm.trans run
      obtain ⟨kept, stands⟩ := ih later rest next last
      have grows := (checkFiles_passes (lay_bare later) last).grows
      have known : ∀ expr ∈ first.file.items.flatMap Item.exprs, (m.types.get? expr.id).isSome :=
        fun expr member => (here.records alone _).mpr ⟨expr, member, rfl⟩
      have same : (first.file.later start).typed t.types = first.file.typed m.types := by
        apply File.typed_later
        intro expr member
        obtain ⟨type, found⟩ := Option.isSome_iff_exists.mp (known expr member)
        rw [found]
        exact grows.kept _ _ ((types expr.id).trans found)
      refine ⟨kept, .cons ⟨⟨start, rfl⟩, m, alone, same, ?_⟩ stands⟩
      rw [same]
      exact List.forall_mem_map.mpr known
    · cases head.symm.trans failed

theorem lay_checked (each : ∀ piece ∈ pieces, ∃ t, piece.Checked env catalog t) :
    ∃ t, checkFiles (lay start pieces) env s = .ok () t := by
  induction pieces generalizing start s with
  | nil => exact ⟨s, rfl⟩
  | cons first others ih =>
    obtain ⟨⟨_, here⟩, later⟩ := List.forall_mem_cons.mp of
    obtain ⟨own, rest⟩ := List.forall_mem_cons.mp sub
    obtain ⟨⟨_, passed⟩, remaining⟩ := List.forall_mem_cons.mp each
    rcases checks_later here lists own agrees ready with ⟨_, _, _, run, next, -⟩ | ⟨_, _, _, failed, -⟩
    · obtain ⟨t, last⟩ := ih later rest next remaining
      exact ⟨t, (bind_of_ok run).trans last⟩
    · cases passed.symm.trans failed

end

end Piece

end TypedScript
