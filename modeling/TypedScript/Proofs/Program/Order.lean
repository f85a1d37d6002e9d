import TypedScript.Proofs.Program.Separate

namespace TypedScript

open Grammar

theorem forall₂_getElem? {α β : Type} {related : α → β → Prop} {left : List α} {right : List β}
    (all : List.Forall₂ related left right) {i : Nat} {value : α} (found : left[i]? = some value) :
    ∃ twin, right[i]? = some twin ∧ related value twin := by
  obtain ⟨inside, rfl⟩ := List.getElem?_eq_some_iff.mp found
  have also : i < right.length := all.length_eq ▸ inside
  exact ⟨right[i], List.getElem?_eq_getElem also, all.get inside also⟩

namespace Piece

theorem of_sources {named : Catalog} {sources : List Source} {pieces : List Piece}
    (of : List.Forall₂ (Piece.Of named) sources pieces) : ∀ piece ∈ pieces, ∃ source, piece.Of named source := by
  induction of with
  | nil => nofun
  | cons head _ ih => exact List.forall_mem_cons.mpr ⟨⟨_, head⟩, ih⟩

def declarationsOf (pieces : List Piece) : List Declaration := pieces.flatMap fun piece => piece.file.declarations

theorem mem_declarationsOf {pieces : List Piece} :
    ∀ piece ∈ pieces, ∀ decl ∈ piece.file.declarations, decl ∈ declarationsOf pieces :=
  fun piece member _ inside => List.mem_flatMap.mpr ⟨piece, member, inside⟩

theorem contents_lay (start : Nat) (pieces : List Piece) :
    Contents.of ((lay start pieces).flatMap File.declarations) = Contents.of (declarationsOf pieces) := by
  have same : ((lay start pieces).flatMap File.declarations).map (Declaration.relabel Node.unnumbered) =
      (declarationsOf pieces).map (Declaration.relabel Node.unnumbered) := by
    induction pieces generalizing start with
    | nil => rfl
    | cons first others ih =>
      have here : (first.file.later start).declarations.map (Declaration.relabel Node.unnumbered) =
          first.file.declarations.map (Declaration.relabel Node.unnumbered) := by
        show (first.file.declarations.map _).map _ = _
        rw [List.map_map]
        apply List.map_congr_left
        intro decl _
        exact decl.relabel_relabel _ _
      simp only [lay, declarationsOf, List.flatMap_cons, List.map_append] at ih ⊢
      rw [here, ih]
  rw [← Contents.of_relabel Node.unnumbered, same, Contents.of_relabel]

-- The pieces of a program that is accepted. But for which source each is of, none of this depends on their order.
structure Compose (options : Options) (given : List Source) (named catalog : Catalog) (pieces : List Piece) : Prop where
  of : List.Forall₂ (Piece.Of named) (options.sources given) pieces
  owners : ∀ name owner, named.owner? name = some owner ↔
    ∃ entry ∈ entriesOf pieces, entry.name = name ∧ entry.owner = owner
  distinct : ((entriesOf pieces).map Entry.name).Nodup
  lists : catalog.Lists (.of (declarationsOf pieces))
  checked : ∀ piece ∈ pieces, ∃ t, piece.Checked options.vectors catalog t

namespace Compose

variable {options : Options} {given other : List Source} {named catalog : Catalog} {pieces : List Piece}

theorem perm (compose : Compose options given named catalog pieces) (perm : given.Perm other) :
    ∃ others, Compose options other named catalog others := by
  have sources : (options.sources other).Perm (options.sources given) := by
    unfold Options.sources
    split
    · exact perm.symm.cons _
    · exact perm.symm
  obtain ⟨others, of, same⟩ := List.perm_comp_forall₂ sources compose.of
  have entries : (entriesOf others).Perm (entriesOf pieces) := same.flatMap_right _
  have decls : (declarationsOf others).Perm (declarationsOf pieces) := same.flatMap_right _
  refine ⟨others, of, ?_, ?_, ?_, ?_⟩
  · simp only [entries.mem_iff]
    exact compose.owners
  · exact (entries.map Entry.name).nodup_iff.mpr compose.distinct
  · rw [Contents.of_congr fun decl => decls.mem_iff]
    exact compose.lists
  · intro piece member
    exact compose.checked piece (same.mem_iff.mp member)

theorem namesType (compose : Compose options given named catalog pieces) {claimed : Catalog}
    (claims : Claimed (entriesOf pieces) .initial claimed) : named.namesType = claimed.namesType := by
  have same : named.owner? = claimed.owner? := by
    funext name
    apply Option.ext
    intro owner
    rw [compose.owners, claims.owners]
    exact (or_iff_right nofun).symm
  funext name
  unfold Catalog.namesType
  rw [same]

theorem compiles (compose : Compose options given named catalog pieces) :
    ∃ program, compile options given = .ok program ∧ catalog.Agrees program.catalog ∧
      List.Forall₂ (Stands options.vectors catalog program.types) pieces program.all := by
  have each := of_sources compose.of
  have streams : (options.sources given).mapM Source.scan = .ok (pieces.map Piece.tokens) := by
    apply mapM_ok_iff.mpr
    apply List.forall₂_map_right_iff.mpr
    exact compose.of.imp fun _ _ of => of.scanned
  obtain ⟨claimed, outlined, claims⟩ := outlines .initial each compose.distinct fun _ _ => rfl
  obtain ⟨⟨next, entered⟩, parsed⟩ := parses (s := (0, claimed)) each (compose.namesType claims)
  have agrees : catalog.Agrees entered := by
    have lists := (files_listed (Source.scans_worded streams) outlined parsed).2
    rw [contents_lay] at lists
    exact compose.lists.agrees lists
  obtain ⟨t, checked⟩ := lay_checked each compose.lists mem_declarationsOf agrees (.start entered) compose.checked
  obtain ⟨kept, stands⟩ := lay_stands each compose.lists mem_declarationsOf agrees (.start entered) checked
  refine ⟨.ofFiles options (lay 0 pieces) t.types t.catalog, ?_, ?_, ?_⟩
  · simp only [compile, except_bind_ok]
    refine ⟨_, streams, _, threads_mapState outlined, _, threads_mapState parsed, (t.types, t.catalog), ?_, rfl⟩
    unfold checkProgram
    rw [checked]
  · rw [Program.catalog_ofFiles, kept]
    exact agrees
  · rw [Program.all_ofFiles, Program.types_ofFiles]
    exact stands

end Compose

theorem compose_of_compiles {options : Options} {given : List Source} {program : Program}
    (accepted : compile options given = .ok program) :
    ∃ named catalog pieces, Compose options given named catalog pieces := by
  obtain ⟨streams, outlines, named, files, next, entered, types, catalog, scanned, outlined, parsed, checked,
    rfl⟩ := compile_phases accepted
  obtain ⟨pieces, of, rfl, rfl, rfl, claims⟩ := of_threads (mapM_ok_iff.mp scanned) outlined parsed rfl
  have lists := (files_listed (Source.scans_worded scanned) outlined parsed).2
  rw [contents_lay] at lists
  refine ⟨named, entered, pieces, of, ?_, claims.distinct, lists, ?_⟩
  · intro name owner
    rw [claims.owners]
    exact or_iff_right nofun
  · intro piece member
    obtain ⟨t, ran, -, -⟩ := checkProgram_ok checked
    obtain ⟨-, stands⟩ := lay_stands (of_sources of) lists mem_declarationsOf (.refl entered) (.start entered) ran
    obtain ⟨i, found⟩ := List.mem_iff_getElem?.mp member
    obtain ⟨file, -, -, typed⟩ := forall₂_getElem? stands found
    exact typed.imp fun _ alone => alone.1

end Piece

-- The order of the sources does not matter. In any order they are accepted or none is, the catalogs are equal as
-- maps, and the file of a source has the same declarations but for identities, with the same types.
theorem source_order_irrelevant {options : Options} {given other : List Source} (perm : given.Perm other) :
    ((∃ program, compile options given = .ok program) ↔ ∃ program, compile options other = .ok program) ∧
    ∀ first second, compile options given = .ok first → compile options other = .ok second →
      first.catalog.Agrees second.catalog ∧
      ∀ (i j : Nat) (source : Source), (options.sources given)[i]? = some source →
        (options.sources other)[j]? = some source →
        ∃ left right, first.all[i]? = some left ∧ second.all[j]? = some right ∧ left.SameText right ∧
          left.typed first.types = right.typed second.types ∧
          ∀ entry ∈ left.typed first.types, entry.2.isSome := by
  have accepts : ∀ {left right : List Source}, left.Perm right → (∃ program, compile options left = .ok program) →
      ∃ program, compile options right = .ok program := by
    rintro left right same ⟨program, accepted⟩
    obtain ⟨_, _, _, compose⟩ := Piece.compose_of_compiles accepted
    obtain ⟨_, others⟩ := compose.perm same
    obtain ⟨found, compiled, -⟩ := others.compiles
    exact ⟨found, compiled⟩
  refine ⟨⟨accepts perm, accepts perm.symm⟩, ?_⟩
  intro first second accepted also
  obtain ⟨named, catalog, pieces, compose⟩ := Piece.compose_of_compiles accepted
  obtain ⟨others, again⟩ := compose.perm perm
  obtain ⟨_, compiled, agrees, stands⟩ := compose.compiles
  cases accepted.symm.trans compiled
  obtain ⟨_, compiled, matching, placed⟩ := again.compiles
  cases also.symm.trans compiled
  refine ⟨agrees.symm.trans matching, ?_⟩
  intro i j source here there
  obtain ⟨piece, found, of⟩ := forall₂_getElem? compose.of here
  obtain ⟨twin, paired, same⟩ := forall₂_getElem? again.of there
  cases of.unique same
  obtain ⟨left, listed, ⟨shift, rfl⟩, _, alone, typed, known⟩ := forall₂_getElem? stands found
  obtain ⟨right, placed, ⟨other, rfl⟩, _, single, equal, -⟩ := forall₂_getElem? placed paired
  cases alone.symm.trans single
  exact ⟨_, _, listed, placed, piece.file.sameText_later shift other, typed.trans equal.symm, known⟩

def boxFiles : List Source :=
  [⟨"main.sc", "Box unit; num area(Box b) \x7b return b.side * b.side * scale; \x7d"⟩,
    ⟨"box.sc", "struct Box \x7b num side = 2; \x7d num scale = 3; num twice(Box b) \x7b return 2 * area(b); \x7d"⟩]

theorem source_order_irrelevant_boxFiles :
    ∃ first second, boxFiles.Perm boxFiles.reverse ∧ compile ⟨false, []⟩ boxFiles = .ok first ∧
      first.types.size = 14 ∧ compile ⟨false, []⟩ boxFiles.reverse = .ok second ∧ first.catalog.Agrees second.catalog ∧
      ∃ left right, first.all[0]? = some left ∧ second.all[1]? = some right ∧ left.SameText right ∧
        left.typed first.types = right.typed second.types := by
  have perm : boxFiles.Perm boxFiles.reverse := (List.reverse_perm boxFiles).symm
  have tested : yields (fun program => decide (program.types.size = 14)) (compile ⟨false, []⟩ boxFiles) = true := by
    decide +kernel
  obtain ⟨accepts, same⟩ := @source_order_irrelevant ⟨false, []⟩ _ _ perm
  obtain ⟨first, accepted, holds⟩ := yields_ok tested
  obtain ⟨second, also⟩ := accepts.mp ⟨first, accepted⟩
  obtain ⟨agrees, files⟩ := same first second accepted also
  obtain ⟨left, right, here, there, text, typed, -⟩ := files 0 1 _ rfl rfl
  exact ⟨first, second, perm, accepted, of_decide_eq_true holds, also, agrees, left, right, here, there, text, typed⟩

end TypedScript
