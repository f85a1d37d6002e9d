import TypedScript.Proofs.Program.Mirrors
import TypedScript.Proofs.Program.Provenance
import TypedScript.Proofs.Tree.Yield

namespace TypedScript

open Grammar

def Source.lexemes (source : Source) : Option (List Lexeme) :=
  source.scan.toOption.map fun tokens => tokens.toList.map Token.lexeme

-- Two texts of one file that read the same, laid out in two ways.
structure Source.Restates (left right : Source) : Prop where
  path : left.path = right.path
  scans : left.lexemes.isSome
  lexemes : left.lexemes = right.lexemes

def anywhere : Position → Position → Prop := fun _ _ => True

namespace Source

variable {source left right : Source} {tokens copies : Stream}

theorem lexemes_of_scan (scanned : source.scan = .ok tokens) :
    source.lexemes = some (tokens.toList.map Token.lexeme) := by
  unfold lexemes
  rw [scanned]
  rfl

theorem scan_of_lexemes (scans : source.lexemes.isSome) : ∃ tokens, source.scan = .ok tokens := by
  cases scanned : source.scan with
  | ok tokens => exact ⟨tokens, rfl⟩
  | error error =>
    unfold lexemes at scans
    rw [scanned] at scans
    cases scans

theorem Restates.refl (scanned : source.scan = .ok tokens) : source.Restates source := by
  refine ⟨rfl, ?_, rfl⟩
  rw [lexemes_of_scan scanned]
  rfl

theorem Restates.mirrors (restates : left.Restates right) (scanned : left.scan = .ok tokens)
    (also : right.scan = .ok copies) : tokens.Mirrors anywhere copies := by
  have lexemes := restates.lexemes
  rw [lexemes_of_scan scanned, lexemes_of_scan also, Option.some.injEq, ← List.forall₂_eq_eq_eq,
    List.forall₂_map_left_iff, List.forall₂_map_right_iff] at lexemes
  refine ⟨lexemes.imp ?_, scan_some scanned, ?_⟩
  · intro token other same
    exact ⟨congrArg Prod.fst same, congrArg Prod.snd same, trivial, trivial⟩
  · rw [scan_file scanned, scan_file also, restates.path]

theorem Restates.scans_mirror {given others : List Source} (restate : List.Forall₂ Restates given others) :
    ∃ streams copies, given.mapM scan = .ok streams ∧ others.mapM scan = .ok copies ∧
      List.Forall₂ (Stream.Mirrors anywhere) streams copies := by
  simp only [mapM_ok_iff]
  induction restate with
  | nil => exact ⟨[], [], .nil, .nil, .nil⟩
  | cons firsts _ ih =>
    obtain ⟨streams, copies, scanned, also, mirrors⟩ := ih
    obtain ⟨tokens, head⟩ := scan_of_lexemes firsts.scans
    obtain ⟨copy, other⟩ := scan_of_lexemes (firsts.lexemes ▸ firsts.scans)
    exact ⟨tokens :: streams, copy :: copies, .cons head scanned, .cons other also,
      .cons (firsts.mirrors head other) mirrors⟩

end Source

-- The text of a program is read through its tokens alone. Two layouts of the same tokens are both accepted, as
-- programs that differ in spans alone, or are both rejected for the same cause.
theorem compile_layout_free (options : Options) {given others : List Source}
    (restate : List.Forall₂ Source.Restates given others) :
    Answer.Mirrors anywhere (Program.Mirrors anywhere) (compile options given) (compile options others) := by
  obtain ⟨streams, copies, scanned, also, mirrors⟩ := Source.Restates.scans_mirror restate
  cases wanted : options.prelude with
  | false =>
    have sources : ∀ list, options.sources list = list := by
      intro list
      unfold Options.sources
      rw [wanted]
      rfl
    exact compile_mirrors options ((sources given).symm ▸ scanned) ((sources others).symm ▸ also) mirrors
  | true =>
    have sources : ∀ list, options.sources list = ⟨Prelude.path, Prelude.text⟩ :: list := by
      intro list
      unfold Options.sources
      rw [wanted]
      rfl
    cases first : Source.scan ⟨Prelude.path, Prelude.text⟩ with
    | error error =>
      unfold compile
      rw [sources, sources, List.mapM_cons, List.mapM_cons, first]
      exact .error ⟨rfl, trivial⟩
    | ok tokens =>
      have whole : List.Forall₂ (Stream.Mirrors anywhere) (tokens :: streams) (tokens :: copies) :=
        .cons ((Source.Restates.refl first).mirrors first first) mirrors
      apply compile_mirrors options _ _ whole
      · rw [sources, mapM_ok_iff]
        exact .cons first (mapM_ok_iff.mp scanned)
      · rw [sources, mapM_ok_iff]
        exact .cons first (mapM_ok_iff.mp also)

def halvesTight : Source := ⟨"lib.lang", "num half(num x)\x7breturn x/2;\x7dnum four=half(8);"⟩

def halvesAiry : Source :=
  ⟨"lib.lang", "// Halves a number.\nnum half ( num x )\n\x7b\n\treturn x / 2 ; /* no remainder */\n\x7d\n\nnum four =\n\thalf( 8 );\n"⟩

theorem compile_layout_free_halves :
    List.Forall₂ Source.Restates [halvesTight] [halvesAiry] ∧ halvesTight.text ≠ halvesAiry.text ∧
      Answer.Mirrors anywhere (Program.Mirrors anywhere) (compile .standard [halvesTight])
        (compile .standard [halvesAiry]) ∧
      ∃ program other, compile ⟨false, []⟩ [halvesTight] = .ok program ∧
        compile ⟨false, []⟩ [halvesAiry] = .ok other ∧ program.Mirrors anywhere other := by
  have scans : halvesTight.lexemes.isSome := by decide +kernel
  have lexemes : halvesTight.lexemes = halvesAiry.lexemes := by decide +kernel
  have restate : List.Forall₂ Source.Restates [halvesTight] [halvesAiry] := .cons ⟨rfl, scans, lexemes⟩ .nil
  have accepted : yields (fun _ => true) (compile ⟨false, []⟩ [halvesTight]) = true := by decide +kernel
  obtain ⟨program, compiled, -⟩ := yields_ok accepted
  refine ⟨restate, by decide, compile_layout_free .standard restate, program, ?_⟩
  have alike := compile_layout_free ⟨false, []⟩ restate
  generalize reached : compile ⟨false, []⟩ [halvesAiry] = answer at alike
  rw [compiled] at alike
  cases alike with
  | ok mirrors => exact ⟨_, compiled, rfl, mirrors⟩

end TypedScript
