import TypedScript.Proofs.Grammar.TwinTrees
import TypedScript.Proofs.Program.Phases
import TypedScript.Proofs.Typing.TwinPrograms

namespace TypedScript

open Grammar

structure Threaded.Mirrors {α β σ : Type} (same : α → β → Prop) (left : α × σ) (right : β × σ) : Prop where
  value : same left.1 right.1
  state : left.2 = right.2

structure Program.Mirrors (At : Position → Position → Prop) (left right : Program) : Prop where
  prelude : Option.Rel (File.Mirrors At Eq) left.prelude right.prelude
  files : List.Forall₂ (File.Mirrors At Eq) left.files right.files
  types : left.types = right.types
  catalog : left.catalog = right.catalog

variable {At : Position → Position → Prop}

theorem mapState_mirrors {α β σ : Type} {same : β → β → Prop} {pass : α → σ → Except Error (β × σ)}
    {inputs others : List α}
    (each : List.Forall₂ (fun input other => ∀ s, Answer.Mirrors At (Threaded.Mirrors same) (pass input s) (pass other s))
      inputs others) (s : σ) :
    Answer.Mirrors At (Threaded.Mirrors (List.Forall₂ same)) (mapState pass inputs s) (mapState pass others s) := by
  induction each generalizing s with
  | nil => exact .ok ⟨.nil, rfl⟩
  | cons firsts _ ih =>
    apply (firsts s).bind
    intro found other first
    obtain ⟨value, next⟩ := found
    obtain ⟨copy, _⟩ := other
    obtain ⟨values, rfl⟩ := first
    exact (ih next).bind fun _ _ rest => .ok ⟨.cons values rest.value, rest.state⟩

section
variable {left right : Stream} (mirrors : left.Mirrors At right)
include mirrors

theorem Grammar.Stream.Mirrors.start (id : Nat) (catalog : Catalog) :
    State.start left id catalog = State.start right id catalog := by
  unfold State.start
  rw [mirrors.first]

theorem outlineFile_mirrors (catalog : Catalog) :
    Answer.Mirrors At (Threaded.Mirrors Eq) (outlineFile left catalog) (outlineFile right catalog) := by
  have outcomes : (Pairing.laid mirrors).Outcomes Eq (outline left (.start right 0 catalog))
      (outline right (.start right 0 catalog)) := Twin.outline _ _ rfl
  unfold outlineFile
  rw [mirrors.start]
  generalize outline left (.start right 0 catalog) = first at outcomes
  generalize outline right (.start right 0 catalog) = second at outcomes
  cases outcomes with
  | ok values after => exact .ok ⟨values, congrArg State.catalog after⟩
  | error errors => exact .error errors

theorem parseFile_mirrors (entries : List Entry) (s : Nat × Catalog) :
    Answer.Mirrors At (Threaded.Mirrors (File.Mirrors At Eq)) (parseFile (left, entries) s)
      (parseFile (right, entries) s) := by
  have outcomes : (TreePairing.laid mirrors).Outcomes (File.Mirrors At Eq) (wholeFile entries left (.start right s.1 s.2))
      (wholeFile entries right (.start right s.1 s.2)) := Twin.wholeFile entries _ _ rfl
  unfold parseFile parseStream
  simp only [mirrors.start]
  generalize wholeFile entries left (.start right s.1 s.2) = first at outcomes
  generalize wholeFile entries right (.start right s.1 s.2) = second at outcomes
  cases outcomes with
  | ok values after => exact .ok ⟨values, congrArg (fun s : State => (s.nextId, s.catalog)) after⟩
  | error errors => exact .error errors

end

section
variable {streams copies : List Stream} (mirrors : List.Forall₂ (Stream.Mirrors At) streams copies)
include mirrors

theorem outlines_mirror (catalog : Catalog) :
    Answer.Mirrors At (Threaded.Mirrors Eq) (mapState outlineFile streams catalog)
      (mapState outlineFile copies catalog) := by
  have each := mapState_mirrors (mirrors.imp fun _ _ => outlineFile_mirrors) catalog
  rwa [List.forall₂_eq_eq_eq] at each

theorem files_mirror (outlines : List (List Entry)) (s : Nat × Catalog) :
    Answer.Mirrors At (Threaded.Mirrors (List.Forall₂ (File.Mirrors At Eq))) (mapState parseFile (streams.zip outlines) s)
      (mapState parseFile (copies.zip outlines) s) := by
  apply mapState_mirrors
  induction mirrors generalizing outlines with
  | nil => exact .nil
  | cons firsts _ ih =>
    cases outlines with
    | nil => exact .nil
    | cons entries outlines => exact .cons (parseFile_mirrors firsts entries) (ih outlines)

end

theorem checkFiles_mirrors (env : Typing.Vectors) {files copies : List File}
    (mirrors : List.Forall₂ (File.Mirrors At Eq) files copies) (s : Typing.State) :
    (Typing.Pairing.laid At env).Outcomes (fun value found => value = found ∧ True) (Typing.checkFiles files env s)
      (Typing.checkFiles copies env s) :=
  Typing.Twin.checkFiles mirrors (fun _ _ _ => trivial) (fun _ _ => trivial) s s rfl

theorem checkProgram_mirrors (vectors : Typing.Vectors) {files copies : List File}
    (mirrors : List.Forall₂ (File.Mirrors At Eq) files copies) (catalog : Catalog) :
    Answer.Mirrors At Eq (checkProgram vectors files catalog) (checkProgram vectors copies catalog) := by
  have outcomes := checkFiles_mirrors vectors mirrors (.start catalog)
  unfold checkProgram
  generalize Typing.checkFiles files vectors (.start catalog) = first at outcomes
  generalize Typing.checkFiles copies vectors (.start catalog) = second at outcomes
  cases outcomes with
  | ok _ after => exact .ok (congrArg (fun s : Typing.State => (s.types, s.catalog)) after)
  | error errors => exact .error errors

theorem Program.mirrors_ofFiles (options : Options) {files copies : List File}
    (mirrors : List.Forall₂ (File.Mirrors At Eq) files copies) (types : Typing.TypeMap) (catalog : Catalog) :
    (ofFiles options files types catalog).Mirrors At (ofFiles options copies types catalog) := by
  unfold ofFiles
  cases options.prelude with
  | false => exact ⟨.none, mirrors, rfl, rfl⟩
  | true =>
    cases mirrors with
    | nil => exact ⟨.none, .nil, rfl, rfl⟩
    | cons firsts others => exact ⟨.some firsts, others, rfl, rfl⟩

theorem compile_mirrors (options : Options) {given others : List Source} {streams copies : List Stream}
    (scanned : (options.sources given).mapM Source.scan = .ok streams)
    (also : (options.sources others).mapM Source.scan = .ok copies)
    (mirrors : List.Forall₂ (Stream.Mirrors At) streams copies) :
    Answer.Mirrors At (Program.Mirrors At) (compile options given) (compile options others) := by
  unfold compile
  rw [scanned, also]
  apply (outlines_mirror mirrors Catalog.initial).bind
  intro found copy outlined
  obtain ⟨outlines, named⟩ := found
  obtain ⟨_, _⟩ := copy
  obtain ⟨rfl, rfl⟩ := outlined
  apply (files_mirror mirrors outlines (0, named)).bind
  intro found copy parsed
  obtain ⟨files, next, entered⟩ := found
  obtain ⟨copies, _, _⟩ := copy
  obtain ⟨lists, same⟩ := parsed
  cases same
  apply (checkProgram_mirrors options.vectors lists entered).bind
  intro found copy checked
  subst checked
  exact .ok (Program.mirrors_ofFiles options lists _ _)

end TypedScript
