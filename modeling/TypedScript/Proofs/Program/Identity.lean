import TypedScript.Proofs.Program.Phases

namespace TypedScript

-- Every expression of a program has an identity of its own, above those of all expressions inside it, and
-- the types of a program are recorded for its expressions and nothing else. Each file takes the identities
-- from the next one on, and the counter stays where it is if the file is rejected.
theorem identities_exact {options : Options} {given : List Source} {program : Program}
    (accepted : compile options given = .ok program) :
    (program.exprs.map Expr.id).Nodup ∧
    (∀ expr ∈ program.exprs, ∀ inner ∈ expr.inside, inner.id < expr.id) ∧
    (∀ id, (program.types.get? id).isSome ↔ ∃ expr ∈ program.exprs, expr.id = id) ∧
    ∀ (tokens : Grammar.Stream) (entries : List Grammar.Entry) (next : Nat) (catalog : Catalog),
      (∀ file later after, parseStream tokens entries (next, catalog) = .ok file (later, after) → next ≤ later ∧
        ∀ expr ∈ file.items.flatMap Item.exprs, next ≤ expr.id ∧ expr.id < later) ∧
      ∀ error later left, parseStream tokens entries (next, catalog) = .error error (later, left) → later = next := by
  obtain ⟨_, numbered⟩ := compile_numbered accepted
  obtain ⟨entered, t, passes, recorded, -⟩ := compile_passes accepted
  have whole : Expr.allOf (program.items.flatMap Item.roots) = program.exprs := Item.allOf_roots program.items
  obtain ⟨-, distinct, above⟩ := numbered
  rw [whole] at distinct above
  refine ⟨distinct, above, ?_, ?_⟩
  · intro id
    have known := passes.records id
    -- Nothing is recorded before the check.
    have none : ((Typing.State.start entered).types.get? id).isSome = false := rfl
    rw [recorded, none] at known
    simpa only [Bool.false_eq_true, false_or, Program.exprs] using known
  · intro tokens entries next catalog
    constructor
    · intro file later after parsed
      have whole : parseFile (tokens, entries) (next, catalog) = .ok (file, later, after) := by
        unfold parseFile
        rw [parsed]
      obtain ⟨ordered, numbered⟩ := parseFile_numbered whole
      rw [← Item.allOf_roots]
      exact ⟨ordered, numbered.range⟩
    · intro error later left failed
      unfold parseStream at failed
      cases ran : Grammar.wholeFile entries tokens (.start tokens next catalog) with
      | ok file after =>
        simp only [ran] at failed
        cases failed
      | error fault after =>
        simp only [ran] at failed
        cases failed
        rfl

-- The left side of an assignment is numbered too, so that its identity is missing among the five that are left. A file
-- that fails after some expressions takes none of their identities.
theorem identities_exact_assignment :
    (∃ program, compile ⟨false, []⟩ [⟨"main.sc", "num f(num a) \x7b a = a + 1; return a; \x7d"⟩] = .ok program ∧
      program.exprs.map Expr.id = [4, 3, 1, 2, 5] ∧ (program.exprs.map Expr.id).Nodup ∧
      ∀ id, (program.types.get? id).isSome ↔ ∃ expr ∈ program.exprs, expr.id = id) ∧
    ∃ tokens error left, Source.scan ⟨"bad.sc", "num x = 1 + 2; num y = ;"⟩ = .ok tokens ∧
      parseStream tokens [⟨.global, "x", 1, 8⟩, ⟨.global, "y", 8, 12⟩] (7, .initial) = .error error (7, left) := by
  have tested : yields (fun program => program.exprs.map Expr.id == [4, 3, 1, 2, 5])
      (compile ⟨false, []⟩ [⟨"main.sc", "num f(num a) \x7b a = a + 1; return a; \x7d"⟩]) = true := by
    decide +kernel
  have failing : yields (fun tokens => refuses (fun _ => true)
      (parseStream tokens [⟨.global, "x", 1, 8⟩, ⟨.global, "y", 8, 12⟩] (7, .initial)))
      (Source.scan ⟨"bad.sc", "num x = 1 + 2; num y = ;"⟩) = true := by
    decide +kernel
  obtain ⟨program, accepted, same⟩ := yields_ok tested
  obtain ⟨distinct, -, recorded, counted⟩ := identities_exact accepted
  obtain ⟨tokens, scanned, failed⟩ := yields_ok failing
  obtain ⟨error, ⟨later, left⟩, failed, -⟩ := refuses_error failed
  cases (counted _ _ _ _).2 _ _ _ failed
  exact ⟨⟨program, accepted, eq_of_beq same, distinct, recorded⟩, tokens, error, left, scanned, failed⟩

end TypedScript
