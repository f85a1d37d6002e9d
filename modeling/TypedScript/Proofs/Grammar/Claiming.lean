import TypedScript.Proofs.Grammar.Announcing

namespace TypedScript.Grammar

variable {α : Type} {tokens : Stream} {s t m : State}

-- A rule of the outline. It claims the one name that it finds, and it finds the same wherever that is free.
structure Claims (tokens : Stream) (rule : Rule (Owner × String)) : Prop where
  names : ∀ s entry m, rule tokens s = .ok entry m →
    s.catalog.owner? entry.2 = none ∧ m.catalog.names = s.catalog.names.insertNew entry.2 entry.1
  again : ∀ s t entry m, s.pos = t.pos → rule tokens s = .ok entry m → t.catalog.owner? entry.2 = none →
    ∃ n, rule tokens t = .ok entry n ∧ m.pos = n.pos

namespace Claims

theorem bind {first : Rule α} {next : α → Rule (Owner × String)} (oblivious : Oblivious tokens first)
    (rest : ∀ found, Claims tokens (next found)) : Claims tokens (first >>= next) := by
  constructor
  · intro s entry m ran
    obtain ⟨found, l, start, ran⟩ := bind_ok.mp ran
    obtain ⟨free, after⟩ := (rest found).names l entry m ran
    rw [oblivious.owner? start] at free
    rw [oblivious.names start] at after
    exact ⟨free, after⟩
  · intro s t entry m same ran free
    obtain ⟨found, l, start, ran⟩ := bind_ok.mp ran
    obtain ⟨k, also, kept⟩ := oblivious.ok start same
    rw [← oblivious.owner? also] at free
    obtain ⟨n, again, last⟩ := (rest found).again l k entry m kept ran free
    exact ⟨n, (bind_of_ok also).trans again, last⟩

theorem ite {condition : Prop} [Decidable condition] {yes no : Rule (Owner × String)} (left : Claims tokens yes)
    (right : Claims tokens no) : Claims tokens (if condition then yes else no) := by
  split
  · exact left
  · exact right

-- After a name is claimed, nothing more looks at the catalog.
theorem claim {name : String} {owner : Owner} {place : Position} {next : Rule (Owner × String)}
    (oblivious : Oblivious tokens next)
    (told : ∀ s entry m, next tokens s = .ok entry m → entry = (owner, name)) :
    Claims tokens (claim name owner place >>= fun _ => next) := by
  constructor
  · intro s entry m ran
    obtain ⟨_, l, start, ran⟩ := bind_ok.mp ran
    obtain ⟨claimed, claims, rfl⟩ := claim_ok start
    cases told _ entry m ran
    obtain ⟨free, rfl⟩ := Catalog.claim_ok claims
    refine ⟨free, ?_⟩
    rw [oblivious.names ran, State.entered_catalog, Catalog.addTypes_names]
  · intro s t entry m same ran free
    obtain ⟨_, l, start, ran⟩ := bind_ok.mp ran
    obtain ⟨claimed, claims, rfl⟩ := claim_ok start
    cases told _ entry m ran
    have valid := Catalog.claim_required claims
    obtain ⟨other, also⟩ : ∃ other, t.catalog.claim name owner place = .ok () other :=
      ⟨_, Catalog.claim_ok_iff.mpr ⟨Catalog.requireFree_ok.mpr ⟨valid, free⟩, rfl⟩⟩
    have begun : Grammar.claim name owner place tokens t = .ok () (t.entered fun _ => other) := by
      unfold Grammar.claim
      rw [also]
      rfl
    obtain ⟨n, again, last⟩ := oblivious.ok (t := t.entered fun _ => other) ran same
    exact ⟨n, (bind_of_ok begun).trans again, last⟩

end Claims

theorem outlineNamed_claims (keyword : Kind) (owner : Owner) : Claims tokens (outlineNamed keyword owner) := by
  refine .bind (.keywordName keyword) fun name => .claim (fun _ _ => ?_) ?_
  · exact Twin.skipBody.bindEq fun _ => .pure rfl
  · intro s entry m ran
    simp only [bind_ok, pure_ok] at ran
    obtain ⟨_, _, -, rfl, -⟩ := ran
    rfl

theorem outlineDelegate_claims : Claims tokens outlineDelegate := by
  refine .bind .place fun start => .bind .delegateHead fun header => .claim (fun _ _ => ?_) ?_
  · exact (Twin.enter fun catalog => catalog.addDelegate_names _ _).bindEq fun _ => .pure rfl
  · intro s entry m ran
    simp only [enter_bind, pure_ok] at ran
    exact ran.1.symm

theorem outlineFunction_claims : Claims tokens outlineFunction := by
  refine .bind .functionHead fun header => .claim (fun _ _ => ?_) ?_
  · exact (Twin.enter fun catalog => catalog.addFunction_names _ _).bindEq fun _ => Twin.skipBody.bindEq fun _ =>
      .pure rfl
  · intro s entry m ran
    simp only [enter_bind, bind_ok, pure_ok] at ran
    obtain ⟨_, _, -, rfl, -⟩ := ran
    rfl

theorem outlineGlobal_claims (type : Ty) (name : Token) : Claims tokens (outlineGlobal type name) := by
  refine .claim (fun _ _ => ?_) ?_
  · exact (Twin.enter fun catalog => catalog.addGlobal_names _ _).bindEq fun _ => Twin.skipInitializer.bindEq fun _ =>
      (Twin.expect _).bind fun _ _ _ => .pure rfl
  · intro s entry m ran
    simp only [enter_bind, bind_ok, pure_ok] at ran
    obtain ⟨_, _, -, _, _, -, rfl, -⟩ := ran
    rfl

theorem outlineTyped_claims : Claims tokens outlineTyped := by
  refine .bind .index fun start => .bind .typedName fun found => ?_
  exact .bind .kind fun next => .ite (.bind (.seek start) fun _ => outlineFunction_claims) (outlineGlobal_claims _ _)

theorem outlineDeclaration_claims : Claims tokens outlineDeclaration := by
  refine .bind .kind fun next => ?_
  cases next with
  | structWord => exact outlineNamed_claims _ _
  | enumWord => exact outlineNamed_claims _ _
  | delegateWord => exact outlineDelegate_claims
  | _ => exact outlineTyped_claims

-- What the entries of an outline claim: names that were free, each once, and nothing else.
structure Claimed (found : List Entry) (before after : Catalog) : Prop where
  free : ∀ entry ∈ found, before.owner? entry.name = none
  distinct : (found.map Entry.name).Nodup
  owners : ∀ name owner, after.owner? name = some owner ↔
    before.owner? name = some owner ∨ ∃ entry ∈ found, entry.name = name ∧ entry.owner = owner

namespace Claimed

variable {before middle after : Catalog} {left right : List Entry}

theorem nil (catalog : Catalog) : Claimed [] catalog catalog := ⟨nofun, List.nodup_nil, by simp⟩

theorem single {entry : Entry} (free : before.owner? entry.name = none)
    (names : after.names = before.names.insertNew entry.name entry.owner) : Claimed [entry] before after := by
  refine ⟨by simpa using free, by simp, ?_⟩
  intro name owner
  unfold Catalog.owner? at free ⊢
  rw [names, Table.get?_insertNew, Option.or_eq_some_iff]
  constructor
  · rintro (old | ⟨-, new⟩)
    · exact .inl old
    · split at new
      · rename_i same
        cases new
        exact .inr ⟨entry, List.mem_singleton_self _, same.symm, rfl⟩
      · cases new
  · rintro (old | ⟨other, member, rfl, rfl⟩)
    · exact .inl old
    · cases List.mem_singleton.mp member
      exact .inr ⟨free, if_pos rfl⟩

theorem append (first : Claimed left before middle) (second : Claimed right middle after) :
    Claimed (left ++ right) before after := by
  have later : ∀ entry ∈ right, before.owner? entry.name = none := by
    intro entry member
    have free := second.free entry member
    cases owned : before.owner? entry.name with
    | none => rfl
    | some owner =>
      rw [(first.owners _ _).mpr (.inl owned)] at free
      cases free
  refine ⟨List.forall_mem_append.mpr ⟨first.free, later⟩, ?_, ?_⟩
  · rw [List.map_append, List.nodup_append]
    refine ⟨first.distinct, second.distinct, ?_⟩
    intro name here other there
    obtain ⟨entry, member, rfl⟩ := List.mem_map.mp here
    obtain ⟨twin, also, rfl⟩ := List.mem_map.mp there
    intro same
    have free := second.free twin also
    rw [← same, (first.owners _ _).mpr (.inr ⟨entry, member, rfl, rfl⟩)] at free
    cases free
  · intro name owner
    rw [second.owners, first.owners]
    simp only [List.mem_append, or_and_right, exists_or, or_assoc]

theorem cons_free {entry : Entry} {catalog next : Catalog} (claimed : Claimed (entry :: right) before after)
    (free : ∀ other ∈ entry :: right, catalog.owner? other.name = none)
    (names : next.names = catalog.names.insertNew entry.name entry.owner) :
    ∀ other ∈ right, next.owner? other.name = none := by
  intro other member
  have apart : other.name ≠ entry.name := by
    intro same
    have nodup := List.nodup_cons.mp claimed.distinct
    exact nodup.1 (same ▸ List.mem_map_of_mem member)
  have old := free other (List.mem_cons_of_mem _ member)
  unfold Catalog.owner? at old ⊢
  rw [names, Table.get?_insertNew, old, if_neg apart]
  rfl

end Claimed

theorem entries_claimed {bound : Nat} {found : List Entry} (outlined : entries bound tokens s = .ok found t) :
    Claimed found s.catalog t.catalog := by
  induction bound generalizing s found with
  | zero => exact (giveUp_ok.mp outlined).elim
  | succ bound ih =>
    simp only [entries, more_bind] at outlined
    split at outlined
    · simp only [index_bind, bind_ok, pure_ok] at outlined
      obtain ⟨⟨owner, name⟩, l, first, others, _, rest, rfl, rfl⟩ := outlined
      obtain ⟨free, names⟩ := outlineDeclaration_claims.names _ _ _ first
      exact (Claimed.single free names).append (ih rest)
    · obtain ⟨rfl, rfl⟩ := pure_ok.mp outlined
      exact .nil _

theorem entries_again {bound : Nat} {found : List Entry} (same : s.pos = m.pos)
    (outlined : entries bound tokens s = .ok found t) (free : ∀ entry ∈ found, m.catalog.owner? entry.name = none) :
    ∃ n, entries bound tokens m = .ok found n := by
  have claimed := entries_claimed outlined
  induction bound generalizing s m found with
  | zero => exact (giveUp_ok.mp outlined).elim
  | succ bound ih =>
    simp only [entries, more_bind, ← same, ← Stream.next_congr same] at outlined ⊢
    split at outlined
    · simp only [index_bind, bind_ok, pure_ok] at outlined
      obtain ⟨⟨owner, name⟩, l, first, others, k, rest, rfl, rfl⟩ := outlined
      rename_i more
      have start := List.forall_mem_cons.mp free
      obtain ⟨j, again, kept⟩ := outlineDeclaration_claims.again _ _ _ _ same first start.1
      obtain ⟨-, names⟩ := outlineDeclaration_claims.names _ _ _ again
      obtain ⟨n, last⟩ := ih kept rest (claimed.cons_free free names) (entries_claimed rest)
      refine ⟨n, ?_⟩
      rw [if_pos more, index_bind, bind_of_ok again, index_bind, bind_of_ok last, ← same, ← kept]
      rfl
    · rename_i ended
      obtain ⟨rfl, rfl⟩ := pure_ok.mp outlined
      rw [if_neg ended]
      exact ⟨m, rfl⟩

end TypedScript.Grammar
