import Mathlib.Data.List.Perm.Basic
import TypedScript.Proofs.Grammar.Claiming
import TypedScript.Proofs.Grammar.TwinTrees
import TypedScript.Proofs.Program.Description

namespace TypedScript

open Grammar

-- What one source gives to a program: its tokens, its outline, and its file as it is parsed with identities
-- from zero on, with their count.
structure Piece where
  tokens : Stream
  entries : List Entry
  file : File
  count : Nat

-- The piece of a source depends on the other sources only in which names are types.
structure Piece.Of (named : Catalog) (source : Source) (piece : Piece) : Prop where
  scanned : source.scan = .ok piece.tokens
  outlined : ∃ after, outlineFile piece.tokens .initial = .ok (piece.entries, after)
  parsed : ∃ after, parseFile (piece.tokens, piece.entries) (0, named) = .ok (piece.file, piece.count, after)

def Piece.lay : Nat → List Piece → List File
  | _, [] => []
  | start, piece :: others => piece.file.later start :: lay (start + piece.count) others

namespace Piece

variable {named : Catalog} {source : Source} {left right : Piece}

theorem Of.unique (first : left.Of named source) (second : right.Of named source) : left = right := by
  obtain ⟨scanned, ⟨_, outlined⟩, ⟨_, parsed⟩⟩ := first
  obtain ⟨also, ⟨_, again⟩, ⟨_, twice⟩⟩ := second
  obtain ⟨tokens, entries, file, count⟩ := left
  obtain ⟨others, found, other, total⟩ := right
  cases scanned.symm.trans also
  cases outlined.symm.trans again
  cases parsed.symm.trans twice
  rfl

theorem Of.worded (of : left.Of named source) : left.tokens.Worded := Source.scan_worded of.scanned

end Piece

theorem threads_mapState {α β σ : Type} {pass : α → σ → Except Error (β × σ)} {inputs : List α} {values : List β}
    {s t : σ} (threads : Threads (fun input s value t => pass input s = .ok (value, t)) inputs s values t) :
    mapState pass inputs s = .ok (values, t) := by
  induction threads with
  | nil => rfl
  | cons head _ ih => exact except_bind_ok.mpr ⟨_, head, except_bind_ok.mpr ⟨_, ih, rfl⟩⟩

theorem parseFile_later (tokens : Stream) (entries : List Entry) (shift : Nat) {first second : Catalog}
    (names : first.namesType = second.namesType) :
    (∃ file count after left, parseFile (tokens, entries) (0, first) = .ok (file, count, after) ∧
      parseFile (tokens, entries) (shift, second) = .ok (file.later shift, shift + count, left)) ∨
    ∃ error, parseFile (tokens, entries) (0, first) = .error error ∧
      parseFile (tokens, entries) (shift, second) = .error error := by
  have outcomes : (TreePairing.shifted tokens shift).Outcomes (File.Mirrors Eq (LaterBy shift))
      (wholeFile entries tokens (.start tokens 0 first)) (wholeFile entries tokens (.start tokens shift second)) :=
    Twin.wholeFile entries _ _ ⟨rfl, (Nat.zero_add shift).symm, names⟩
  unfold parseFile parseStream
  dsimp only
  generalize wholeFile entries tokens (.start tokens 0 first) = outcome at outcomes
  generalize wholeFile entries tokens (.start tokens shift second) = result at outcomes
  cases outcomes with
  | error errors =>
    cases errors.eq
    exact .inr ⟨_, rfl, rfl⟩
  | @ok file _ m n files after =>
    cases files.eq_later
    have next : n.nextId = shift + m.nextId := after.nextId.trans (Nat.add_comm _ _)
    exact .inl ⟨file, m.nextId, m.catalog, n.catalog, rfl, by rw [← next]⟩

theorem parseFile_namesType {tokens : Stream} {entries : List Entry} {s t : Nat × Catalog} {file : File}
    (worded : tokens.Worded) (parsed : parseFile (tokens, entries) s = .ok (file, t)) :
    t.2.namesType = s.2.namesType := by
  obtain ⟨left, reads, -, after⟩ := parseFile_reads parsed
  have kept : t.2.names = s.2.names := after ▸ (reads.names worded).1
  funext name
  unfold Catalog.namesType Catalog.owner?
  rw [kept]

section Outlines
variable {tokens : Stream} {found : List Entry} {before after other : Catalog}

theorem outlineFile_claimed (ran : outlineFile tokens before = .ok (found, after)) :
    Claimed found before after := by
  obtain ⟨t, outlined, rfl⟩ := outlineFile_ok ran
  exact entries_claimed outlined

theorem outlineFile_again (ran : outlineFile tokens before = .ok (found, after))
    (free : ∀ entry ∈ found, other.owner? entry.name = none) :
    ∃ last, outlineFile tokens other = .ok (found, last) := by
  obtain ⟨t, outlined, -⟩ := outlineFile_ok ran
  obtain ⟨n, again⟩ : ∃ n, outline tokens (.start tokens 0 other) = .ok found n :=
    entries_again (s := .start tokens 0 before) rfl outlined free
  refine ⟨n.catalog, ?_⟩
  unfold outlineFile
  rw [again]

end Outlines

namespace Piece

variable {named : Catalog} {pieces : List Piece}

def entriesOf (pieces : List Piece) : List Entry := pieces.flatMap Piece.entries

theorem outlines (before : Catalog) (of : ∀ piece ∈ pieces, ∃ source, piece.Of named source)
    (distinct : ((entriesOf pieces).map Entry.name).Nodup)
    (free : ∀ entry ∈ entriesOf pieces, before.owner? entry.name = none) :
    ∃ after, Threads (fun tokens s found t => outlineFile tokens s = .ok (found, t)) (pieces.map Piece.tokens) before
      (pieces.map Piece.entries) after ∧ Claimed (entriesOf pieces) before after := by
  induction pieces generalizing before with
  | nil => exact ⟨before, .nil, .nil before⟩
  | cons first others ih =>
    obtain ⟨⟨_, first⟩, rest⟩ := List.forall_mem_cons.mp of
    obtain ⟨here, later⟩ := List.forall_mem_append.mp free
    obtain ⟨_, alone⟩ := first.outlined
    obtain ⟨middle, outlined⟩ := outlineFile_again alone here
    have claimed := outlineFile_claimed outlined
    rw [entriesOf, List.flatMap_cons, List.map_append, List.nodup_append] at distinct
    have still : ∀ entry ∈ entriesOf others, middle.owner? entry.name = none := by
      intro entry member
      cases owned : middle.owner? entry.name with
      | none => rfl
      | some owner =>
        rcases (claimed.owners _ _).mp owned with old | ⟨twin, there, same, -⟩
        · rw [later entry member] at old
          cases old
        · exact (distinct.2.2 _ (List.mem_map_of_mem there) _ (List.mem_map_of_mem member) same).elim
    obtain ⟨after, threads, claims⟩ := ih middle rest distinct.2.1 still
    exact ⟨after, .cons outlined threads, claimed.append claims⟩

theorem parses {s : Nat × Catalog} (of : ∀ piece ∈ pieces, ∃ source, piece.Of named source)
    (names : named.namesType = s.2.namesType) :
    ∃ t, Threads (fun input s file t => parseFile input s = .ok (file, t))
      ((pieces.map Piece.tokens).zip (pieces.map Piece.entries)) s (lay s.1 pieces) t := by
  induction pieces generalizing s with
  | nil => exact ⟨s, .nil⟩
  | cons first others ih =>
    obtain ⟨⟨_, here⟩, rest⟩ := List.forall_mem_cons.mp of
    obtain ⟨_, alone⟩ := here.parsed
    rcases parseFile_later first.tokens first.entries s.1 names with ⟨file, count, _, left, base, run⟩ | ⟨_, failed, -⟩
    · cases alone.symm.trans base
      have still := names.trans (parseFile_namesType here.worded run).symm
      obtain ⟨t, threads⟩ := ih (s := (s.1 + first.count, left)) rest still
      exact ⟨t, .cons run threads⟩
    · rw [alone] at failed
      cases failed

theorem of_threads {sources : List Source} {streams : List Stream} {outlines : List (List Entry)}
    {before after : Catalog} {s t : Nat × Catalog} {files : List File}
    (scanned : List.Forall₂ (fun source tokens => Source.scan source = .ok tokens) sources streams)
    (outlined : Threads (fun tokens s found t => outlineFile tokens s = .ok (found, t)) streams before outlines after)
    (parsed : Threads (fun input s file t => parseFile input s = .ok (file, t)) (streams.zip outlines) s files t)
    (names : named.namesType = s.2.namesType) :
    ∃ pieces, List.Forall₂ (Piece.Of named) sources pieces ∧ pieces.map Piece.tokens = streams ∧
      pieces.map Piece.entries = outlines ∧ files = lay s.1 pieces ∧ Claimed (entriesOf pieces) before after := by
  induction scanned generalizing before outlines s files with
  | nil =>
    cases outlined
    cases parsed
    exact ⟨[], .nil, rfl, rfl, rfl, .nil _⟩
  | @cons source tokens sources streams scan scans ih =>
    cases outlined with
    | @cons _ middle _ _ _ found others head rest =>
      cases parsed with
      | @cons _ m _ _ _ file files first last =>
        have worded := Source.scan_worded scan
        have claimed := outlineFile_claimed head
        have alone : ∃ last, outlineFile tokens .initial = .ok (found, last) :=
          outlineFile_again head fun _ _ => rfl
        have still := names.trans (parseFile_namesType worded first).symm
        obtain ⟨pieces, of, rfl, rfl, rfl, claims⟩ := ih rest last still
        rcases parseFile_later tokens found s.1 names with ⟨base, count, left, _, start, run⟩ | ⟨_, -, failed⟩
        · have same : parseFile (tokens, found) s = .ok (file, m) := first
          cases same.symm.trans run
          exact ⟨⟨tokens, found, base, count⟩ :: pieces, .cons ⟨scan, alone, ⟨left, start⟩⟩ of, rfl, rfl, rfl,
            claimed.append claims⟩
        · cases first.symm.trans failed

end Piece

end TypedScript
