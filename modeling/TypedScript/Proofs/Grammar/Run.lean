import TypedScript.Grammar.Rule
import TypedScript.Proofs.Outcome

namespace TypedScript.Grammar

namespace Stream

def next (tokens : Stream) (s : State) : Kind := (tokens.token s.pos).kind

def endBefore (tokens : Stream) : Nat → Position
  | 0 => (tokens.token 0).span.start
  | before + 1 =>
    match tokens[before]? with
    | some found => found.span.stop
    | none => (tokens.token (before + 1)).span.start

def spanTo (tokens : Stream) (start : Position) (s : State) : Span := ⟨start, tokens.endBefore s.pos⟩

end Stream

namespace State

def step (tokens : Stream) (s : State) : State :=
  if s.pos < tokens.size then { s with pos := s.pos + 1 } else s

def numbered (s : State) : State := { s with nextId := s.nextId + 1 }

def entered (s : State) (change : Catalog → Catalog) : State := { s with catalog := change s.catalog }

def moved (s : State) (pos : Nat) : State := { s with pos }

@[simp] theorem step_nextId (tokens : Stream) (s : State) : (s.step tokens).nextId = s.nextId := by
  unfold step; split <;> rfl
@[simp] theorem step_catalog (tokens : Stream) (s : State) : (s.step tokens).catalog = s.catalog := by
  unfold step; split <;> rfl
@[simp] theorem numbered_pos (s : State) : s.numbered.pos = s.pos := rfl
@[simp] theorem numbered_nextId (s : State) : s.numbered.nextId = s.nextId + 1 := rfl
@[simp] theorem numbered_catalog (s : State) : s.numbered.catalog = s.catalog := rfl
@[simp] theorem entered_pos (s : State) (change : Catalog → Catalog) : (s.entered change).pos = s.pos := rfl
@[simp] theorem entered_nextId (s : State) (change : Catalog → Catalog) :
    (s.entered change).nextId = s.nextId := rfl
@[simp] theorem entered_catalog (s : State) (change : Catalog → Catalog) :
    (s.entered change).catalog = change s.catalog := rfl
@[simp] theorem moved_pos (s : State) (pos : Nat) : (s.moved pos).pos = pos := rfl
@[simp] theorem moved_nextId (s : State) (pos : Nat) : (s.moved pos).nextId = s.nextId := rfl
@[simp] theorem moved_catalog (s : State) (pos : Nat) : (s.moved pos).catalog = s.catalog := rfl

theorem step_pos_congr {tokens : Stream} {s t : State} (same : s.pos = t.pos) :
    (s.step tokens).pos = (t.step tokens).pos := by
  unfold step; rw [same]; split <;> simp_all

end State

variable {α β : Type} {tokens : Stream} {s t : State}

theorem Stream.next_congr (same : s.pos = t.pos) : tokens.next s = tokens.next t := by
  unfold Stream.next
  rw [same]

-- Rules that never fail are run on the spot. What can fail is left to `bind_ok` and `bind_error`.
theorem token_bind (rest : Token → Rule β) :
    (token >>= rest) tokens s = rest (tokens.token s.pos) tokens s := rfl
theorem kind_bind (rest : Kind → Rule β) : (kind >>= rest) tokens s = rest (tokens.next s) tokens s := rfl
theorem advance_bind (rest : Token → Rule β) :
    (advance >>= rest) tokens s = rest (tokens.token s.pos) tokens (s.step tokens) := rfl
theorem skip_bind (rest : Unit → Rule β) : (skip >>= rest) tokens s = rest () tokens (s.step tokens) := rfl
theorem index_bind (rest : Nat → Rule β) : (index >>= rest) tokens s = rest s.pos tokens s := rfl
theorem seek_bind (pos : Nat) (rest : Unit → Rule β) :
    (seek pos >>= rest) tokens s = rest () tokens (s.moved pos) := rfl
theorem file_bind (rest : String → Rule β) : (file >>= rest) tokens s = rest tokens.file tokens s := rfl
theorem more_bind (rest : Bool → Rule β) :
    (more >>= rest) tokens s =
      rest (s.pos < tokens.size && (tokens.next s) ≠ .endOfFile) tokens s := rfl
theorem place_bind (rest : Position → Rule β) :
    (place >>= rest) tokens s = rest (tokens.token s.pos).span.start tokens s := rfl
theorem enter_bind (change : Catalog → Catalog) (rest : Unit → Rule β) :
    (enter change >>= rest) tokens s = rest () tokens (s.entered change) := rfl

theorem advance_run : advance tokens s = .ok (tokens.token s.pos) (s.step tokens) := rfl
theorem skip_run : skip tokens s = .ok () (s.step tokens) := rfl

theorem lastEnd_run : lastEnd tokens s = .ok (tokens.endBefore s.pos) s := by
  obtain ⟨pos, nextId, catalog⟩ := s
  cases pos with
  | zero => rfl
  | succ before =>
    simp only [lastEnd, Stream.endBefore]
    cases tokens[before]? <;> rfl

theorem spanSince_run (start : Position) : spanSince start tokens s = .ok (tokens.spanTo start s) s := by
  unfold spanSince
  rw [bind_of_ok lastEnd_run]
  rfl

theorem spanSince_bind (start : Position) (rest : Span → Rule β) :
    (spanSince start >>= rest) tokens s = rest (tokens.spanTo start s) tokens s :=
  bind_of_ok (spanSince_run start)

theorem raise_ok {cause : Cause} {place : Position} {value : α} :
    (raise cause place : Rule α) tokens s = .ok value t ↔ False := by
  simp [raise]

theorem unexpected_ok {expected : List String} {value : α} :
    (unexpected expected : Rule α) tokens s = .ok value t ↔ False := by
  unfold unexpected
  rw [token_bind]
  exact raise_ok

theorem unexpectedNear_ok {message : String} {value : α} :
    (unexpectedNear message : Rule α) tokens s = .ok value t ↔ False := by
  unfold unexpectedNear
  rw [token_bind]
  exact raise_ok

theorem giveUp_ok {value : α} : (giveUp : Rule α) tokens s = .ok value t ↔ False := unexpected_ok

theorem expect_ok {wanted : Kind} {found : Token} :
    expect wanted tokens s = .ok found t ↔
      tokens.next s = wanted ∧ found = tokens.token s.pos ∧ t = s.step tokens := by
  unfold expect
  rw [kind_bind]
  by_cases same : tokens.next s = wanted
  · rw [if_pos same, advance_run]
    simp [same, eq_comm]
  · rw [if_neg same]
    simp [same, unexpected_ok]

end TypedScript.Grammar
