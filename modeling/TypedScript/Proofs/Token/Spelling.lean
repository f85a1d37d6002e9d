import TypedScript.Proofs.Token.Words

namespace TypedScript

namespace Kind

def spelling (kind : Kind) : String := ((marks ++ keywords.map Prod.swap).lookup kind).getD ""

def isFixed : Kind → Bool
  | file | endOfFile | number | text | character | identifier => false
  | _ => true

def typeWords : List (String × Kind) := keywords.filter fun entry => entry.2.isTypeWord

def ofTypeName (name : String) : Kind := (typeWords.lookup name).getD identifier

theorem mem_of_lookup {entries : List (String × Kind)} {name : String} {kind : Kind}
    (found : entries.lookup name = some kind) : (name, kind) ∈ entries := by
  obtain ⟨before, after, split, -⟩ := List.lookup_eq_some_iff.mp found
  rw [split]
  exact List.mem_append_right _ List.mem_cons_self

theorem keyword_spelling {entry : String × Kind} (member : entry ∈ keywords) :
    entry.2.isFixed = true ∧ entry.1 = entry.2.spelling := by
  have each : ∀ entry ∈ keywords, entry.2.isFixed = true ∧ entry.1 = entry.2.spelling := by decide
  exact each entry member

theorem mark_spelling {entry : Kind × String} (member : entry ∈ marks) :
    entry.1.isFixed = true ∧ entry.2 = entry.1.spelling := by
  have each : ∀ entry ∈ marks, entry.1.isFixed = true ∧ entry.2 = entry.1.spelling := by decide
  exact each entry member

theorem ofTypeName_begins (name : String) : (ofTypeName name).BeginsType := by
  unfold ofTypeName BeginsType
  cases found : typeWords.lookup name with
  | none => rfl
  | some kind =>
    have word : kind.isTypeWord = true := (List.mem_filter.mp (mem_of_lookup found)).2
    rw [Option.getD_some, word, Bool.true_or]

theorem ofTypeName_spelling {kind : Kind} (word : kind.isTypeWord = true) :
    kind.isFixed = true ∧ ofTypeName kind.spelling = kind := by
  cases kind <;> first | decide | cases word

end Kind

namespace Token

-- What the kind of a token says about its value.
structure Canonical (token : Token) : Prop where
  fixed : token.kind.isFixed = true → token.value = token.kind.spelling
  name : token.kind = .identifier → Kind.keywords.lookup token.value = none
  character : token.kind = .character → ∃ c, token.value = String.ofList [c]

theorem Canonical.of_fixed {token : Token} (alike : token.kind.isFixed = true)
    (same : token.value = token.kind.spelling) : token.Canonical := by
  refine ⟨fun _ => same, ?_, ?_⟩
  · intro name
    rw [name] at alike
    cases alike
  · intro character
    rw [character] at alike
    cases alike

theorem Canonical.of_open {token : Token} (other : token.kind.isFixed = false)
    (name : token.kind ≠ .identifier) (character : token.kind ≠ .character) : token.Canonical := by
  refine ⟨?_, fun same => absurd same name, fun same => absurd same character⟩
  intro alike
  rw [other] at alike
  cases alike

theorem IsRead.sorts {token : Token} (isRead : token.IsRead) :
    (token.kind.isFixed = true ∧ token.value = token.kind.spelling) ∨
      (token.kind = .identifier ∧ Kind.keywords.lookup token.value = none) ∨
      (token.kind = .character ∧ ∃ c, token.value = String.ofList [c]) ∨
      token.kind = .number ∨ token.kind = .text := by
  obtain ⟨kind, value, span⟩ := token
  obtain ⟨text, pattern, cut, found, read⟩ := isRead
  obtain ⟨member, -⟩ := Pattern.front?_ok found
  cases pattern with
  | word =>
    simp only [Pattern.read, Kind.ofWord] at read
    split at read
    · rename_i word
      cases read
      exact .inl (Kind.keyword_spelling (Kind.mem_of_lookup word))
    · rename_i free
      split at read
      · cases read
      · cases read
        exact .inr (.inl ⟨rfl, free⟩)
  | number =>
    cases read
    exact .inr (.inr (.inr (.inl rfl)))
  | blank | lineComment | blockComment | openComment | openQuote _ => cases read
  | quoted quote =>
    simp only [Pattern.read] at read
    split at read
    · cases read
      exact .inr (.inr (.inr (.inr rfl)))
    · split at read
      · rename_i single
        cases read
        obtain ⟨c, only⟩ := List.length_eq_one_iff.mp single
        exact .inr (.inr (.inl ⟨rfl, c, congrArg String.ofList only⟩))
      · cases read
  | mark other spelling =>
    cases read
    exact .inl (Kind.mark_spelling (Pattern.mark_of_mem member))

theorem IsRead.canonical {token : Token} (isRead : token.IsRead) : token.Canonical := by
  obtain ⟨kind, value, span⟩ := token
  rcases isRead.sorts with ⟨alike, same⟩ | ⟨rfl, free⟩ | ⟨rfl, single⟩ | rfl | rfl
  · exact .of_fixed alike same
  · exact ⟨nofun, fun _ => free, nofun⟩
  · exact ⟨nofun, nofun, fun _ => single⟩
  · exact .of_open rfl nofun nofun
  · exact .of_open rfl nofun nofun

theorem IsRead.ne_end {token : Token} (isRead : token.IsRead) : token.kind ≠ .endOfFile := by
  intro ended
  rcases isRead.sorts with ⟨alike, -⟩ | ⟨same, -⟩ | ⟨same, -⟩ | same | same
  · rw [ended] at alike
    cases alike
  all_goals
    rw [ended] at same
    cases same

theorem scan_canonical {source file : String} {tokens : List Token} (scanned : scan source file = .ok tokens) :
    ∀ token ∈ tokens, token.Canonical :=
  scan_forall scanned (.of_open rfl nofun nofun) (fun _ => .of_open rfl nofun nofun) fun _ => IsRead.canonical

theorem Canonical.ofTypeName_eq {token : Token} (canonical : token.Canonical)
    (begins : token.kind.BeginsType) : Kind.ofTypeName token.value = token.kind := by
  rcases Bool.or_eq_true_iff.mp begins with word | name
  · obtain ⟨alike, same⟩ := Kind.ofTypeName_spelling word
    rw [canonical.fixed alike, same]
  · have others := List.lookup_eq_none_iff.mp (canonical.name (of_decide_eq_true name))
    have free : Kind.typeWords.lookup token.value = none :=
      List.lookup_eq_none_iff.mpr fun entry member => others entry (List.mem_filter.mp member).1
    rw [Kind.ofTypeName, free, of_decide_eq_true name, Option.getD_none]

end Token

end TypedScript
