import Mathlib.Data.List.Basic
import Mathlib.Data.List.TakeWhile
import TypedScript.Proofs.Token.Spelling

namespace TypedScript

def IsWord : List Char → Prop
  | [] => False
  | c :: rest => isWordStart c = true ∧ ∀ d ∈ rest, isWordPart d = true

def AreDigits (text : List Char) : Prop := text ≠ [] ∧ ∀ c ∈ text, Number.isDigit c = true

def IsNumeral (text : List Char) : Prop :=
  AreDigits text ∨ ∃ whole part, AreDigits whole ∧ AreDigits part ∧ text = whole ++ '.' :: part

-- What can stand between two quotes. A backslash takes the next character with it, and all stays on one line.
inductive IsBody (quote : Char) : List Char → Prop where
  | nil : IsBody quote []
  | plain {c : Char} {rest : List Char} (other : c ≠ quote) (bare : c ≠ '\\') (level : c ≠ '\n')
      (more : IsBody quote rest) : IsBody quote (c :: rest)
  | escape {c : Char} {rest : List Char} (level : c ≠ '\n') (more : IsBody quote rest) :
      IsBody quote ('\\' :: c :: rest)

-- What separates tokens: blanks, a comment up to the end of its line, and a comment up to its first end.
inductive Trivia : List Char → Prop where
  | blank {text : List Char} (some : text ≠ []) (all : ∀ c ∈ text, Text.isBlank c = true) : Trivia text
  | line {text : List Char} (level : '\n' ∉ text) : Trivia ('/' :: '/' :: text)
  | block {text : List Char} (first : ¬['*', '/'] <:+: text ++ ['*']) :
      Trivia ('/' :: '*' :: (text ++ ['*', '/']))

inductive Written : List Char → Kind → String → Prop where
  | fixed {kind : Kind} (alike : kind.isFixed = true) : Written kind.spelling.toList kind kind.spelling
  | name {text : List Char} (word : IsWord text) (free : Kind.keywords.lookup (String.ofList text) = none)
      (unreserved : Kind.reserved.contains (String.ofList text) = false) :
      Written text .identifier (String.ofList text)
  | number {text : List Char} (numeral : IsNumeral text) : Written text .number (String.ofList text)
  | text {body : List Char} (inside : IsBody '"' body) :
      Written ('"' :: (body ++ ['"'])) .text (String.ofList (Text.unescape body))
  | character {body : List Char} {c : Char} (inside : IsBody '\'' body) (single : Text.unescape body = [c]) :
      Written ('\'' :: (body ++ ['\''])) .character (String.ofList [c])

namespace Cut

variable {text : List Char} {cut : Cut}

theorem comment?_ok (found : comment? text = some cut) :
    cut.1 ++ cut.2 = text ∧ ∃ body, cut.1 = body ++ ['*', '/'] ∧ ¬['*', '/'] <:+: body ++ ['*'] := by
  induction text generalizing cut with
  | nil => cases found
  | cons c rest ih =>
    cases rest with
    | nil => cases found
    | cons d rest =>
      simp only [comment?] at found
      split at found
      · rename_i ends
        obtain ⟨rfl, rfl⟩ := ends
        cases found
        exact ⟨rfl, [], rfl, by decide⟩
      · rename_i goes
        obtain ⟨later, inner, rfl⟩ := Option.map_eq_some_iff.mp found
        obtain ⟨whole, body, shown, first⟩ := ih inner
        refine ⟨by simp [cons, whole], c :: body, by simp [cons, shown], ?_⟩
        intro earlier
        rcases List.infix_cons_iff.mp earlier with ⟨left, front⟩ | deeper
        · -- The first end would stand right here, where it was looked for.
          cases body with
          | nil => simp at front
          | cons e body =>
            obtain ⟨same, next⟩ := List.cons.inj front
            rw [shown] at whole
            have here : e = d := (List.cons.inj whole).1
            have there : '/' = e := (List.cons.inj next).1
            exact goes ⟨same.symm, by rw [← here, ← there]⟩
        · exact first deeper

theorem literal?_ok {quote : Char} (found : literal? quote text = some cut) :
    cut.1 ++ cut.2 = text ∧ ∃ body, cut.1 = body ++ [quote] ∧ IsBody quote body := by
  fun_induction literal? quote text generalizing cut with
  | case1 => cases found
  | case2 =>
    cases found
    exact ⟨rfl, [], rfl, .nil⟩
  | case3 => cases found
  | case4 =>
    cases found
    exact ⟨rfl, [], rfl, .nil⟩
  | case5 => cases found
  | case6 => cases found
  | case7 d rest level _ _ ih =>
    obtain ⟨later, inner, rfl⟩ := Option.map_eq_some_iff.mp found
    obtain ⟨whole, body, shown, inside⟩ := ih inner
    exact ⟨by simp [cons, whole], '\\' :: d :: body, by simp [cons, shown], .escape level inside⟩
  | case8 c d rest other level bare ih =>
    obtain ⟨later, inner, rfl⟩ := Option.map_eq_some_iff.mp found
    obtain ⟨whole, body, shown, inside⟩ := ih inner
    exact ⟨by simp [cons, whole], c :: body, by simp [cons, shown], .plain other bare level inside⟩

theorem literal?_body {quote : Char} {body : List Char} (bare : quote ≠ '\\') (inside : IsBody quote body)
    (rest : List Char) : literal? quote (body ++ quote :: rest) = some (body ++ [quote], rest) := by
  induction inside with
  | nil => cases rest <;> simp [literal?]
  | @plain c later other slash level more ih =>
    cases later with
    | nil => simp_all [literal?, cons]
    | cons d later => simp_all [literal?, cons]
  | @escape c later level more ih => simp_all [literal?, cons, Ne.symm bare]

end Cut

namespace Pattern

def Takes : Pattern → List Char → Prop
  | word, text => IsWord text
  | number, text => IsNumeral text
  | blank, text => text ≠ [] ∧ ∀ c ∈ text, Text.isBlank c = true
  | lineComment, text => ∃ body, text = '/' :: '/' :: body ∧ '\n' ∉ body
  | blockComment, text => ∃ body, text = '/' :: '*' :: (body ++ ['*', '/']) ∧ ¬['*', '/'] <:+: body ++ ['*']
  | openComment, text => text = ['/', '*']
  | quoted quote, text => ∃ body, text = quote :: (body ++ [quote]) ∧ IsBody quote body
  | openQuote quote, text => text = [quote]
  | mark _ spelling, text => text = spelling.toList

theorem fraction_takes {digits rest : List Char} (whole : AreDigits digits) :
    IsNumeral (Cut.fraction digits rest).1 ∧ (Cut.fraction digits rest).1 ++ (Cut.fraction digits rest).2 = digits ++ rest := by
  unfold Cut.fraction
  split
  · rename_i c rest
    split
    · rename_i digit
      refine ⟨.inr ⟨digits, c :: rest.takeWhile Number.isDigit, whole, ⟨nofun, ?_⟩, rfl⟩, by simp⟩
      intro d member
      rcases List.mem_cons.mp member with rfl | later
      · exact digit
      · exact List.mem_takeWhile_imp later
    · exact ⟨.inl whole, rfl⟩
  · exact ⟨.inl whole, rfl⟩

theorem cut?_takes {pattern : Pattern} {text : List Char} {cut : Cut} (cuts : pattern.cut? text = some cut) :
    pattern.Takes cut.1 ∧ cut.1 ++ cut.2 = text := by
  cases pattern with
  | word =>
    cases text with
    | nil => cases cuts
    | cons c rest =>
      simp only [cut?] at cuts
      split at cuts
      · rename_i start
        cases cuts
        exact ⟨⟨start, fun d later => List.mem_takeWhile_imp later⟩, by simp [Cut.cons, Cut.span]⟩
      · cases cuts
  | number =>
    cases text with
    | nil => cases cuts
    | cons c rest =>
      simp only [cut?] at cuts
      split at cuts
      · rename_i digit
        cases cuts
        have whole : AreDigits ((c :: rest).takeWhile Number.isDigit) :=
          ⟨by simp [digit], fun d later => List.mem_takeWhile_imp later⟩
        obtain ⟨numeral, same⟩ := fraction_takes whole
        exact ⟨numeral, same.trans List.takeWhile_append_dropWhile⟩
      · cases cuts
  | blank =>
    cases text with
    | nil => cases cuts
    | cons c rest =>
      simp only [cut?] at cuts
      split at cuts
      · rename_i start
        cases cuts
        refine ⟨⟨List.cons_ne_nil c _, ?_⟩, by simp [Cut.cons, Cut.span]⟩
        intro d member
        rcases List.mem_cons.mp member with rfl | later
        · exact start
        · exact List.mem_takeWhile_imp later
      · cases cuts
  | lineComment =>
    obtain ⟨rest, rfl⟩ : ∃ rest, text = '/' :: '/' :: rest := by
      unfold cut? at cuts
      split at cuts <;> simp_all
    cases cuts
    refine ⟨⟨_, rfl, ?_⟩, by simp [Cut.cons, Cut.span]⟩
    intro feed
    simpa using List.mem_takeWhile_imp feed
  | blockComment =>
    obtain ⟨rest, rfl⟩ : ∃ rest, text = '/' :: '*' :: rest := by
      unfold cut? at cuts
      split at cuts <;> simp_all
    obtain ⟨later, inner, rfl⟩ := Option.map_eq_some_iff.mp cuts
    obtain ⟨whole, body, shown, first⟩ := Cut.comment?_ok inner
    exact ⟨⟨body, by simp [Cut.cons, shown], first⟩, by simp [Cut.cons, whole]⟩
  | openComment =>
    obtain ⟨rest, rfl⟩ : ∃ rest, text = '/' :: '*' :: rest := by
      unfold cut? at cuts
      split at cuts <;> simp_all
    cases cuts
    exact ⟨rfl, rfl⟩
  | quoted quote =>
    cases text with
    | nil => cases cuts
    | cons c rest =>
      simp only [cut?] at cuts
      split at cuts
      · rename_i same
        subst same
        obtain ⟨later, inner, rfl⟩ := Option.map_eq_some_iff.mp cuts
        obtain ⟨whole, body, shown, inside⟩ := Cut.literal?_ok inner
        exact ⟨⟨body, by simp [Cut.cons, shown], inside⟩, by simp [Cut.cons, whole]⟩
      · cases cuts
  | openQuote quote =>
    cases text with
    | nil => cases cuts
    | cons c rest =>
      simp only [cut?] at cuts
      split at cuts
      · rename_i same
        cases cuts
        exact ⟨congrArg (fun c => [c]) same, rfl⟩
      · cases cuts
  | mark kind spelling =>
    obtain ⟨rest, found, rfl⟩ := Option.map_eq_some_iff.mp cuts
    exact ⟨rfl, List.isPrefixOf?_eq_some_iff_append_eq.mp found⟩

theorem Takes.ne_nil {pattern : Pattern} {text : List Char} (takes : pattern.Takes text) (member : pattern ∈ all) :
    text ≠ [] := by
  rintro rfl
  cases pattern with
  | word => exact takes
  | number =>
    rcases takes with ⟨some, -⟩ | ⟨whole, part, -, -, same⟩
    · exact some rfl
    · simp at same
  | blank => exact takes.1 rfl
  | lineComment | blockComment | quoted _ =>
    obtain ⟨body, same, -⟩ := takes
    cases same
  | openComment | openQuote _ => cases takes
  | mark kind spelling =>
    have marks : ∀ entry ∈ Kind.marks, entry.2.toList ≠ [] := by decide
    exact marks _ (mark_of_mem member) takes.symm

theorem front?_takes {text : List Char} {pattern : Pattern} {cut : Cut} (found : front? text = some (pattern, cut)) :
    pattern.Takes cut.1 ∧ cut.1 ++ cut.2 = text ∧ cut.1 ≠ [] := by
  obtain ⟨member, cuts⟩ := front?_ok found
  obtain ⟨takes, whole⟩ := cut?_takes cuts
  exact ⟨takes, whole, takes.ne_nil member⟩

theorem read_trivia {pattern : Pattern} {cut : Cut} (takes : pattern.Takes cut.1)
    (read : pattern.read cut = .ok none) : Trivia cut.1 := by
  cases pattern with
  | blank => exact .blank takes.1 takes.2
  | lineComment =>
    obtain ⟨body, same, level⟩ := takes
    rw [same]
    exact .line level
  | blockComment =>
    obtain ⟨body, same, first⟩ := takes
    rw [same]
    exact .block first
  | word =>
    simp only [Pattern.read] at read
    cases sort : Kind.ofWord (String.ofList cut.1) <;> simp [sort, Except.map] at read
  | number | openComment | openQuote _ | mark _ _ => cases read
  | quoted quote =>
    simp only [Pattern.read] at read
    split at read
    · cases read
    · split at read <;> cases read

theorem quote_of_mem {quote : Char} (member : quoted quote ∈ all) : quote = '"' ∨ quote = '\'' := by
  rcases List.mem_append.mp member with named | marked
  · simpa using named
  · obtain ⟨_, -, same⟩ := List.mem_map.mp marked
    cases same

theorem read_written {pattern : Pattern} {cut : Cut} {kind : Kind} {value : String} (takes : pattern.Takes cut.1)
    (member : pattern ∈ all) (read : pattern.read cut = .ok (some (kind, value))) : Written cut.1 kind value := by
  cases pattern with
  | word =>
    simp only [Pattern.read, Kind.ofWord] at read
    split at read
    · rename_i keyword found
      cases read
      obtain ⟨alike, same⟩ := Kind.keyword_spelling (Kind.mem_of_lookup found)
      have shown : cut.1 = kind.spelling.toList := by rw [← same, String.toList_ofList]
      rw [shown, String.ofList_toList]
      exact .fixed alike
    · rename_i free
      split at read
      · cases read
      · rename_i unreserved
        cases read
        exact .name takes free (by simpa using unreserved)
  | number =>
    cases read
    exact .number takes
  | quoted quote =>
    obtain ⟨body, same, inside⟩ := takes
    have between : Pattern.body cut.1 = body := by simp [Pattern.body, same]
    rw [same]
    simp only [Pattern.read, between] at read
    split at read
    · rename_i double
      subst double
      cases read
      exact .text inside
    · rename_i other
      cases (quote_of_mem member).resolve_left other
      split at read
      · rename_i single
        cases read
        obtain ⟨c, only⟩ := List.length_eq_one_iff.mp single
        rw [only]
        exact .character inside only
      · cases read
  | mark other spelling =>
    obtain ⟨alike, same⟩ := Kind.mark_spelling (mark_of_mem member)
    cases read
    rw [takes, show value = kind.spelling from same]
    exact .fixed alike
  | blank | lineComment | blockComment | openComment | openQuote _ => cases read

theorem front?_eq {before after : List Pattern} {pattern : Pattern} {text : List Char} {cut : Cut}
    (split : all = before ++ pattern :: after) (fails : ∀ other ∈ before, other.cut? text = none)
    (cuts : pattern.cut? text = some cut) : front? text = some (pattern, cut) := by
  refine List.findSome?_eq_some_iff.mpr ⟨before, pattern, after, split, by rw [cuts]; rfl, ?_⟩
  intro other member
  rw [fails other member]
  rfl

theorem span_of_forall {member : Char → Bool} {text rest : List Char} (inside : ∀ c ∈ text, member c = true)
    (outside : ∀ c ∈ rest.head?, member c = false) : Cut.span member (text ++ rest) = (text, rest) := by
  have ends : rest.takeWhile member = [] ∧ rest.dropWhile member = rest := by
    cases rest with
    | nil => exact ⟨rfl, rfl⟩
    | cons c rest => simp [outside c rfl]
  simp [Cut.span, List.takeWhile_append_of_pos inside, List.dropWhile_append_of_pos inside, ends]

theorem front?_word {text rest : List Char} (word : IsWord text) (apart : ∀ c ∈ rest.head?, isWordPart c = false) :
    front? (text ++ rest) = some (.word, (text, rest)) := by
  cases text with
  | nil => exact word.elim
  | cons c text =>
    refine front?_eq (show all = [] ++ .word :: all.tail from rfl) nofun ?_
    simp only [List.cons_append, cut?, if_pos word.1, span_of_forall word.2 apart]
    rfl

theorem isWordStart_digit {c : Char} (digit : Number.isDigit c = true) : isWordStart c = false := by
  simp only [Number.isDigit, Bool.and_eq_true, decide_eq_true_eq] at digit
  cases start : isWordStart c with
  | false => rfl
  | true =>
    simp only [isWordStart, isLetter, Bool.or_eq_true, Bool.and_eq_true, decide_eq_true_eq, beq_iff_eq] at start
    rcases start with (⟨lower, -⟩ | ⟨lower, -⟩) | rfl
    · exact absurd (Char.le_trans lower digit.2) (by decide)
    · exact absurd (Char.le_trans lower digit.2) (by decide)
    · exact absurd digit.2 (by decide)

theorem fraction_whole {digits rest : List Char} (apart : ∀ c ∈ rest.head?, c ≠ '.') :
    Cut.fraction digits rest = (digits, rest) := by
  unfold Cut.fraction
  split
  · exact (apart '.' rfl rfl).elim
  · rfl

theorem fraction_part {digits part rest : List Char} (later : AreDigits part)
    (apart : ∀ c ∈ rest.head?, Number.isDigit c = false) :
    Cut.fraction digits ('.' :: (part ++ rest)) = (digits ++ '.' :: part, rest) := by
  cases part with
  | nil => exact (later.1 rfl).elim
  | cons c part =>
    obtain ⟨digit, others⟩ := List.forall_mem_cons.mp later.2
    have ends : Cut.span Number.isDigit (part ++ rest) = (part, rest) := span_of_forall others apart
    obtain ⟨taken, left⟩ := Prod.mk.inj ends
    simp only [Cut.fraction, List.cons_append, if_pos digit, taken, left]

theorem front?_number {text rest : List Char} (numeral : IsNumeral text)
    (apart : ∀ c ∈ rest.head?, Number.isDigit c = false ∧ c ≠ '.') :
    front? (text ++ rest) = some (.number, (text, rest)) := by
  have digits (whole more : List Char) (first : AreDigits whole) (ends : ∀ c ∈ more.head?, Number.isDigit c = false) :
      front? (whole ++ more) = some (.number, Cut.fraction whole more) := by
    have cut : Cut.span Number.isDigit (whole ++ more) = (whole, more) := span_of_forall first.2 ends
    obtain ⟨taken, left⟩ := Prod.mk.inj cut
    cases whole with
    | nil => exact (first.1 rfl).elim
    | cons c whole =>
      have digit : Number.isDigit c = true := first.2 c List.mem_cons_self
      refine front?_eq (show all = [.word] ++ .number :: all.tail.tail from rfl) ?_ ?_
      · intro other member
        cases List.mem_singleton.mp member
        simp [cut?, isWordStart_digit digit]
      · rw [List.cons_append] at taken left ⊢
        rw [cut?, if_pos digit, taken, left]
  rcases numeral with whole | ⟨whole, part, first, later, rfl⟩
  · rw [digits text rest whole fun c head => (apart c head).1, fraction_whole fun c head => (apart c head).2]
  · rw [List.append_assoc, List.cons_append, digits whole _ first (by simp; decide),
      fraction_part later fun c head => (apart c head).1]

-- Whether a pattern can begin with a character. A mark is not told by its first character alone.
def begins : Pattern → Char → Bool
  | word, c => isWordStart c
  | number, c => Number.isDigit c
  | blank, c => Text.isBlank c
  | lineComment, c | blockComment, c | openComment, c => c = '/'
  | quoted quote, c | openQuote quote, c => c = quote
  | mark _ _, _ => true

theorem Takes.head_begins {pattern : Pattern} {c : Char} {text : List Char} (takes : pattern.Takes (c :: text)) :
    pattern.begins c = true := by
  cases pattern with
  | word => exact takes.1
  | number =>
    rcases takes with ⟨-, digits⟩ | ⟨whole, part, ⟨some, digits⟩, -, same⟩
    · exact digits c List.mem_cons_self
    · cases whole with
      | nil => exact (some rfl).elim
      | cons d whole =>
        cases same
        exact digits c List.mem_cons_self
  | blank => exact takes.2 c List.mem_cons_self
  | lineComment | blockComment | quoted _ =>
    obtain ⟨body, same, -⟩ := takes
    cases same
    simp [begins]
  | openComment | openQuote _ =>
    cases takes
    simp [begins]
  | mark _ _ => rfl

theorem cut?_none {pattern : Pattern} {c : Char} {text : List Char} (member : pattern ∈ all)
    (other : pattern.begins c = false) : pattern.cut? (c :: text) = none := by
  rw [Option.eq_none_iff_forall_ne_some]
  intro cut cuts
  obtain ⟨takes, whole⟩ := cut?_takes cuts
  cases shown : cut.1 with
  | nil => exact takes.ne_nil member shown
  | cons d rest =>
    rw [shown] at takes whole
    cases whole
    exact Bool.noConfusion (other.symm.trans takes.head_begins)

def leading : List Pattern := [word, number, blank, lineComment, blockComment, openComment]

theorem front?_quoted {quote : Char} {body : List Char} (known : quoted quote ∈ all) (inside : IsBody quote body)
    (rest : List Char) :
    front? (quote :: (body ++ quote :: rest)) = some (.quoted quote, (quote :: (body ++ [quote]), rest)) := by
  have bare : quote ≠ '\\' := by rcases quote_of_mem known with rfl | rfl <;> decide
  have cuts : (quoted quote).cut? (quote :: (body ++ quote :: rest)) = some (quote :: (body ++ [quote]), rest) := by
    simp [cut?, Cut.literal?_body bare inside, Cut.cons]
  rcases quote_of_mem known with rfl | rfl
  · have others : ∀ other ∈ leading, other ∈ all ∧ other.begins '"' = false := by decide
    refine front?_eq (show all = leading ++ .quoted '"' :: all.drop 7 from rfl) ?_ cuts
    exact fun other early => cut?_none (others other early).1 (others other early).2
  · have others : ∀ other ∈ leading ++ [quoted '"', openQuote '"'], other ∈ all ∧ other.begins '\'' = false := by decide
    refine front?_eq (show all = leading ++ [quoted '"', openQuote '"'] ++ .quoted '\'' :: all.drop 9 from rfl) ?_ cuts
    exact fun other early => cut?_none (others other early).1 (others other early).2

-- The texts that are looked for at the front of a text as they stand: the openings of comments and the marks.
def stems : List (List Char) := [['/', '/'], ['/', '*']] ++ Kind.marks.map fun entry => entry.2.toList

def goesOn (spelling : List Char) (c : Char) : Bool := stems.any fun stem => (spelling ++ [c]).isPrefixOf stem

theorem goesOn_space (spelling : List Char) : goesOn spelling ' ' = false := by
  have solid : ∀ stem ∈ stems, ' ' ∉ stem := by decide
  cases goes : goesOn spelling ' ' with
  | false => rfl
  | true =>
    obtain ⟨stem, member, longer⟩ := List.any_eq_true.mp goes
    have inside := (List.isPrefixOf_iff_prefix.mp longer).subset (List.mem_append_right spelling (List.mem_singleton_self ' '))
    exact (solid stem member inside).elim

theorem stem_of_prefix {stem text rest : List Char} (begins : stem <+: text ++ rest) :
    stem <+: text ∨ ∃ c ∈ rest.head?, text ++ [c] <+: stem := by
  rcases List.prefix_or_prefix_of_prefix begins (List.prefix_append text rest) with inside | ⟨more, rfl⟩
  · exact .inl inside
  · cases more with
    | nil => exact .inl (by simp)
    | cons c more =>
      obtain ⟨later, same⟩ := begins
      refine .inr ⟨c, ?_, more, by simp⟩
      have next : c :: (more ++ later) = rest := by simpa using same
      rw [← next]
      rfl

theorem mark_head {entry : Kind × String} (member : entry ∈ Kind.marks) :
    ∃ c rest, entry.2.toList = c :: rest ∧ isWordStart c = false ∧ Number.isDigit c = false ∧
      Text.isBlank c = false ∧ c ≠ '"' ∧ c ≠ '\'' := by
  have heads : (Kind.marks.all fun entry => entry.2.toList.head?.any fun c =>
      !isWordStart c && !Number.isDigit c && !Text.isBlank c && c != '"' && c != '\'') = true := by
    decide
  have head := List.all_eq_true.mp heads entry member
  cases shown : entry.2.toList with
  | nil =>
    rw [shown] at head
    cases head
  | cons c rest =>
    rw [shown] at head
    simp only [List.head?_cons, Option.any_some, Bool.and_eq_true, Bool.not_eq_true', bne_iff_ne, and_assoc] at head
    exact ⟨c, rest, rfl, head⟩

theorem cut?_stopped {pattern : Pattern} {stem text : List Char} (opens : ∀ taken, pattern.Takes taken → stem <+: taken)
    (unbegun : ¬stem <+: text) : pattern.cut? text = none := by
  rw [Option.eq_none_iff_forall_ne_some]
  intro cut cuts
  obtain ⟨takes, whole⟩ := cut?_takes cuts
  exact unbegun (whole ▸ (opens cut.1 takes).trans (List.prefix_append cut.1 cut.2))

theorem stems_unbegun {before after : List (List Char)} {spelling rest : List Char}
    (split : stems = before ++ spelling :: after) (apart : ∀ c ∈ rest.head?, goesOn spelling c = false)
    {stem : List Char} (early : stem ∈ before) : ¬stem <+: spelling ++ rest := by
  have ordered : stems.Pairwise fun early late => ¬early <+: late := by decide
  intro begins
  rcases stem_of_prefix begins with inside | ⟨c, next, longer⟩
  · rw [split, List.pairwise_append] at ordered
    exact ordered.2.2 stem early spelling List.mem_cons_self inside
  · have listed : stem ∈ stems := split ▸ List.mem_append_left _ early
    have goes : goesOn spelling c = true := List.any_eq_true.mpr ⟨stem, listed, List.isPrefixOf_iff_prefix.mpr longer⟩
    exact Bool.noConfusion ((apart c next).symm.trans goes)

-- A mark is found unless it goes on: no stem that is looked for earlier begins it.
theorem front?_mark {kind : Kind} {spelling : String} (member : (kind, spelling) ∈ Kind.marks) {rest : List Char}
    (apart : ∀ c ∈ rest.head?, goesOn spelling.toList c = false) :
    front? (spelling.toList ++ rest) = some (.mark kind spelling, (spelling.toList, rest)) := by
  obtain ⟨before, after, marks⟩ := List.append_of_mem member
  obtain ⟨c, others, shown, notWord, notDigit, notBlank, notText, notCharacter⟩ := mark_head member
  have split : stems = ([['/', '/'], ['/', '*']] ++ before.map fun entry => entry.2.toList) ++
      (spelling.toList :: after.map fun entry => entry.2.toList) := by
    simp [stems, marks]
  have order : all = (leading ++ [quoted '"', openQuote '"', quoted '\'', openQuote '\''] ++
      before.map fun entry => mark entry.1 entry.2) ++
      .mark kind spelling :: after.map fun entry => mark entry.1 entry.2 := by
    simp [all, leading, marks]
  -- Words, numbers, blanks and quotes are ruled out by the first character, comments and other marks by their stems.
  have fails {other : Pattern} (listed : other ∈ all) (apart : other.begins c = false) :
      other.cut? (spelling.toList ++ rest) = none := by
    rw [shown, List.cons_append]
    exact cut?_none listed apart
  have line : lineComment.cut? (spelling.toList ++ rest) = none := by
    refine cut?_stopped ?_ (stems_unbegun split apart List.mem_cons_self)
    rintro _ ⟨body, rfl, -⟩
    exact List.prefix_append ['/', '/'] body
  have block : blockComment.cut? (spelling.toList ++ rest) = none := by
    refine cut?_stopped ?_ (stems_unbegun split apart (List.mem_cons_of_mem _ List.mem_cons_self))
    rintro _ ⟨body, rfl, -⟩
    exact List.prefix_append ['/', '*'] _
  have bare : openComment.cut? (spelling.toList ++ rest) = none := by
    refine cut?_stopped ?_ (stems_unbegun split apart (List.mem_cons_of_mem _ List.mem_cons_self))
    exact fun _ same => same ▸ List.prefix_rfl
  refine front?_eq order ?_ (by simp [cut?])
  simp only [leading, List.forall_mem_append, List.forall_mem_cons, List.forall_mem_map]
  refine ⟨⟨⟨fails (by decide) notWord, fails (by decide) notDigit, fails (by decide) notBlank, line, block, bare,
    List.forall_mem_nil _⟩, fails (by decide) ?_, fails (by decide) ?_, fails (by decide) ?_, fails (by decide) ?_,
    List.forall_mem_nil _⟩, ?_⟩
  · exact decide_eq_false notText
  · exact decide_eq_false notText
  · exact decide_eq_false notCharacter
  · exact decide_eq_false notCharacter
  · intro entry there
    refine cut?_stopped ?_ (stems_unbegun split apart (List.mem_append_right _ (List.mem_map_of_mem there)))
    exact fun text same => same ▸ List.prefix_rfl

end Pattern

def Apart (rest : List Char) : Prop := ∀ c ∈ rest.head?, c = ' '

instance (text : List Char) : Decidable (IsWord text) :=
  match text with
  | [] => isFalse id
  | c :: rest => decidable_of_iff ((isWordStart c && rest.all isWordPart) = true) (by simp [IsWord])

theorem Kind.mark_or_keyword {kind : Kind} (alike : kind.isFixed = true) :
    (kind, kind.spelling) ∈ marks ∨ (kind.spelling, kind) ∈ keywords := by
  cases kind <;> first | (cases alike; done) | decide

theorem Kind.keyword_word {entry : String × Kind} (member : entry ∈ keywords) :
    IsWord entry.1.toList ∧ keywords.lookup entry.1 = some entry.2 := by
  have words : ∀ entry ∈ keywords, IsWord entry.1.toList ∧ keywords.lookup entry.1 = some entry.2 := by decide
  exact words entry member

theorem Written.front?_read {text rest : List Char} {kind : Kind} {value : String} (written : Written text kind value)
    (apart : Apart rest) :
    ∃ pattern, Pattern.front? (text ++ rest) = some (pattern, (text, rest)) ∧
      pattern.read (text, rest) = .ok (some (kind, value)) := by
  have ends : ∀ c ∈ rest.head?, isWordPart c = false := fun c head => apart c head ▸ rfl
  cases written with
  | fixed alike =>
    rcases Kind.mark_or_keyword alike with marked | keyword
    · refine ⟨_, Pattern.front?_mark marked fun c head => ?_, rfl⟩
      rw [apart c head]
      exact Pattern.goesOn_space _
    · obtain ⟨word, found⟩ := Kind.keyword_word keyword
      refine ⟨_, Pattern.front?_word word ends, ?_⟩
      simp only [Pattern.read, Kind.ofWord, String.ofList_toList, found]
      rfl
  | name word free unreserved =>
    refine ⟨_, Pattern.front?_word word ends, ?_⟩
    simp only [Pattern.read, Kind.ofWord, free, unreserved]
    rfl
  | number numeral =>
    refine ⟨_, Pattern.front?_number numeral fun c head => ?_, rfl⟩
    cases apart c head
    decide
  | text inside =>
    refine ⟨_, by simpa using Pattern.front?_quoted (by decide) inside rest, ?_⟩
    simp [Pattern.read, Pattern.body]
  | character inside single =>
    refine ⟨_, by simpa using Pattern.front?_quoted (by decide) inside rest, ?_⟩
    simp [Pattern.read, Pattern.body, single]

end TypedScript
