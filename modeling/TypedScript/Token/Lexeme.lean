import TypedScript.Number.Binary64
import TypedScript.Text.Blank
import TypedScript.Token.Kind

namespace TypedScript

def isLetter (c : Char) : Bool := 'a' ≤ c && c ≤ 'z' || 'A' ≤ c && c ≤ 'Z'

def isWordStart (c : Char) : Bool := isLetter c || c == '_'

def isWordPart (c : Char) : Bool := isWordStart c || Number.isDigit c

inductive Pattern where
  | word
  | number
  | blank
  | lineComment
  | blockComment
  | openComment
  | quoted (quote : Char)
  | openQuote (quote : Char)
  | mark (kind : Kind) (spelling : String)
deriving DecidableEq

abbrev Cut := List Char × List Char

namespace Cut

def cons (c : Char) (cut : Cut) : Cut := (c :: cut.1, cut.2)

def span (member : Char → Bool) (text : List Char) : Cut :=
  (text.takeWhile member, text.dropWhile member)

def fraction (digits : List Char) : List Char → Cut
  | '.' :: c :: rest =>
    if Number.isDigit c then
      (digits ++ '.' :: c :: rest.takeWhile Number.isDigit, rest.dropWhile Number.isDigit)
    else (digits, '.' :: c :: rest)
  | rest => (digits, rest)

def comment? : List Char → Option Cut
  | [] => none
  | [_] => none
  | c :: d :: rest =>
    if c = '*' ∧ d = '/' then some (['*', '/'], rest) else (comment? (d :: rest)).map (cons c)

-- A backslash takes the next character with it, and a literal stays on its line.
def literal? (quote : Char) : List Char → Option Cut
  | [] => none
  | [c] => if c = quote then some ([c], []) else none
  | c :: d :: rest =>
    if c = quote then some ([c], d :: rest)
    else if c = '\n' then none
    else if c = '\\' then
      if d = '\n' then none else (literal? quote rest).map fun cut => cons c (cons d cut)
    else (literal? quote (d :: rest)).map (cons c)

end Cut

namespace Pattern

def cut? : Pattern → List Char → Option Cut
  | word, c :: rest =>
    if isWordStart c then some (Cut.cons c (Cut.span isWordPart rest)) else none
  | number, c :: rest =>
    if Number.isDigit c then
      some (Cut.fraction ((c :: rest).takeWhile Number.isDigit) ((c :: rest).dropWhile Number.isDigit))
    else none
  | blank, c :: rest =>
    if Text.isBlank c then some (Cut.cons c (Cut.span Text.isBlank rest)) else none
  | lineComment, '/' :: '/' :: rest =>
    some (Cut.cons '/' (Cut.cons '/' (Cut.span (· != '\n') rest)))
  | blockComment, '/' :: '*' :: rest =>
    (Cut.comment? rest).map fun cut => Cut.cons '/' (Cut.cons '*' cut)
  | openComment, '/' :: '*' :: rest => some (['/', '*'], rest)
  | quoted quote, c :: rest =>
    if c = quote then (Cut.literal? quote rest).map (Cut.cons c) else none
  | openQuote quote, c :: rest => if c = quote then some ([c], rest) else none
  | mark _ spelling, text => (spelling.toList.isPrefixOf? text).map fun rest => (spelling.toList, rest)
  | _, _ => none

def all : List Pattern :=
  [word, number, blank, lineComment, blockComment, openComment, quoted '"', openQuote '"',
    quoted '\'', openQuote '\''] ++ Kind.marks.map fun (kind, spelling) => mark kind spelling

def front? (text : List Char) : Option (Pattern × Cut) :=
  all.findSome? fun pattern => (pattern.cut? text).map fun cut => (pattern, cut)

end Pattern

end TypedScript
