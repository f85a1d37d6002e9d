namespace TypedScript

inductive Kind where
  | file
  | endOfFile
  | number
  | text
  | character
  | identifier
  | openBracket
  | closeBracket
  | openCurly
  | closeCurly
  | openParen
  | closeParen
  | assign
  | equals
  | not
  | notEquals
  | tildeEquals
  | less
  | lessEquals
  | greater
  | greaterEquals
  | or
  | and
  | dot
  | semicolon
  | comma
  | plusPlus
  | minusMinus
  | plusEquals
  | minusEquals
  | slashEquals
  | starEquals
  | percentEquals
  | plus
  | dash
  | slash
  | star
  | percent
  | caret
  | structWord
  | enumWord
  | delegateWord
  | ifWord
  | elseWord
  | whileWord
  | forWord
  | returnWord
  | breakWord
  | continueWord
  | newWord
  | asWord
  | trueWord
  | falseWord
  | nullWord
  | boolWord
  | numWord
  | charWord
  | stringWord
  | objectWord
  | voidWord
deriving DecidableEq

namespace Kind

def name : Kind → String
  | file => "File"
  | endOfFile => "EOF"
  | number => "Number"
  | text => "String"
  | character => "CharLiteral"
  | identifier => "Identifier"
  | openBracket => "OpenBracket"
  | closeBracket => "CloseBracket"
  | openCurly => "OpenCurly"
  | closeCurly => "CloseCurly"
  | openParen => "OpenParen"
  | closeParen => "CloseParen"
  | assign => "Assignment"
  | equals => "Equals"
  | not => "Not"
  | notEquals => "NotEquals"
  | tildeEquals => "TildeEquals"
  | less => "Less"
  | lessEquals => "LessEquals"
  | greater => "Greater"
  | greaterEquals => "GreaterEquals"
  | or => "Or"
  | and => "And"
  | dot => "Dot"
  | semicolon => "Semicolon"
  | comma => "Comma"
  | plusPlus => "PlusPlus"
  | minusMinus => "MinusMinus"
  | plusEquals => "PlusEquals"
  | minusEquals => "MinusEquals"
  | slashEquals => "SlashEquals"
  | starEquals => "StarEquals"
  | percentEquals => "PercentEquals"
  | plus => "Plus"
  | dash => "Dash"
  | slash => "Slash"
  | star => "Star"
  | percent => "Percent"
  | caret => "Caret"
  | structWord => "Struct"
  | enumWord => "Enum"
  | delegateWord => "Delegate"
  | ifWord => "If"
  | elseWord => "Else"
  | whileWord => "While"
  | forWord => "For"
  | returnWord => "Return"
  | breakWord => "Break"
  | continueWord => "Continue"
  | newWord => "New"
  | asWord => "As"
  | trueWord => "True"
  | falseWord => "False"
  | nullWord => "Null"
  | boolWord => "Bool"
  | numWord => "Num"
  | charWord => "Char"
  | stringWord => "StringType"
  | objectWord => "Object"
  | voidWord => "Void"

-- The punctuation and the operators, with their spellings. A spelling stands before its own beginnings, so that the
-- first that fits is the longest.
def marks : List (Kind × String) :=
  [(openBracket, "["), (closeBracket, "]"), (openCurly, "\x7b"), (closeCurly, "\x7d"),
    (openParen, "("), (closeParen, ")"), (equals, "=="), (notEquals, "!="), (tildeEquals, "~="),
    (not, "!"), (assign, "="), (lessEquals, "<="), (less, "<"), (greaterEquals, ">="),
    (greater, ">"), (or, "||"), (and, "&&"), (dot, "."), (semicolon, ";"), (comma, ","),
    (plusPlus, "++"), (minusMinus, "--"), (plusEquals, "+="), (minusEquals, "-="),
    (starEquals, "*="), (slashEquals, "/="), (percentEquals, "%="), (plus, "+"), (dash, "-"),
    (slash, "/"), (star, "*"), (percent, "%"), (caret, "^")]

def keywords : List (String × Kind) :=
  [("struct", structWord), ("enum", enumWord), ("delegate", delegateWord), ("if", ifWord),
    ("else", elseWord), ("while", whileWord), ("for", forWord), ("return", returnWord),
    ("break", breakWord), ("continue", continueWord), ("new", newWord), ("as", asWord),
    ("true", trueWord), ("false", falseWord), ("null", nullWord), ("bool", boolWord),
    ("num", numWord), ("char", charWord), ("string", stringWord), ("object", objectWord),
    ("void", voidWord)]

def all : List Kind :=
  [file, endOfFile, number, text, character, identifier] ++ marks.map Prod.fst ++
    keywords.map Prod.snd

-- Words that the language programs are emitted in keeps for itself. Names are emitted as they are written, so none of
-- these may be a name.
def reserved : List String :=
  ["arguments", "async", "await", "case", "catch", "class", "const", "debugger", "default", "delete",
    "do", "eval", "export", "extends", "finally", "function", "implements", "import", "in",
    "instanceof", "interface", "let", "of", "package", "private", "protected", "public", "static",
    "super", "switch", "this", "throw", "try", "typeof", "undefined", "var", "with", "yield", "NaN",
    "Infinity"]

def isTypeWord : Kind → Bool
  | boolWord | numWord | charWord | stringWord | objectWord | voidWord => true
  | _ => false

def isAssignment : Kind → Bool
  | assign | plusEquals | minusEquals | starEquals | slashEquals | percentEquals => true
  | _ => false

def closing? : Kind → Option Kind
  | openCurly => some closeCurly
  | openParen => some closeParen
  | openBracket => some closeBracket
  | _ => none

def isClosing : Kind → Bool
  | closeCurly | closeParen | closeBracket => true
  | _ => false

end Kind

end TypedScript
