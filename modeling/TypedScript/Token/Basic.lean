import TypedScript.Source.Position
import TypedScript.Token.Kind

namespace TypedScript

structure Token where
  kind : Kind
  value : String
  span : Span
deriving DecidableEq

namespace Token

def fileMarker (file : String) : Token := ⟨.file, file, .point (.first file)⟩

def endMarker (place : Position) : Token := ⟨.endOfFile, "EOF", .point place⟩

def listing (token : Token) : String :=
  "Token \x7b\nkind: " ++ token.kind.name ++ ",\nvalue: " ++ token.value ++ "\x7d"

end Token

end TypedScript
