import DocumentCodec.Text.Hex
import DocumentCodec.Text.Printable

namespace DocumentCodec.Quoted

/-!
# Quoted text

Error texts show keys and rejected input between quotes, with the characters
that would be lost or misread in a log line escaped.
-/

/-- The escaped form of a character inside the given kind of quote. -/
def escape (quote character : Char) : List Char :=
  match character with
  | '\x00' => ['\\', '0']
  | '\t' => ['\\', 't']
  | '\n' => ['\\', 'n']
  | '\r' => ['\\', 'r']
  | '\\' => ['\\', '\\']
  | _ =>
      if character = quote then
        ['\\', character]
      else if Printable.shownAsIs character then
        [character]
      else
        ['\\', 'u', '\x7b'] ++ Hex.digits 1 character.toNat ++ ['\x7d']

/-- A text between double quotes. -/
def text (content : String) : String :=
  String.ofList ('"' :: content.toList.flatMap (escape '"') ++ ['"'])

/-- A character between single quotes. -/
def character (content : Char) : String :=
  String.ofList ('\'' :: escape '\'' content ++ ['\''])

end DocumentCodec.Quoted
