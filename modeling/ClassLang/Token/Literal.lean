/-!
The text that a string constant stands for.
-/

namespace ClassLang

/-- What a backslash and the character after it stand for. An unknown escape stands for itself. -/
def unescapedPair (c : Char) : List Char :=
  match c with
  | 'n' => ['\n']
  | 't' => ['\t']
  | 'r' => ['\r']
  | 'f' => ['\x0c']
  | '0' => ['\x00']
  | '"' => ['"']
  | '\\' => ['\\']
  | _ => ['\\', c]

def unescaped : List Char → List Char
  | [] => []
  | '\\' :: c :: cs => unescapedPair c ++ unescaped cs
  | c :: cs => c :: unescaped cs

def withoutQuotes (text : List Char) : List Char :=
  text.tail.dropLast

end ClassLang
