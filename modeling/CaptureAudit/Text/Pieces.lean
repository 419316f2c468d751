/-! # Cutting texts

A text is cut at every occurrence of one character; blanks around it are trimmed.
-/
namespace CaptureAudit.Text

/-- The pieces between the cuts, empty ones included; there is always one. -/
def pieces (cut : Char) : List Char → List (List Char)
  | [] => [[]]
  | c :: rest =>
    if c = cut then [] :: pieces cut rest
    else match pieces cut rest with
      | [] => [[c]]
      | piece :: others => (c :: piece) :: others

def piecesOf (cut : Char) (text : String) : List String :=
  (pieces cut text.toList).map String.ofList

def isBlank (c : Char) : Bool :=
  let code := c.toNat
  (0x09 ≤ code && code ≤ 0x0D) || (0x2000 ≤ code && code ≤ 0x200A) ||
    [0x20, 0x85, 0xA0, 0x1680, 0x2028, 0x2029, 0x202F, 0x205F, 0x3000].contains code

def trimmed (text : String) : String :=
  String.ofList ((text.toList.dropWhile isBlank).reverse.dropWhile isBlank).reverse

/-- The lines of a text. A line feed ends a line, with a carriage return before it if there is
one; after the last line it may be missing. -/
def linesOf (text : String) : List String :=
  let parts := pieces '\n' text.toList
  let ended := parts.dropLast.map fun line =>
    if line.getLast? = some '\r' then line.dropLast else line
  (ended ++ (parts.getLast?.filter (!·.isEmpty)).toList).map String.ofList

end CaptureAudit.Text
