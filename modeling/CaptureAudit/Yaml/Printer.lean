import CaptureAudit.Report.Tree
import CaptureAudit.Yaml.Scalar

/-! # Printing YAML

Block style throughout, two columns a level. A list stands at the column of the name that it
belongs to; only empty lists and records are written in brackets.
-/
namespace CaptureAudit.Yaml

open Report (Tree)

mutual

/-- What follows the name of a field and its colon; the name stands at `column`. -/
def fieldValue (column : Nat) : Tree → List Char
  | .flag value => ' ' :: ((toString value).toList ++ ['\n'])
  | .count value => ' ' :: ((toString value).toList ++ ['\n'])
  | .text value => ' ' :: scalarLine (column + 2) value.toList
  | .list [] => [' ', '[', ']', '\n']
  | .list (first :: rest) => '\n' :: itemLines column (first :: rest)
  | .record [] => [' ', '\x7b', '\x7d', '\n']
  | .record (first :: rest) => '\n' :: fieldLines (column + 2) (first :: rest)

/-- What follows the dash of a list item and its space; both end before `column`. -/
def itemValue (column : Nat) : Tree → List Char
  | .flag value => (toString value).toList ++ ['\n']
  | .count value => (toString value).toList ++ ['\n']
  | .text value => scalarLine column value.toList
  | .list [] => ['[', ']', '\n']
  | .list (first :: rest) => '-' :: ' ' :: (itemValue (column + 2) first ++ itemLines column rest)
  | .record [] => ['\x7b', '\x7d', '\n']
  | .record ((name, value) :: rest) =>
    name.toList ++ ':' :: (fieldValue column value ++ fieldLines column rest)

def itemLines (column : Nat) : List Tree → List Char
  | [] => []
  | item :: rest =>
    spaces column ++ '-' :: ' ' :: (itemValue (column + 2) item ++ itemLines column rest)

def fieldLines (column : Nat) : List (String × Tree) → List Char
  | [] => []
  | (name, value) :: rest =>
    spaces column ++ name.toList ++ ':' :: (fieldValue column value ++ fieldLines column rest)

end

def print (tree : Tree) : String := String.ofList (itemValue 0 tree)

end CaptureAudit.Yaml
