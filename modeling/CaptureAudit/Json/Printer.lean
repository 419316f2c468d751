import CaptureAudit.Report.Tree

/-! # Printing JSON

One item or member a line, two spaces a level, nothing inside empty brackets. Only what a JSON
string cannot hold is escaped.
-/
namespace CaptureAudit.Json

open Report (Tree)

def escapeChar (c : Char) : List Char :=
  match c with
  | '"' => ['\\', '"']
  | '\\' => ['\\', '\\']
  | '\x08' => ['\\', 'b']
  | '\x0c' => ['\\', 'f']
  | '\n' => ['\\', 'n']
  | '\r' => ['\\', 'r']
  | '\t' => ['\\', 't']
  | _ =>
    if c.toNat < 0x20 then
      ['\\', 'u', '0', '0', Nat.digitChar (c.toNat / 16), Nat.digitChar (c.toNat % 16)]
    else [c]

def stringChars (text : String) : List Char := '"' :: text.toList.flatMap escapeChar ++ ['"']

def newLine (depth : Nat) : List Char := '\n' :: List.replicate (2 * depth) ' '

mutual

/-- A tree whose first line is already indented; its own lines stand at `depth`. -/
def treeChars (depth : Nat) : Tree → List Char
  | .flag value => (toString value).toList
  | .count value => (toString value).toList
  | .text value => stringChars value
  | .list [] => ['[', ']']
  | .list (first :: rest) =>
    '[' :: (newLine (depth + 1) ++ treeChars (depth + 1) first ++ itemChars (depth + 1) rest ++
      newLine depth ++ [']'])
  | .record [] => ['\x7b', '\x7d']
  | .record ((name, value) :: rest) =>
    '\x7b' :: (newLine (depth + 1) ++ stringChars name ++ [':', ' '] ++
      treeChars (depth + 1) value ++ memberChars (depth + 1) rest ++ newLine depth ++ ['\x7d'])

def itemChars (depth : Nat) : List Tree → List Char
  | [] => []
  | item :: rest => ',' :: (newLine depth ++ treeChars depth item ++ itemChars depth rest)

def memberChars (depth : Nat) : List (String × Tree) → List Char
  | [] => []
  | (name, value) :: rest =>
    ',' :: (newLine depth ++ stringChars name ++ [':', ' '] ++ treeChars depth value ++
      memberChars depth rest)

end

def print (tree : Tree) : String := String.ofList (treeChars 0 tree)

end CaptureAudit.Json
