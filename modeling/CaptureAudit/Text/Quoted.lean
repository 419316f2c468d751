import CaptureAudit.Text.Unprintable

/-! # Quoted texts

A text between double quotes, on one line and without characters that cannot be seen. Such
characters are written by code point, in lower-case hexadecimal digits between braces.
-/
namespace CaptureAudit.Text

def quoteChar (c : Char) : List Char :=
  match c with
  | '\x00' => ['\\', '0']
  | '\t' => ['\\', 't']
  | '\r' => ['\\', 'r']
  | '\n' => ['\\', 'n']
  | '"' => ['\\', '"']
  | '\\' => ['\\', '\\']
  | _ =>
    if isUnprintable c then ['\\', 'u', '\x7b'] ++ Nat.toDigits 16 c.toNat ++ ['\x7d'] else [c]

def quoteChars (text : List Char) : List Char := '"' :: text.flatMap quoteChar ++ ['"']

def quoted (text : String) : String := String.ofList (quoteChars text.toList)

def quotedList (texts : List String) : String :=
  "[" ++ ", ".intercalate (texts.map quoted) ++ "]"

end CaptureAudit.Text
