import CaptureAudit.Command.Run

/-! # The program

Answers what is asked about files with what the system says, and prints the outcome of the
command. Which files are asked for, and what follows from the answers, is decided elsewhere.
-/
namespace CaptureAudit.Program

open Files (FileError)

def fileErrorOf : IO.Error → FileError
  | .inappropriateType _ code _ => if code = 20 then .notDirectory else .isDirectory
  | .invalidArgument _ code _ => if code = 36 then .nameTooLong else .tooManyLinks
  | _ => .notFound

def answered? {α : Type} (answer : IO α) : IO (Option α) := do
  try
    return some (← answer)
  catch _ => return none

def kindOf : IO.FS.FileType → Files.FileKind
  | .file => .file
  | .dir => .directory
  | _ => .other

def readText (path : String) : IO (Except FileError String) := do
  try
    let bytes ← IO.FS.readBinFile path
    return match String.fromUTF8? bytes with
      | some text => .ok text
      | none => .error .notText
  catch error => return .error (fileErrorOf error)

/-- The files of the system. Paths are resolved first, so links are followed. -/
def systemAccess : Files.FileAccess IO where
  canonical? path := answered? do return (← IO.FS.realPath path).toString
  kind? path := answered? do return kindOf (← (← IO.FS.realPath path).metadata).type
  names? path := answered? do
    let entries ← (← IO.FS.realPath path).readDir
    return entries.toList.map fun entry => entry.fileName
  readText := readText

def run (arguments : List String) : IO UInt32 := do
  let specification ← IO.getEnv "RUST_LOG"
  let survey ← (Command.wanted? arguments).mapM (Survey.take systemAccess)
  let outcome := Command.run (fun directory => survey.getD ⟨directory, none, []⟩) arguments
    specification
  IO.print outcome.output
  IO.eprint outcome.errors
  return outcome.exitCode.toUInt32

end CaptureAudit.Program

def main (arguments : List String) : IO UInt32 :=
  CaptureAudit.Program.run arguments
