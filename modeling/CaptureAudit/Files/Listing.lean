import CaptureAudit.Files.Glob
import CaptureAudit.Files.Tree

/-! # Listing the grammars of a directory

The text of the directory is made a pattern for the `.json` files in it, the pattern is expanded
name by name, and the regular files among what it finds are the grammars. A file system is asked
for what is needed, so the same listing serves a tree and the system that the program runs on.
-/
namespace CaptureAudit.Files

/-- What a file system answers about paths. Links are followed. -/
structure FileAccess (m : Type → Type) where
  canonical? : String → m (Option String)
  kind? : String → m (Option FileKind)
  /-- The names in a directory, in any order. -/
  names? : String → m (Option (List String))
  readText : String → m (Except FileError String)

def Volume.access (volume : Volume) : FileAccess Id where
  canonical? := volume.canonical?
  kind? := volume.kind?
  names? := volume.names?
  readText := volume.readText

/-- The names of a directory that fit. `.` and `..` are tried if a dot begins the pattern. -/
def fittingNames (pattern : Glob.Pattern) (names : List String) : List String :=
  let dots := if pattern.head? = some (.char '.') then [".", ".."] else []
  (dots ++ sortNames names).filter fun name => Glob.fits pattern name.toList

def isDotName (name : String) : Bool := name = "." || name = ".."

section Expansion

variable {m : Type → Type} [Monad m] (files : FileAccess m)

/-- From a directory there is always a way to what `.` and `..` stand for. -/
def reaches (path name : String) : m Bool := do
  if isDotName name then
    return (← files.kind? path) = some .directory
  else
    return (← files.kind? (extendPath path name)).isSome

/-- A name without special tokens is not looked for among the names of the directory. -/
def pickLiteral (path name : String) : m (List String) := do
  return if ← reaches files path name then [name] else []

def pickFitting (path : String) (pattern : Glob.Pattern) : m (List String) := do
  return ((← files.names? path).map (fittingNames pattern)).getD []

def pick (path : String) (pattern : Glob.Pattern) : m (List String) :=
  match Glob.literal? pattern with
  | some name => pickLiteral files path (String.ofList name)
  | none => pickFitting files path pattern

def expand (path : String) : List Glob.Pattern → m (List String)
  | [] => return [path]
  | pattern :: rest => do
    let names ← pick files path pattern
    let found ← names.mapM fun name => expand (extendPath path name) rest
    return found.flatten

/-- The paths that a text stands for; none if part of it is no pattern. -/
def glob (text : String) : m (List String) :=
  let start := if isAbsolute text then "/" else "."
  let pieces := (Text.piecesOf '/' text).drop (if isAbsolute text then 1 else 0)
  match pieces.mapM fun piece => Glob.read piece.toList with
  | some patterns => expand files start patterns
  | none => return []

def grammarFiles (directory : String) : m (List (String × String)) := do
  let paths ← glob files (Glob.escape directory ++ "/*.json")
  let regular ← paths.filterM fun path => return (← files.kind? path) = some .file
  return (sortPaths regular).map fun path => (fileName path, path)

end Expansion

def Volume.grammarFiles (volume : Volume) (directory : String) : List (String × String) :=
  (Files.grammarFiles volume.access directory).run

end CaptureAudit.Files
