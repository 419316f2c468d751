import CaptureAudit.Files.Path

/-! # File trees

A tree of files, directories and symbolic links, and the directory in it that the program works
in. Paths are resolved as a POSIX system does it: from the root if they begin with a slash, and
else from the working directory.
-/
namespace CaptureAudit.Files

inductive Node where
  | file (bytes : ByteArray)
  | directory (entries : List (String × Node))
  | link (target : String)

abbrev Entries := List (String × Node)

inductive FileKind where
  | file
  | directory
  | other
  deriving DecidableEq, Repr

def Node.kind : Node → FileKind
  | file _ => .file
  | directory _ => .directory
  | link _ => .other

namespace Entries

def inside (entries : Entries) (name : String) : Option Entries :=
  match entries.lookup name with
  | some (.directory inner) => some inner
  | _ => none

/-- An entry hides the later ones of its name. -/
def names (entries : Entries) : List String := (entries.map Prod.fst).eraseDups

/-- What stands at the end of a route of names; no link is followed. -/
def at? (entries : Entries) : List String → Option Node
  | [] => some (.directory entries)
  | [name] => entries.lookup name
  | name :: rest =>
    match entries.inside name with
    | some inner => inner.at? rest
    | none => none

end Entries

inductive FileError where
  | notFound
  | notDirectory
  | isDirectory
  | nameTooLong
  | tooManyLinks
  | notText
  | nulInPath
  deriving DecidableEq, Repr

def FileError.message : FileError → String
  | notFound => "No such file or directory (os error 2)"
  | notDirectory => "Not a directory (os error 20)"
  | isDirectory => "Is a directory (os error 21)"
  | nameTooLong => "File name too long (os error 36)"
  | tooManyLinks => "Too many levels of symbolic links (os error 40)"
  | notText => "stream did not contain valid UTF-8"
  | nulInPath => "file name contained an unexpected NUL byte"

abbrev Route := List String

structure Volume where
  /-- What stands in the root. -/
  entries : Entries
  /-- The working directory. -/
  home : Route

def maxLinks : Nat := 40

def maxNameSize : Nat := 255

/-- Bytes of a path, at most, with one more to end it. -/
def maxPathSize : Nat := 4096

def pathStart (path : String) (directory : Route) : Route :=
  if isAbsolute path then [] else directory

namespace Volume

def nodeAt? (volume : Volume) (route : Route) : Option Node := volume.entries.at? route

/-- Follows names from a place, and the links on the way; `links` more may be followed. Above the
root is the root. -/
def walk (volume : Volume) (links : Nat) (route : Route) : List String → Except FileError Route
  | [] => .ok route
  | name :: rest =>
    match volume.nodeAt? route with
    | some (.directory entries) =>
      if name = "." then volume.walk links route rest
      else if name = ".." then volume.walk links route.dropLast rest
      else if name.utf8ByteSize > maxNameSize then .error .nameTooLong
      else match entries.lookup name with
        | some (.link target) =>
          match links with
          | 0 => .error .tooManyLinks
          | links + 1 =>
            volume.walk links (pathStart target route) (pathNames target ++ rest)
        | some _ => volume.walk links (route ++ [name]) rest
        | none => .error .notFound
    | _ => .error .notDirectory
termination_by names => (links, names.length)

def resolve (volume : Volume) (path : String) : Except FileError Route :=
  if path.toList.contains '\x00' then .error .nulInPath
  else if path = "" then .error .notFound
  else if path.utf8ByteSize ≥ maxPathSize then .error .nameTooLong
  else volume.walk maxLinks (pathStart path volume.home) (pathNames path)

def node? (volume : Volume) (path : String) : Option Node :=
  match volume.resolve path with
  | .ok route => volume.nodeAt? route
  | .error _ => none

def kind? (volume : Volume) (path : String) : Option FileKind := (volume.node? path).map Node.kind

def absolutePath (route : Route) : String :=
  if route.isEmpty then "/" else String.join (route.map ("/" ++ ·))

/-- The absolute path that a path leads to, if that exists and the path is not too long. -/
def canonical? (volume : Volume) (path : String) : Option String :=
  match volume.resolve path with
  | .ok route =>
    let whole := absolutePath route
    if whole.utf8ByteSize < maxPathSize then some whole else none
  | .error _ => none

def names? (volume : Volume) (path : String) : Option (List String) :=
  match volume.node? path with
  | some (.directory entries) => some (Entries.names entries)
  | _ => none

def readText (volume : Volume) (path : String) : Except FileError String :=
  match volume.resolve path with
  | .error error => .error error
  | .ok route =>
    match volume.nodeAt? route with
    | some (.file bytes) =>
      match String.fromUTF8? bytes with
      | some text => .ok text
      | none => .error .notText
    | some (.directory _) => .error .isDirectory
    | _ => .error .notFound

end Volume

end CaptureAudit.Files
