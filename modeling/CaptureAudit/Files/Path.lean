import CaptureAudit.Text.Pieces

/-! # Texts of paths

How the text of a path is cut into names, made longer by a name, and put in order.
-/
namespace CaptureAudit.Files

def isAbsolute (path : String) : Bool := path.toList.head? = some '/'

def endsInSlash (path : String) : Bool := path.toList.getLast? = some '/'

/-- The names in a path. A slash at the end asks for a directory, as a last `.` does. -/
def pathNames (path : String) : List String :=
  (Text.piecesOf '/' path).filter (· != "") ++ if endsInSlash path then ["."] else []

/-- A path one name longer. The directory `.` itself is left out, and a slash at the end is not
doubled. -/
def extendPath (path name : String) : String :=
  if path = "." then name
  else if endsInSlash path then path ++ name
  else path ++ "/" ++ name

inductive Component where
  | root
  | here
  | parent
  | name (text : String)
  deriving DecidableEq, Repr

namespace Component

def ofPiece (piece : String) : Component :=
  if piece = "." then here else if piece = ".." then parent else name piece

def rank : Component → Nat
  | root => 0
  | here => 1
  | parent => 2
  | name _ => 3

def text : Component → String
  | name text => text
  | _ => ""

def order (a b : Component) : Ordering := (compare a.rank b.rank).then (compare a.text b.text)

end Component

/-- Empty names do not count, and `.` counts only where a path begins with it. -/
def components (path : String) : List Component :=
  let pieces := (Text.piecesOf '/' path).filter (· != "")
  let first := if isAbsolute path then [.root] else
    if pieces.head? = some "." then [.here] else []
  first ++ (pieces.filter (· != ".")).map Component.ofPiece

def fileName (path : String) : String := ((components path).getLast?.map Component.text).getD ""

def pathOrder (a b : String) : Ordering := List.compareLex Component.order (components a) (components b)

def sortPaths (paths : List String) : List String :=
  paths.mergeSort fun a b => (pathOrder a b).isLE

def sortNames (names : List String) : List String :=
  names.mergeSort fun a b => (compare a b).isLE

end CaptureAudit.Files
