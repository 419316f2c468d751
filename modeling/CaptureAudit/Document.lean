/-! # Grammar documents

The value that a JSON text denotes. Members keep the order of the text, since reported key
lists and the order of the findings follow it. A number that is not an integer within 64
bits only counts as a number: nothing in an audit depends on its value.
-/
namespace CaptureAudit

inductive Document where
  | null
  | bool (value : Bool)
  | integer (value : Int)
  | float
  | string (value : String)
  | array (items : List Document)
  | object (members : List (String × Document))
  deriving Repr

/-- Members of one object, in the order in which each name first occurred. -/
abbrev Members := List (String × Document)

namespace Members

/-- The member's new value takes the place of an earlier one of the same name. -/
def put (name : String) (value : Document) : Members → Members
  | [] => [(name, value)]
  | (other, old) :: rest =>
    if other = name then (name, value) :: rest else (other, old) :: put name value rest

end Members

namespace Document

def isContainer : Document → Bool
  | array _ => true
  | object _ => true
  | _ => false

mutual

def size : Document → Nat
  | array items => sizeOfItems items + 1
  | object members => sizeOfMembers members + 1
  | _ => 1

def sizeOfItems : List Document → Nat
  | [] => 0
  | item :: rest => item.size + sizeOfItems rest

def sizeOfMembers : List (String × Document) → Nat
  | [] => 0
  | (_, value) :: rest => value.size + sizeOfMembers rest

end

end Document

end CaptureAudit
