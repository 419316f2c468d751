import CaptureAudit.Document

/-! # Finding capture objects

Rules of a grammar can stand almost anywhere, so the walk goes down into every object and
array. A capture object is an object under one of the capture keys of an examined object. The
one level it does not examine is the collection that `patterns` or `repository` holds: there it
goes on with the collected rules. The nodes still to visit are a list, so nesting is no limit.
-/
namespace CaptureAudit

/-- A capture object and the route to it from the document's label. -/
structure CaptureObject where
  path : String
  members : Members
  deriving Repr

def CaptureObject.keys (capture : CaptureObject) : List String :=
  capture.members.map Prod.fst

/-- Keys whose object value is a capture object, in the order of the findings. -/
def captureKeys : List String := ["captures", "beginCaptures", "endCaptures", "whileCaptures"]

def collectionKeys : List String := ["patterns", "repository"]

def memberPath (path key : String) : String := path ++ "." ++ key

def itemPath (path : String) (index : Nat) : String := path ++ "[" ++ toString index ++ "]"

abbrev Pending := Document × String

namespace Document

def heldCaptures (path : String) (members : Members) : List CaptureObject :=
  captureKeys.filterMap fun key =>
    match members.lookup key with
    | some (.object inner) => some ⟨memberPath path key, inner⟩
    | _ => none

def pendingItems (path : String) (index : Nat) : List Document → List Pending
  | [] => []
  | item :: rest => (item, itemPath path index) :: pendingItems path (index + 1) rest

def collected (path : String) : Document → List Pending
  | array items => pendingItems path 0 items
  | object members => members.map fun (name, value) => (value, memberPath path name)
  | _ => []

/-- What a member leads to: its value, or the rules in it if it is a collection. -/
def pendingMember (path : String) (key : String) (value : Document) : List Pending :=
  if collectionKeys.contains key then collected (memberPath path key) value
  else if value.isContainer then [(value, memberPath path key)]
  else []

def pendingMembers (path : String) : Members → List Pending
  | [] => []
  | (key, value) :: rest => pendingMember path key value ++ pendingMembers path rest

def children (path : String) : Document → List Pending
  | array items => pendingItems path 0 items
  | object members => pendingMembers path members
  | _ => []

def held (path : String) : Document → List CaptureObject
  | object members => heldCaptures path members
  | _ => []

def pendingSize : List Pending → Nat
  | [] => 0
  | (value, _) :: rest => value.size + pendingSize rest

theorem pendingSize_append (a b : List Pending) :
    pendingSize (a ++ b) = pendingSize a + pendingSize b := by
  induction a with
  | nil => simp [pendingSize]
  | cons first rest ih => simp [pendingSize, ih, Nat.add_assoc]

theorem pendingSize_items (path : String) (index : Nat) (items : List Document) :
    pendingSize (pendingItems path index items) = sizeOfItems items := by
  induction items generalizing index with
  | nil => rfl
  | cons item rest ih => simp [pendingItems, pendingSize, sizeOfItems, ih]

theorem pendingSize_named (path : String) (members : Members) :
    pendingSize (members.map fun (name, value) => (value, memberPath path name)) =
      sizeOfMembers members := by
  induction members with
  | nil => rfl
  | cons first rest ih => simp [pendingSize, sizeOfMembers, ih]

theorem pendingSize_collected_le (path : String) (value : Document) :
    pendingSize (collected path value) ≤ value.size := by
  cases value <;>
    simp [collected, pendingSize, size, pendingSize_items, pendingSize_named]

theorem pendingSize_member_le (path key : String) (value : Document) :
    pendingSize (pendingMember path key value) ≤ value.size := by
  unfold pendingMember
  split
  · exact pendingSize_collected_le _ _
  · split <;> simp [pendingSize]

theorem pendingSize_members_le (path : String) (members : Members) :
    pendingSize (pendingMembers path members) ≤ sizeOfMembers members := by
  induction members with
  | nil => simp [pendingMembers, pendingSize]
  | cons first rest ih =>
    have := pendingSize_member_le path first.1 first.2
    simp only [pendingMembers, pendingSize_append, sizeOfMembers]
    omega

theorem pendingSize_children_lt (path : String) (value : Document) :
    pendingSize (value.children path) < value.size := by
  cases value with
  | array items => simp [children, size, pendingSize_items]
  | object members =>
    have := pendingSize_members_le path members
    simp only [children, size]
    omega
  | _ => simp [children, pendingSize, size]

/-- Visits the pending values in order; `found` holds the findings so far, last one first. -/
def walk (found : List CaptureObject) : List Pending → List CaptureObject
  | [] => found.reverse
  | (value, path) :: rest =>
    walk ((value.held path).reverse ++ found) (value.children path ++ rest)
termination_by pending => pendingSize pending
decreasing_by
  have := pendingSize_children_lt path value
  simp only [pendingSize, pendingSize_append]
  omega

/-- Every capture object in the document: depth first, in document order. -/
def captureObjects (document : Document) (label : String) : List CaptureObject :=
  walk [] [(document, label)]

end Document

end CaptureAudit
