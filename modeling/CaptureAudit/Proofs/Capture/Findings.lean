import CaptureAudit.Proofs.Capture.Positions

/-! # The walk as a recursion

The list of pending values is traded for a recursion over the document. The recursion knows of
each value whether it is examined as a rule: the value under `patterns` or `repository` of a rule
is not, and whatever it holds is. -/
namespace CaptureAudit

abbrev Finding := Position × Members

namespace Finding

def below (step : PathStep) (finding : Finding) : Finding := (step :: finding.1, finding.2)

def located (path : String) (finding : Finding) : CaptureObject :=
  ⟨path ++ finding.1.rendered, finding.2⟩

end Finding

theorem located_below (path : String) (step : PathStep) (found : List Finding) :
    (found.map (Finding.below step)).map (Finding.located path) =
      found.map (Finding.located (path ++ step.rendered)) := by
  simp [Finding.below, Finding.located, Position.rendered_cons, String.append_assoc]

namespace Document

def heldFinding? (members : Members) (key : String) : Option Finding :=
  match members.lookup key with
  | some (.object inner) => some ([.member key], inner)
  | _ => none

def heldFindings (members : Members) : List Finding :=
  captureKeys.filterMap (heldFinding? members)

mutual

/-- The capture objects in a value that is examined as a rule or, if `rule` is false, in a
collection. -/
def findings (rule : Bool) : Document → List Finding
  | array items => itemFindings 0 items
  | object members => (if rule then heldFindings members else []) ++ memberFindings rule members
  | _ => []

def itemFindings (index : Nat) : List Document → List Finding
  | [] => []
  | item :: rest =>
    (findings true item).map (Finding.below (.item index)) ++ itemFindings (index + 1) rest

def memberFindings (rule : Bool) : List (String × Document) → List Finding
  | [] => []
  | (name, value) :: rest =>
    (findings (!(rule && (PathStep.member name).isCollection)) value).map
      (Finding.below (.member name)) ++ memberFindings rule rest

end

theorem held_finding_iff {members : Members} {key : String} {q : Position} {inner : Members} :
    heldFinding? members key = some (q, inner) ↔
      members.lookup key = some (.object inner) ∧ q = [.member key] := by
  rw [heldFinding?]
  constructor
  · intro h
    split at h
    · rename_i found hl
      cases h
      exact ⟨hl, rfl⟩
    · cases h
  · rintro ⟨hl, rfl⟩
    simp [hl]

theorem findings_scalar {v : Document} (h : v.isContainer = false) (rule : Bool) :
    findings rule v = [] := by
  cases v <;> simp_all [isContainer, findings]

def visited (pending : Pending) : List CaptureObject :=
  (findings true pending.1).map (Finding.located pending.2)

theorem member_path_rendered (path name : String) :
    memberPath path name = path ++ (PathStep.member name).rendered := by
  simp [memberPath, PathStep.rendered, String.append_assoc]

theorem item_path_rendered (path : String) (index : Nat) :
    itemPath path index = path ++ (PathStep.item index).rendered := by
  simp [itemPath, PathStep.rendered, String.append_assoc]

theorem visited_items (path : String) (index : Nat) (items : List Document) :
    (pendingItems path index items).flatMap visited =
      (itemFindings index items).map (Finding.located path) := by
  induction items generalizing index with
  | nil => rfl
  | cons item rest ih =>
    simp only [pendingItems, itemFindings, List.flatMap_cons, List.map_append, ih, located_below,
      visited, item_path_rendered]

theorem visited_named (path : String) (members : Members) :
    (members.map fun (name, value) => (value, memberPath path name)).flatMap visited =
      (memberFindings false members).map (Finding.located path) := by
  induction members with
  | nil => rfl
  | cons first rest ih =>
    rw [List.map_cons, List.flatMap_cons, ih]
    simp only [memberFindings, List.map_append, located_below, visited, member_path_rendered,
      Bool.false_and, Bool.not_false]

theorem visited_collected (path : String) (value : Document) :
    (collected path value).flatMap visited = (findings false value).map (Finding.located path) := by
  cases value with
  | array items => exact visited_items path 0 items
  | object members => exact visited_named path members
  | _ => simp [collected, findings]

/-- A member is left out only if it is a scalar, and then nothing is found in it. -/
theorem visited_member (path name : String) (value : Document) :
    (pendingMember path name value).flatMap visited =
      (findings (!(PathStep.member name).isCollection) value).map
        (Finding.located (memberPath path name)) := by
  have hkeys : collectionKeys.contains name = (PathStep.member name).isCollection := by
    simp [collectionKeys, PathStep.isCollection]
  rw [pendingMember]
  rw [hkeys]
  split
  · rename_i h
    simp [h, visited_collected]
  · rename_i h
    split
    · simp [h, visited]
    · rename_i hc
      simp [findings_scalar (by simpa using hc)]

theorem visited_members (path : String) (members : Members) :
    (pendingMembers path members).flatMap visited =
      (memberFindings true members).map (Finding.located path) := by
  induction members with
  | nil => rfl
  | cons first rest ih =>
    simp only [pendingMembers, memberFindings, List.flatMap_append, List.map_append, ih,
      visited_member, located_below, Bool.true_and, member_path_rendered]

theorem held_eq (path : String) (members : Members) :
    heldCaptures path members = (heldFindings members).map (Finding.located path) := by
  rw [heldCaptures, heldFindings, List.map_filterMap]
  congr 1
  funext key
  rw [heldFinding?]
  cases members.lookup key with
  | none => rfl
  | some value => cases value <;> simp [Finding.located, Position.rendered, member_path_rendered]

/-- One step of the walk: what a value holds itself, then what its children lead to. -/
theorem visited_unfold (value : Document) (path : String) :
    visited (value, path) = value.held path ++ (value.children path).flatMap visited := by
  cases value with
  | array items => simp [visited, findings, held, children, visited_items]
  | object members =>
    simp [visited, findings, held, children, visited_members, held_eq]
  | _ => simp [visited, findings, held, children]

/-- Any account of what a pending value is worth, if it is right for one step, is right for the
walk: the pending values decide in order what is still to be found. -/
theorem walk_owes {worth : Pending → List CaptureObject}
    (hstep : ∀ value path, worth (value, path) =
      value.held path ++ (value.children path).flatMap worth)
    (found : List CaptureObject) (pending : List Pending) :
    walk found pending = found.reverse ++ pending.flatMap worth := by
  induction found, pending using walk.induct with
  | case1 found => simp [walk]
  | case2 found value path rest ih =>
    rw [walk, ih, List.flatMap_append, List.flatMap_cons, hstep]
    simp

theorem walk_eq (found : List CaptureObject) (pending : List Pending) :
    walk found pending = found.reverse ++ pending.flatMap visited :=
  walk_owes visited_unfold found pending

theorem capture_objects_eq_findings (v : Document) (label : String) :
    v.captureObjects label = (findings true v).map (Finding.located label) := by
  simp [captureObjects, walk_eq, visited]

end Document

end CaptureAudit
