import CaptureAudit.Proofs.Capture.Findings
import Mathlib.Logic.Function.Iterate

/-! # The loop and the recursion

The walk is a loop over a stack: the top value is taken, and its children are put in its place, the
last one first. The same findings, in the same order, are told by a recursion over the document that
knows of no stack. A round only takes values apart, so there are no more rounds than values. -/
namespace CaptureAudit.Document

/-- What the loop holds between two rounds; the top of the stack is its last entry. -/
structure Loop where
  found : List CaptureObject
  stack : List Pending

namespace Loop

def start (v : Document) (label : String) : Loop := ⟨[], [(v, label)]⟩

/-- Visits the value on the top. Its children come off the stack in document order. -/
def round (loop : Loop) : Loop :=
  match loop.stack.getLast? with
  | none => loop
  | some (value, path) =>
    ⟨loop.found ++ value.held path, loop.stack.dropLast ++ (value.children path).reverse⟩

theorem round_reverse (found : List CaptureObject) (value : Document) (path : String)
    (rest : List Pending) : round ⟨found, ((value, path) :: rest).reverse⟩ =
      ⟨found ++ value.held path, (value.children path ++ rest).reverse⟩ := by
  simp [round]

end Loop

/-- The stack is emptied, with one value less to visit after each round. -/
theorem loop_ends (found : List CaptureObject) (pending : List Pending) :
    ∃ rounds ≤ pendingSize pending,
      Loop.round^[rounds] ⟨found.reverse, pending.reverse⟩ = ⟨walk found pending, []⟩ := by
  induction found, pending using walk.induct with
  | case1 found => exact ⟨0, Nat.le_refl 0, by simp [walk]⟩
  | case2 found value path rest ih =>
    obtain ⟨rounds, hle, hrun⟩ := ih
    have hless := pendingSize_children_lt path value
    rw [pendingSize_append] at hle
    refine ⟨rounds + 1, ?_, ?_⟩
    · simp only [pendingSize]
      omega
    · rw [Function.iterate_succ_apply, Loop.round_reverse, walk, ← hrun]
      simp

def ownCaptures (path : String) (members : Members) : List CaptureObject :=
  ["captures", "beginCaptures", "endCaptures", "whileCaptures"].flatMap fun key =>
    match members.lookup key with
    | some (.object inner) => [⟨path ++ "." ++ key, inner⟩]
    | _ => []

mutual

/-- The capture objects of a value with the path `path`: its own, then those of what it holds. -/
def capturesOf (path : String) : Document → List CaptureObject
  | array items => itemCaptures path 0 items
  | object members => ownCaptures path members ++ memberCaptures path members
  | _ => []

def itemCaptures (path : String) (index : Nat) : List Document → List CaptureObject
  | [] => []
  | item :: rest =>
    capturesOf (path ++ "[" ++ toString index ++ "]") item ++ itemCaptures path (index + 1) rest

/-- Under `patterns` and `repository` the rules are gone into, and not their collection. -/
def memberCaptures (path : String) : List (String × Document) → List CaptureObject
  | [] => []
  | (key, value) :: rest =>
    (if key = "patterns" ∨ key = "repository" then collectionCaptures (path ++ "." ++ key) value
      else if value.isContainer then capturesOf (path ++ "." ++ key) value
      else []) ++ memberCaptures path rest

def collectionCaptures (path : String) : Document → List CaptureObject
  | array items => itemCaptures path 0 items
  | object members => ruleCaptures path members
  | _ => []

def ruleCaptures (path : String) : List (String × Document) → List CaptureObject
  | [] => []
  | (name, value) :: rest => capturesOf (path ++ "." ++ name) value ++ ruleCaptures path rest

end

def pendingCaptures (pending : Pending) : List CaptureObject := capturesOf pending.2 pending.1

theorem own_captures_eq (path : String) (members : Members) :
    heldCaptures path members = ownCaptures path members := by
  rw [heldCaptures, ownCaptures, List.filterMap_eq_flatMap_toList]
  refine List.flatMap_congr fun key _ => ?_
  cases members.lookup key with
  | none => rfl
  | some value => cases value <;> rfl

theorem item_captures_eq (path : String) (index : Nat) (items : List Document) :
    (pendingItems path index items).flatMap pendingCaptures = itemCaptures path index items := by
  induction items generalizing index with
  | nil => rfl
  | cons item rest ih =>
    rw [pendingItems, List.flatMap_cons, ih, itemCaptures]
    rfl

theorem rule_captures_eq (path : String) (members : Members) :
    (members.map fun (name, value) => (value, memberPath path name)).flatMap pendingCaptures =
      ruleCaptures path members := by
  induction members with
  | nil => rfl
  | cons first rest ih =>
    rw [List.map_cons, List.flatMap_cons, ih, ruleCaptures]
    rfl

theorem collection_captures_eq (path : String) (value : Document) :
    (collected path value).flatMap pendingCaptures = collectionCaptures path value := by
  cases value with
  | array items => exact item_captures_eq path 0 items
  | object members => exact rule_captures_eq path members
  | _ => rfl

theorem member_captures_eq (path : String) (members : Members) :
    (pendingMembers path members).flatMap pendingCaptures = memberCaptures path members := by
  induction members with
  | nil => rfl
  | cons first rest ih =>
    obtain ⟨key, value⟩ := first
    have hcollection : collectionKeys.contains key = true ↔
        key = "patterns" ∨ key = "repository" := by
      simp [collectionKeys]
    rw [pendingMembers, List.flatMap_append, ih, memberCaptures, pendingMember]
    by_cases hkey : key = "patterns" ∨ key = "repository"
    · rw [if_pos hkey, if_pos (hcollection.mpr hkey), collection_captures_eq]
      rfl
    · rw [if_neg hkey, if_neg (mt hcollection.mp hkey)]
      split
      · rw [List.flatMap_singleton]
        rfl
      · rfl

theorem captures_unfold (value : Document) (path : String) :
    pendingCaptures (value, path) =
      value.held path ++ (value.children path).flatMap pendingCaptures := by
  cases value with
  | array items => exact (item_captures_eq path 0 items).symm
  | object members =>
    rw [children, member_captures_eq, held, own_captures_eq]
    rfl
  | _ => rfl

theorem captures_recursive (v : Document) (label : String) :
    v.captureObjects label = capturesOf label v := by
  rw [captureObjects, walk_owes captures_unfold]
  exact List.append_nil _

theorem captures_relabelled (v : Document) (label : String) :
    v.captureObjects label = (v.captureObjects "").map fun capture =>
      { capture with path := label ++ capture.path } := by
  rw [capture_objects_eq_findings, capture_objects_eq_findings, List.map_map]
  refine List.map_congr_left fun finding _ => ?_
  simp [Finding.located]

/-- The loop ends after as many rounds as there are values at most. What it has found is what the
walk gives, and what the recursion tells, in the same order; the label goes before every path. -/
theorem walk_refines_recursion (v : Document) (label : String) :
    (∃ rounds ≤ v.size,
      Loop.round^[rounds] (Loop.start v label) = ⟨v.captureObjects label, []⟩) ∧
    v.captureObjects label = capturesOf label v ∧
    capturesOf label v = (capturesOf "" v).map fun capture =>
      { capture with path := label ++ capture.path } := by
  refine ⟨?_, captures_recursive v label, ?_⟩
  · obtain ⟨rounds, hle, hrun⟩ := loop_ends [] [(v, label)]
    exact ⟨rounds, hle, hrun⟩
  · rw [← captures_recursive, ← captures_recursive]
    exact captures_relabelled v label

end CaptureAudit.Document
