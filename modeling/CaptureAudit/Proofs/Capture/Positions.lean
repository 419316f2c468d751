import CaptureAudit.Capture
import Mathlib.Algebra.Group.Nat.Even
import Mathlib.Data.List.DropRight
import Mathlib.Data.List.Nodup

/-! # Positions in documents

A position is the list of steps from the root to a value. Objects are looked up by name, so a
position names one value only where the members of each object have different names. -/
namespace CaptureAudit

inductive PathStep where
  | member (name : String)
  | item (index : Nat)
  deriving DecidableEq, Repr

abbrev Position := List PathStep

namespace PathStep

def isCollection : PathStep → Bool
  | member name => name = "patterns" || name = "repository"
  | item _ => false

def rendered : PathStep → String
  | member name => "." ++ name
  | item index => "[" ++ toString index ++ "]"

end PathStep

namespace Position

def rendered (p : Position) : String := String.join (p.map PathStep.rendered)

/-- How many steps at the end of a position, one after the other, lead into collections. -/
def trailingCollections (p : Position) : Nat := (p.rtakeWhile PathStep.isCollection).length

theorem rendered_cons (step : PathStep) (p : Position) :
    rendered (step :: p) = step.rendered ++ rendered p := by
  simp [rendered]

theorem trailing_concat (p : Position) (step : PathStep) :
    trailingCollections (p ++ [step]) =
      if step.isCollection then trailingCollections p + 1 else 0 := by
  unfold trailingCollections
  rw [List.rtakeWhile_concat]
  split <;> simp

end Position

namespace Document

def step? : Document → PathStep → Option Document
  | object members, .member name => members.lookup name
  | array items, .item index => items[index]?
  | _, _ => none

def at? (v : Document) : Position → Option Document
  | [] => some v
  | step :: rest => (v.step? step).bind (·.at? rest)

/-- The members of each object in the document have different names. -/
inductive DistinctNames : Document → Prop
  | scalar {v : Document} : v.isContainer = false → DistinctNames v
  | array {items : List Document} :
      (∀ item ∈ items, DistinctNames item) → DistinctNames (.array items)
  | object {members : Members} : (members.map Prod.fst).Nodup →
      (∀ member ∈ members, DistinctNames member.2) → DistinctNames (.object members)

theorem distinct_object {members : Members} :
    DistinctNames (.object members) ↔
      (members.map Prod.fst).Nodup ∧ ∀ member ∈ members, member.2.DistinctNames := by
  constructor
  · intro h
    cases h with
    | scalar h => cases h
    | object hd h => exact ⟨hd, h⟩
  · rintro ⟨hd, h⟩
    exact .object hd h

theorem distinct_array {items : List Document} :
    DistinctNames (.array items) ↔ ∀ item ∈ items, item.DistinctNames := by
  constructor
  · intro h
    cases h with
    | scalar h => cases h
    | array h => exact h
  · exact .array

theorem at_concat (v : Document) (p : Position) (step : PathStep) :
    v.at? (p ++ [step]) = (v.at? p).bind (·.step? step) := by
  induction p generalizing v with
  | nil => cases h : v.step? step <;> simp [at?, h]
  | cons first rest ih =>
    cases h : v.step? first with
    | none => simp [at?, h]
    | some w => simpa [at?, h] using ih w

theorem at_scalar {v w : Document} {p : Position} (hv : v.isContainer = false)
    (h : v.at? p = some w) : w = v := by
  cases p with
  | nil => exact (Option.some.inj h).symm
  | cons step p =>
    have hs : v.step? step = none := by cases v <;> cases step <;> first | rfl | cases hv
    simp [at?, hs] at h

@[elab_as_elim, induction_eliminator]
theorem induct {motive : Document → Prop}
    (scalar : ∀ v : Document, v.isContainer = false → motive v)
    (array : ∀ items : List Document, (∀ item ∈ items, motive item) → motive (.array items))
    (object : ∀ members : Members, (∀ member ∈ members, motive member.2) →
      motive (.object members)) : ∀ v, motive v
  | null => scalar _ rfl
  | bool _ => scalar _ rfl
  | integer _ => scalar _ rfl
  | float => scalar _ rfl
  | string _ => scalar _ rfl
  | .array items => array items fun item _ => induct scalar array object item
  | .object members => object members fun member _ => induct scalar array object member.2
termination_by v => sizeOf v
decreasing_by
  · rename_i h
    have := List.sizeOf_lt_of_mem h
    simp only [Document.array.sizeOf_spec]
    omega
  · rename_i h
    have := List.sizeOf_lt_of_mem h
    have : sizeOf member.2 < sizeOf member := by
      cases member
      simp only [Prod.mk.sizeOf_spec]
      omega
    simp only [Document.object.sizeOf_spec]
    omega

end Document

theorem lookup_cons_ite {α : Type} (name other : String) (value : α)
    (rest : List (String × α)) : List.lookup name ((other, value) :: rest) =
      if name = other then some value else rest.lookup name := by
  rw [List.lookup_cons]
  by_cases h : name = other
  · simp [h]
  · have hne : (name == other) = false := by simpa using h
    simp [h, hne]

theorem mem_iff_lookup {α : Type} {entries : List (String × α)}
    (h : (entries.map Prod.fst).Nodup) (name : String) (value : α) :
    (name, value) ∈ entries ↔ entries.lookup name = some value := by
  induction entries with
  | nil => simp
  | cons first rest ih =>
    obtain ⟨other, old⟩ := first
    simp only [List.map_cons, List.nodup_cons] at h
    by_cases hn : name = other
    · subst hn
      have : (name, value) ∉ rest := fun hm => h.1 (List.mem_map_of_mem hm)
      simp [this, eq_comm]
    · simp [hn, ih h.2, lookup_cons_ite]

end CaptureAudit
