import Std.Data.ExtTreeSet

/-! # Keys of capture objects

A key is a group index (ASCII digits), a recognised annotation, or neither. Group indices
are ordered by the number that they spell; the spelling breaks ties, so `1` and `01` are
different keys. No key is ever read as a machine integer, so any length is fine.
-/
namespace CaptureAudit

inductive KeyClass where
  | numeric
  | special
  | invalid
  deriving DecidableEq, Repr

def isGroupIndex (key : String) : Bool :=
  key != "" && key.toList.all Char.isDigit

theorem isGroupIndex_iff (key : String) :
    isGroupIndex key = true ↔ key ≠ "" ∧ ∀ c ∈ key.toList, c.isDigit = true := by
  simp [isGroupIndex]

def annotationKeys : List String := ["comment", "//"]

def classifyKey (key : String) : KeyClass :=
  if isGroupIndex key then .numeric
  else if annotationKeys.contains key then .special
  else .invalid

structure NumericKey where
  text : String
  isIndex : isGroupIndex text = true
  deriving DecidableEq, Repr

namespace NumericKey

def ofString? (key : String) : Option NumericKey :=
  if h : isGroupIndex key = true then some ⟨key, h⟩ else none

/-- The spelling without leading zeros; zero itself is `0`. -/
def normalized (key : NumericKey) : String :=
  match key.text.toList.dropWhile (· == '0') with
  | [] => "0"
  | digits => String.ofList digits

theorem text_injective {a b : NumericKey} (h : a.text = b.text) : a = b := by
  cases a; cases b; cases h; rfl

/-- Fewer significant digits first, then digit by digit, then by spelling. -/
instance : Ord NumericKey where
  compare := compareLex (compareOn fun key => key.normalized.length)
    (compareLex (compareOn normalized) (compareOn text))

instance : Std.TransOrd NumericKey :=
  inferInstanceAs <| Std.TransCmp <|
    compareLex (compareOn fun key : NumericKey => key.normalized.length)
      (compareLex (compareOn normalized) (compareOn text))

instance : Std.LawfulEqOrd NumericKey where
  eq_of_compare {a b} h := by
    simp only [compare, compareLex, Ordering.then_eq_eq] at h
    exact text_injective (Std.LawfulEqOrd.eq_of_compare h.2.2)

instance : ToString NumericKey := ⟨text⟩

end NumericKey

def NumericKey.sort (keys : List NumericKey) : List NumericKey :=
  keys.mergeSort fun a b => (compare a b).isLE

abbrev NumericKeys := Std.ExtTreeSet NumericKey

abbrev SpecialKeys := Std.ExtTreeSet String

end CaptureAudit
