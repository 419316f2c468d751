/-! # Similar words

The Jaro similarity of two words, as an exact fraction. Characters match if they are equal and
not too far apart; half of the matches that are out of order count against the similarity.
-/
namespace CaptureAudit.Command

structure Fraction where
  numerator : Nat
  denominator : Nat
  deriving DecidableEq, Repr

namespace Fraction

def lessThan (a b : Fraction) : Bool := a.numerator * b.denominator < b.numerator * a.denominator

end Fraction

/-- The first position from `low` up to, not including, `high` that holds `c` and is not taken. -/
def matchPosition? (c : Char) (word : List Char) (taken : List Nat) (low high : Nat) :
    Option Nat :=
  (List.range' low (high - low)).find? fun i => word[i]? == some c && !taken.contains i

def matchPositions (reach index : Nat) (other : List Char) (taken : List Nat) :
    List Char → List (Char × Nat)
  | [] => []
  | c :: rest =>
    match matchPosition? c other taken (index - reach) (min other.length (index + reach + 1)) with
    | some i => (c, i) :: matchPositions reach (index + 1) other (i :: taken) rest
    | none => matchPositions reach (index + 1) other taken rest

def similarity (a b : List Char) : Fraction :=
  if a.isEmpty && b.isEmpty then ⟨1, 1⟩
  else
    let reach := max a.length b.length / 2 - 1
    let found := matchPositions reach 0 b [] a
    let inOrder := (found.map Prod.snd).mergeSort.filterMap (b[·]?)
    let displaced := ((found.map Prod.fst).zip inOrder).countP fun (x, y) => x != y
    let m := found.length
    let kept := m - displaced / 2
    if m = 0 then ⟨0, 1⟩
    else
      ⟨m * b.length * m + m * a.length * m + kept * a.length * b.length,
        3 * a.length * b.length * m⟩

def suggestionBound : Fraction := ⟨7, 10⟩

/-- Keeps the better of a suggestion and a new candidate; the later of equals is better. -/
def betterSuggestion (best : Option (String × Fraction)) (candidate : String × Fraction) :
    Option (String × Fraction) :=
  if candidate.2.lessThan suggestionBound then best
  else match best with
    | some current => if candidate.2.lessThan current.2 then some current else some candidate
    | none => some candidate

def suggest? (word : String) (candidates : List String) : Option String :=
  let scored := candidates.map fun candidate =>
    (candidate, similarity word.toList candidate.toList)
  (scored.foldl betterSuggestion none).map Prod.fst

end CaptureAudit.Command
