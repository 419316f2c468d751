import CaptureAudit.Pattern.Matcher

/-! # The size of a pattern

A matcher is as large as an automaton that runs it over the bytes of a text, forwards or backwards,
with counted repetitions written out. Patterns whose automaton takes more than ten mebibytes are
refused.
-/
namespace CaptureAudit.Pattern

def maxSize : Nat := 10 * Nat.pow 2 20

/-- Bytes of one state, and of what it holds for each transition by bytes or by choice. -/
def stateSize : Nat := 32
def byteTransitionSize : Nat := 8
def choiceSize : Nat := 4

namespace CharSet

def cuts : CharSet → List Nat
  | empty => []
  | range low high => [low.toNat, high.toNat + 1]
  | union a b | inter a b => a.cuts ++ b.cuts
  | complement a => a.cuts
  | anyCase a => a.cuts ++ List.range 0x80

def joinInterval (interval : Nat × Nat) : List (Nat × Nat) → List (Nat × Nat)
  | [] => [interval]
  | (low, high) :: rest =>
    if interval.2 + 1 = low then (interval.1, high) :: rest else interval :: (low, high) :: rest

def intervals (set : CharSet) : List (Nat × Nat) :=
  let points := ([0, 0xD800, 0xE000, 0x110000] ++ set.cuts).mergeSort.eraseDups
  let parts := (points.zip points.tail).filter fun (low, _) =>
    low.isValidChar && set.mem (Char.ofNat low)
  (parts.map fun (low, next) => (low, next - 1)).foldr joinInterval []

end CharSet

/-! ## Encoded intervals -/

/-- Where an interval has to be split, so that each byte of its encoding is in a range of its own:
the end of its first part. -/
def splitPoint? (low high : Nat) : Option Nat :=
  let byLength := [0x7F, 0x7FF, 0xFFFF].find? fun last => low ≤ last && last < high
  let byBlock := [0x40, 0x1000, 0x40000].findSome? fun block =>
    if low / block = high / block || high ≤ 0x7F then none
    else if low % block != 0 then some (low / block * block + (block - 1))
    else if high % block != block - 1 then some (high / block * block - 1)
    else none
  byLength.or byBlock

def splitInterval : Nat → Nat × Nat → List (Nat × Nat)
  | 0, interval => [interval]
  | depth + 1, (low, high) =>
    match splitPoint? low high with
    | some last => splitInterval depth (low, last) ++ splitInterval depth (last + 1, high)
    | none => [(low, high)]

def encoding (code : Nat) : List UInt8 := (String.singleton (Char.ofNat code)).toUTF8.data.toList

def CharSet.sequences (set : CharSet) : List (List (UInt8 × UInt8)) :=
  (set.intervals.flatMap (splitInterval 32)).map fun (low, high) =>
    (encoding low).zip (encoding high)

/-- What is left of sequences behind each first range, and behind those that follow. -/
def residuals : Nat → List (List (UInt8 × UInt8)) → List (List (List (UInt8 × UInt8)))
  | 0, _ => []
  | depth + 1, sequences =>
    let heads := (sequences.filterMap List.head?).eraseDups
    if heads.isEmpty then []
    else sequences :: heads.flatMap fun head =>
      residuals depth ((sequences.filter (·.head? == some head)).map List.tail)

def sharedSize (sequences : List (List (UInt8 × UInt8))) : Nat :=
  let states := (residuals 4 sequences).eraseDups
  states.foldl (fun total state =>
    let transitions := (state.filterMap List.head?).eraseDups.length
    total + stateSize + if transitions = 1 then 0 else byteTransitionSize * transitions) stateSize

def branchedSize (sequences : List (List (UInt8 × UInt8))) : Nat :=
  let starts := (sequences.flatMap fun sequence =>
    (List.range' 1 sequence.length).map sequence.take).eraseDups
  2 * stateSize + choiceSize * sequences.length + stateSize * starts.length

def CharSet.size (backwards : Bool) (set : CharSet) : Nat :=
  match set.intervals with
  | [] => stateSize
  | [(low, high)] =>
    if low = high then stateSize * (encoding low).length
    else if high ≤ 0x7F then 2 * stateSize
    else if backwards then branchedSize set.sequences else sharedSize set.sequences
  | intervals =>
    if intervals.all fun (_, high) => high ≤ 0x7F then
      2 * stateSize + byteTransitionSize * intervals.length
    else if backwards then branchedSize set.sequences else sharedSize set.sequences

/-! ## Matchers -/

namespace Matcher

def takesNothing : Matcher → Bool
  | empty | look _ => true
  | char _ => false
  | both first second | either first second => first.takesNothing && second.takesNothing
  | repeated _ _ inner | captured inner => inner.takesNothing

def mayTakeNothing : Matcher → Bool
  | empty | look _ => true
  | char _ => false
  | both first second => first.mayTakeNothing && second.mayTakeNothing
  | either first second => first.mayTakeNothing || second.mayTakeNothing
  | repeated min _ inner => min = 0 || inner.mayTakeNothing
  | captured inner => inner.mayTakeNothing

def forkSize : Nat := stateSize + 2 * choiceSize

def repetitionSize (inner : Nat) (mayTakeNothing : Bool) (min : Nat) : Option Nat → Nat
  | none =>
    if min = 0 && mayTakeNothing then inner + 2 * forkSize + stateSize
    else Nat.max 1 min * inner + forkSize
  | some max =>
    if min = max then min * inner
    else if min = 0 && max = 1 then inner + forkSize + stateSize
    else (if min = 0 then stateSize else min * inner) + stateSize + (max - min) * (inner + forkSize)

/-- A matcher's size, in one direction; places of groups are kept only forwards. -/
def size (backwards : Bool) : Matcher → Nat
  | empty | look _ => stateSize
  | char set => set.size backwards
  | both first second => first.size backwards + second.size backwards
  | either first second =>
    first.size backwards + second.size backwards +
      match first with
      | either _ _ => choiceSize
      | _ => forkSize + stateSize
  | repeated min max inner =>
    if inner.takesNothing then
      repetitionSize (inner.size backwards) true (Nat.min min 1) (some (Nat.min (max.getD 1) 1))
    else repetitionSize (inner.size backwards) inner.mayTakeNothing min max
  | captured inner => inner.size backwards + if backwards then 0 else 2 * stateSize

def frameSize : Nat := 2 * forkSize + 3 * stateSize

def isTooLarge (matcher : Matcher) : Bool :=
  Nat.max (matcher.size false) (matcher.size true) + frameSize > maxSize

end Matcher

end CaptureAudit.Pattern
