import CaptureAudit.Pattern.Fault

/-! # Nesting

Brackets, groups, repetitions, rows and choices count as levels, and there is a limit to them.
-/
namespace CaptureAudit.Pattern

def deeper (depth : Nat) (span : Span) : Except Fault Nat :=
  if depth < maxNesting then .ok (depth + 1) else .error ⟨.tooNested, span, none⟩

mutual

def ClassSet.checkNesting (depth : Nat) : ClassSet → Except Fault Unit
  | .bracketed span _ inner => do inner.checkNesting (← deeper depth span)
  | .union span items => do checkItems (← deeper depth span) items
  | .combined _ left right => do
    let depth ← deeper depth (left.span.join right.span)
    left.checkNesting depth
    right.checkNesting depth
  | _ => .ok ()

def ClassSet.checkItems (depth : Nat) : List ClassSet → Except Fault Unit
  | [] => .ok ()
  | item :: rest => do
    item.checkNesting depth
    checkItems depth rest

end

mutual

def Expression.checkNesting (depth : Nat) : Expression → Except Fault Unit
  | .bracketed span _ inner => do inner.checkNesting (← deeper depth span)
  | .repeated span _ _ inner => do inner.checkNesting (← deeper depth span)
  | .group span _ _ inner => do inner.checkNesting (← deeper depth span)
  | .alternatives span options => do checkAll (← deeper depth span) options
  | .sequence span items => do checkAll (← deeper depth span) items
  | _ => .ok ()

def Expression.checkAll (depth : Nat) : List Expression → Except Fault Unit
  | [] => .ok ()
  | item :: rest => do
    item.checkNesting depth
    checkAll depth rest

end

end CaptureAudit.Pattern
