/-! # Output sinks

A sink takes bytes until its room is used up, and fails on the first byte that it cannot take.
What it took before that stays taken.
-/
namespace CaptureAudit

structure Sink where
  /-- Bytes that the sink still takes; `none` if it never fails. -/
  room : Option Nat
  taken : ByteArray

namespace Sink

def unlimited : Sink := ⟨none, .empty⟩

def ofLimit (limit : Option Nat) : Sink := ⟨limit, .empty⟩

/-- Writes a text; the error is the sink as full as it got. -/
def write (sink : Sink) (text : String) : Except Sink Sink :=
  let bytes := text.toUTF8
  match sink.room with
  | none => .ok ⟨none, sink.taken ++ bytes⟩
  | some room =>
    if bytes.size ≤ room then .ok ⟨some (room - bytes.size), sink.taken ++ bytes⟩
    else .error ⟨some 0, sink.taken ++ bytes.extract 0 room⟩

end Sink

/-- The longest text whose bytes the given ones begin with, if they are a cut of a text. -/
def textOfCut (bytes : ByteArray) : String :=
  let cuts := [0, 1, 2, 3].filterMap fun lost =>
    String.fromUTF8? (bytes.extract 0 (bytes.size - lost))
  cuts.headD ""

end CaptureAudit
