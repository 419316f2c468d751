import CaptureAudit.Proofs.Json.Acceptance
import CaptureAudit.Proofs.Json.Steps
import CaptureAudit.Proofs.Text.SharedBytes

/-! # States that a text leads to

A text that is read leads through one state for each of its cuts. Reading goes on from such a state
as if nothing had been before it, and what one step preserves holds of all of them. -/
namespace CaptureAudit.Json

variable {s : State} {c : Char} {before rest : List Char} {fault : Fault}

inductive Reaches : List Char → State → Prop
  | initial : Reaches [] .initial
  | step {before : List Char} {c : Char} {s next : State} : Reaches before s →
      s.feed c = .ok next → Reaches (before ++ [c]) next

theorem feed_ok {next : State} (h : s.feed c = .ok next) :
    feedPhase s.phase s.context c = .ok (next.phase, next.context) ∧
      next.offset = s.offset + c.utf8Size := by
  rw [State.feed] at h
  split at h
  · rename_i hphase
    cases h
    exact ⟨hphase, rfl⟩
  · cases h

theorem feed_error (h : s.feed c = .error fault) : ∃ bytes,
    feedPhase s.phase s.context c = .error (fault.cause, bytes) ∧
      fault.offset = s.offset + bytes := by
  rw [State.feed] at h
  split at h
  · cases h
  · rename_i cause bytes hphase
    cases h
    exact ⟨bytes, hphase, rfl⟩

theorem finish_error (h : s.finish = .error fault) :
    finishPhase s.phase s.context = .error fault.cause ∧ fault.offset = s.offset := by
  rw [State.finish] at h
  split at h
  · cases h
  · rename_i cause hphase
    cases h
    exact ⟨hphase, rfl⟩

theorem reaches_run (h : Reaches before s) (rest : List Char) :
    State.initial.run (before ++ rest) = s.run rest := by
  induction h generalizing rest with
  | initial => rfl
  | step _ hfeed ih =>
    rw [List.append_assoc, ih, List.singleton_append, State.run, hfeed]

theorem reaches_read {text : String} (h : Reaches before s) (htext : text.toList = before ++ rest) :
    read text = (s.run rest).bind State.finish := by
  rw [read_eq_run, htext, reaches_run h]

theorem reaches_wellFormed (h : Reaches before s) : s.phase.WellFormed := by
  induction h with
  | initial => exact trivial
  | step _ hfeed ih => exact moves_wellFormed (feed_moves (feed_ok hfeed).1) ih

theorem reaches_offset (h : Reaches before s) : s.offset = (encoded before).length := by
  induction h with
  | initial => rfl
  | step _ hfeed ih =>
    rw [(feed_ok hfeed).2, ih, encoded_append, List.length_append, encoded_cons, encoded_nil,
      List.append_nil, String.length_utf8EncodeChar]

/-- Reading on fails before another character is read: at the next one, or at the end. -/
inductive Stops (s : State) : List Char → Fault → Prop
  | char {c : Char} {rest : List Char} {fault : Fault} : s.feed c = .error fault →
      Stops s (c :: rest) fault
  | finish {fault : Fault} : s.finish = .error fault → Stops s [] fault

theorem stops_run (h : Stops s rest fault) : (s.run rest).bind State.finish = .error fault := by
  cases h with
  | char hfeed =>
    rw [State.run, hfeed]
    rfl
  | finish hfinish => exact hfinish

theorem run_stops (hreaches : Reaches before s)
    (h : (s.run rest).bind State.finish = .error fault) :
    ∃ more after t, rest = more ++ after ∧ Reaches (before ++ more) t ∧ Stops t after fault := by
  induction rest generalizing s before with
  | nil =>
    refine ⟨[], [], s, rfl, ?_, .finish h⟩
    rwa [List.append_nil]
  | cons c rest ih =>
    rw [State.run] at h
    cases hfeed : s.feed c with
    | error found =>
      rw [hfeed] at h
      cases h
      refine ⟨[], c :: rest, s, rfl, ?_, .char hfeed⟩
      rwa [List.append_nil]
    | ok next =>
      rw [hfeed] at h
      obtain ⟨more, after, t, rfl, ht, hstops⟩ := ih (hreaches.step hfeed) h
      refine ⟨c :: more, after, t, rfl, ?_, hstops⟩
      rwa [List.append_assoc] at ht

/-- The part of a refused text that can be read ends where the text is found wrong. -/
theorem read_stops {text : String} (h : read text = .error fault) :
    ∃ before rest s, text.toList = before ++ rest ∧ Reaches before s ∧ Stops s rest fault := by
  rw [read_eq_run] at h
  exact run_stops .initial h

/-- Every cut of a text that is accepted leads to a state, from which the rest is accepted. -/
theorem accepted_reaches {more : List Char} {document : Document} (hreaches : Reaches before s)
    (h : accepted s.phase s.context (more ++ rest) = some document) :
    ∃ t, Reaches (before ++ more) t ∧ accepted t.phase t.context rest = some document := by
  induction more generalizing s before with
  | nil =>
    refine ⟨s, ?_, h⟩
    rwa [List.append_nil]
  | cons c more ih =>
    rw [List.cons_append, accepted_cons] at h
    cases hfeed : s.feed c with
    | error found =>
      obtain ⟨bytes, hphase, -⟩ := feed_error hfeed
      rw [hphase] at h
      cases h
    | ok next =>
      rw [(feed_ok hfeed).1] at h
      obtain ⟨t, ht, hrest⟩ := ih (hreaches.step hfeed) h
      refine ⟨t, ?_, hrest⟩
      rwa [List.append_assoc] at ht

end CaptureAudit.Json
