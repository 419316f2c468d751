import CaptureAudit.Json.Reader
import CaptureAudit.Proofs.Json.RepeatedNames

/-! # Accepted texts

Reading on from a phase, with neither offsets nor causes: what is left is whether the rest of a
text is accepted, and as which document. Blanks and literal names are settled here. -/
namespace CaptureAudit.Json

open Grammar

/-- The document that reading on gives, if the rest of the text is accepted. -/
def accepted (phase : Phase) (context : List Frame) : List Char → Option Document
  | [] => (finishPhase phase context).toOption
  | c :: rest =>
    match feedPhase phase context c with
    | .ok (next, outer) => accepted next outer rest
    | .error _ => none

def follow (step : Step) (rest : List Char) : Option Document :=
  match step with
  | .ok (phase, context) => accepted phase context rest
  | .error _ => none

def resume (value : Document) (context : List Frame) (rest : List Char) : Option Document :=
  accepted (.gap (deliver value context).1) (deliver value context).2 rest

theorem accepted_cons (phase : Phase) (context : List Frame) (c : Char) (rest : List Char) :
    accepted phase context (c :: rest) = follow (feedPhase phase context c) rest := rfl

@[simp] theorem follow_enter (phase : Phase) (context : List Frame) (rest : List Char) :
    follow (.enter phase context) rest = accepted phase context rest := rfl

@[simp] theorem follow_stand (gap : Gap) (context : List Frame) (rest : List Char) :
    follow (.stand gap context) rest = accepted (.gap gap) context rest := rfl

@[simp] theorem follow_complete (value : Document) (context : List Frame) (rest : List Char) :
    follow (.complete value context) rest = resume value context rest := rfl

@[simp] theorem follow_fail (cause : Cause) (rest : List Char) :
    follow (.fail cause) rest = none := rfl

@[simp] theorem follow_error (fault : Cause × Nat) (rest : List Char) :
    follow (.error fault) rest = none := rfl

theorem run_accepted (s : State) (cs : List Char) :
    ((s.run cs).bind State.finish).toOption = accepted s.phase s.context cs := by
  induction cs generalizing s with
  | nil =>
    simp only [State.run, accepted, Except.bind, State.finish]
    cases finishPhase s.phase s.context <;> rfl
  | cons c rest ih =>
    simp only [State.run, accepted, State.feed]
    cases feedPhase s.phase s.context c with
    | error fault => rfl
    | ok next => exact ih _

theorem read_eq_run (text : String) :
    read text = (State.initial.run text.toList).bind State.finish := by
  rw [read]
  cases State.initial.run text.toList <;> rfl

theorem read_iff_accepted (text : String) (document : Document) :
    read text = .ok document ↔ accepted (.gap .value) [] text.toList = some document := by
  change _ ↔ accepted State.initial.phase State.initial.context text.toList = some document
  rw [read_eq_run, ← run_accepted State.initial]
  cases (State.initial.run text.toList).bind State.finish <;> simp [Except.toOption]

theorem isBlank_iff (c : Char) :
    isBlank c = true ↔ c = ' ' ∨ c = '\t' ∨ c = '\n' ∨ c = '\r' := by
  simp only [isBlank, Bool.or_eq_true, decide_eq_true_eq]
  tauto

theorem accepted_blank (gap : Gap) (context : List Frame) {c : Char} (h : isBlank c = true)
    (rest : List Char) :
    accepted (.gap gap) context (c :: rest) = accepted (.gap gap) context rest := by
  have hstep : feedPhase (.gap gap) context c = .stand gap context := by
    simp [feedPhase, feedGap, h]
  rw [accepted_cons, hstep, follow_stand]

theorem accepted_blanks (gap : Gap) (context : List Frame) {blanks : List Char}
    (h : Blanks blanks) (rest : List Char) :
    accepted (.gap gap) context (blanks ++ rest) = accepted (.gap gap) context rest := by
  induction blanks with
  | nil => rfl
  | cons c blanks ih =>
    have hc : isBlank c = true := (isBlank_iff c).mpr (h c List.mem_cons_self)
    rw [List.cons_append, accepted_blank gap context hc]
    exact ih fun c hc => h c (List.mem_cons_of_mem _ hc)

theorem accepted_token (gap : Gap) (context : List Frame) {c : Char} (h : isBlank c = false)
    (rest : List Char) : accepted (.gap gap) context (c :: rest) =
      follow (beginToken gap context c) rest := by
  rw [accepted_cons]
  simp [feedPhase, feedGap, h]

/-- After a gap either the text ends there, or a token begins. -/
theorem gap_cases {gap : Gap} {context : List Frame} {cs : List Char} {document : Document}
    (h : accepted (.gap gap) context cs = some document) : ∃ blanks rest, cs = blanks ++ rest ∧
      Blanks blanks ∧ (rest = [] ∧ gap.finish = .ok document ∨ ∃ c tail, rest = c :: tail ∧
        isBlank c = false ∧ follow (beginToken gap context c) tail = some document) := by
  induction cs with
  | nil =>
    refine ⟨[], [], rfl, by simp [Blanks], Or.inl ⟨rfl, ?_⟩⟩
    simp only [accepted, finishPhase] at h
    cases hf : gap.finish <;> simp_all [Except.toOption]
  | cons c rest ih =>
    by_cases hc : isBlank c = true
    · rw [accepted_blank gap context hc] at h
      obtain ⟨blanks, tail, rfl, hb, hr⟩ := ih h
      refine ⟨c :: blanks, tail, rfl, ?_, hr⟩
      intro b hm
      rcases List.mem_cons.mp hm with rfl | hm
      · exact (isBlank_iff b).mp hc
      · exact hb b hm
    · have hc : isBlank c = false := by simpa using hc
      rw [accepted_token gap context hc] at h
      exact ⟨[], c :: rest, rfl, by simp [Blanks], Or.inr ⟨c, rest, rfl, hc, h⟩⟩

theorem accepted_word (expected : Char) (after : List Char) (denotes : Document)
    (context : List Frame) (cs : List Char) (document : Document) :
    accepted (.word expected after denotes) context cs = some document ↔
      ∃ rest, cs = expected :: (after ++ rest) ∧ resume denotes context rest = some document := by
  induction after generalizing expected cs with
  | nil =>
    cases cs with
    | nil => simp [accepted, finishPhase, Except.toOption]
    | cons c rest =>
      rw [accepted_cons, feedPhase, feedWord]
      by_cases hc : c = expected <;> simp [hc]
  | cons following after ih =>
    cases cs with
    | nil => simp [accepted, finishPhase, Except.toOption]
    | cons c rest =>
      rw [accepted_cons, feedPhase, feedWord]
      by_cases hc : c = expected <;> simp [hc, ih]

end CaptureAudit.Json
