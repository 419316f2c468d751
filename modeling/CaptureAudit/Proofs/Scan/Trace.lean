import CaptureAudit.Proofs.Scan.Totals

/-! # What a scan does, event by event

A scan writes texts and logs records, and nothing of that comes back to it. So whatever state it
starts from, it does the same things in the same order, until the sink refuses a text. -/
namespace CaptureAudit

inductive ScanEvent where
  | write (text : String)
  | log (records : List LogRecord)

namespace ScanEvent

/-- Does what the events say, up to the first text that the sink refuses. -/
def play : List ScanEvent → Progress → Except Progress Progress
  | [], progress => .ok progress
  | write text :: rest, progress =>
    match progress.sink.write text with
    | .ok sink => play rest { progress with sink := sink }
    | .error sink => .error { progress with sink := sink }
  | log records :: rest, progress => play rest { progress with log := progress.log ++ records }

/-- Everything the events write, if nothing is refused. -/
def written : List ScanEvent → String
  | [] => ""
  | write text :: rest => text ++ written rest
  | log _ :: rest => written rest

def logged : List ScanEvent → List LogRecord
  | [] => []
  | write _ :: rest => logged rest
  | log records :: rest => records ++ logged rest

theorem written_append (first second : List ScanEvent) :
    written (first ++ second) = written first ++ written second := by
  induction first with
  | nil => simp [written]
  | cons event rest ih => cases event <;> simp [written, ih, String.append_assoc]

theorem logged_append (first second : List ScanEvent) :
    logged (first ++ second) = logged first ++ logged second := by
  induction first with
  | nil => rfl
  | cons event rest ih => cases event <;> simp [logged, ih]

theorem play_append (first second : List ScanEvent) (progress : Progress) :
    play (first ++ second) progress = (play first progress).bind (play second) := by
  induction first generalizing progress with
  | nil => rfl
  | cons event rest ih =>
    cases event with
    | log records => exact ih _
    | write text =>
      simp only [List.cons_append, play]
      cases progress.sink.write text with
      | ok sink => exact ih _
      | error sink => rfl

theorem play_unlimited (events : List ScanEvent) (taken : ByteArray) (records : List LogRecord) :
    play events ⟨⟨none, taken⟩, records⟩ =
      .ok ⟨⟨none, taken ++ (written events).toUTF8⟩, records ++ logged events⟩ := by
  induction events generalizing taken records with
  | nil => simp [play, written, logged]
  | cons event rest ih =>
    cases event with
    | log more => simp [play, ih, written, logged]
    | write text =>
      simp only [play, Sink.write, ih, written, logged]
      simp [ByteArray.append_assoc]

end ScanEvent

open ScanEvent (play)

def GrammarFile.statusLine (file : GrammarFile) : String :=
  Report.fileStatus file.name file.analyze.result

namespace Scan

variable {α β : Type}

/-- How a scan ends whose events were played: a refused text takes the place of its result. -/
def ended (result : Except ScanError α) :
    Except Progress Progress → Except ScanError α × Progress
  | .ok after => (result, after)
  | .error after => (.error .sinkFull, after)

/-- From every state, the scan does what the events say and ends with the result. -/
def Performs (scan : Scan α) (events : List ScanEvent) (result : Except ScanError α) : Prop :=
  ∀ progress, (ExceptT.run scan).run progress = ended result (play events progress)

theorem run_bind (first : Scan α) (next : α → Scan β) (progress : Progress) :
    (ExceptT.run (first >>= next)).run progress =
      match (ExceptT.run first).run progress with
      | (.ok value, middle) => (ExceptT.run (next value)).run middle
      | (.error error, middle) => (.error error, middle) := by
  rw [ExceptT.run_bind, StateT.run_bind]
  cases (ExceptT.run first).run progress with
  | mk result middle => cases result <;> rfl

theorem performs_pure (value : α) : Performs (pure value) [] (.ok value) := fun _ => rfl

theorem performs_throw (error : ScanError) : Performs (throw error : Scan α) [] (.error error) :=
  fun _ => rfl

theorem performs_log (records : List LogRecord) :
    Performs (log records) [.log records] (.ok ()) := fun _ => rfl

theorem run_write (text : String) (progress : Progress) :
    (ExceptT.run (write text)).run progress =
      match progress.sink.write text with
      | .ok sink => (.ok (), { progress with sink := sink })
      | .error sink => (.error .sinkFull, { progress with sink := sink }) := by
  change (ExceptT.run (match progress.sink.write text with
    | .ok sink => modify fun progress => { progress with sink := sink }
    | .error sink => do
      modify fun progress => { progress with sink := sink }
      throw .sinkFull : Scan Unit)).run progress = _
  cases progress.sink.write text <;> rfl

theorem performs_write (text : String) : Performs (write text) [.write text] (.ok ()) := by
  intro progress
  rw [run_write, play]
  cases progress.sink.write text <;> rfl

theorem performs_bind {first : Scan α} {next : α → Scan β} {value : α}
    {before after : List ScanEvent} {result : Except ScanError β}
    (hf : Performs first before (.ok value)) (hn : Performs (next value) after result) :
    Performs (first >>= next) (before ++ after) result := by
  intro progress
  rw [run_bind, hf, ScanEvent.play_append]
  cases play before progress with
  | ok middle => exact hn middle
  | error middle => rfl

theorem performs_after (text : String) {next : Scan β} {after : List ScanEvent}
    {result : Except ScanError β} (hn : Performs next after result) :
    Performs (write text >>= fun _ => next) (.write text :: after) result :=
  performs_bind (performs_write text) hn

theorem performs_bind_error {first : Scan α} {next : α → Scan β} {error : ScanError}
    {events : List ScanEvent} (hf : Performs first events (.error error)) :
    Performs (first >>= next) events (.error error) := by
  intro progress
  rw [run_bind, hf]
  cases play events progress <;> rfl

def fileEvents (grammar : GrammarFile) : List ScanEvent :=
  [.log grammar.analyze.log, .write grammar.statusLine]

theorem written_files (files : List GrammarFile) :
    ScanEvent.written (files.flatMap fileEvents) =
      String.join (files.map GrammarFile.statusLine) := by
  induction files with
  | nil => rfl
  | cons file rest ih =>
    rw [List.flatMap_cons, ScanEvent.written_append, ih, List.map_cons, String.join_cons]
    simp [fileEvents, ScanEvent.written]

theorem logged_files (files : List GrammarFile) :
    ScanEvent.logged (files.flatMap fileEvents) = files.flatMap (·.analyze.log) := by
  induction files with
  | nil => rfl
  | cons file rest ih =>
    rw [List.flatMap_cons, ScanEvent.logged_append, ih, List.flatMap_cons]
    simp [fileEvents, ScanEvent.logged]

theorem performs_file (summary : Summary) (grammar : GrammarFile) :
    Performs (file summary grammar) (fileEvents grammar)
      (.ok (summary.record grammar.name grammar.analyze.result)) := by
  rw [file]
  refine performs_bind (performs_log _) ?_
  exact performs_bind (performs_write _) (performs_pure _)

theorem performs_files (summary : Summary) (files : List GrammarFile) :
    Performs (files.foldlM file summary) (files.flatMap fileEvents)
      (.ok (summary.ofFiles files)) := by
  induction files generalizing summary with
  | nil => exact performs_pure summary
  | cons grammar rest ih =>
    rw [List.foldlM_cons, List.flatMap_cons]
    exact performs_bind (performs_file summary grammar) (ih _)

end Scan

namespace Survey

open ScanEvent (written logged)

def totals (s : Survey) : LogRecord := Scan.totalsRecord (Summary.empty.ofFiles s.files)

def events (s : Survey) : List ScanEvent :=
  match s.canonical with
  | none => []
  | some canonical =>
    .write (Report.header canonical) ::
      if s.files.isEmpty then []
      else .write (Report.fileCount s.files.length) ::
        (s.files.flatMap Scan.fileEvents ++ [.log [s.totals]])

def outcome (s : Survey) : Except ScanError Summary :=
  match s.canonical with
  | none => .error (.directoryNotFound s.directory)
  | some _ =>
    if s.files.isEmpty then .error (.noGrammarFiles s.directory)
    else .ok (Summary.empty.ofFiles s.files)

def textThrough (s : Survey) (canonical : String) (files : List GrammarFile) : String :=
  Report.header canonical ++ Report.fileCount s.files.length ++
    String.join (files.map GrammarFile.statusLine)

variable {s : Survey} {canonical : String}

theorem events_of_files (hc : s.canonical = some canonical) (hf : s.files.isEmpty = false) :
    s.events = .write (Report.header canonical) :: .write (Report.fileCount s.files.length) ::
      (s.files.flatMap Scan.fileEvents ++ [.log [s.totals]]) := by
  simp [events, hc, hf]

theorem written_events (hc : s.canonical = some canonical) (hf : s.files.isEmpty = false) :
    written s.events = s.textThrough canonical s.files := by
  rw [events_of_files hc hf, written, written, ScanEvent.written_append, Scan.written_files,
    textThrough]
  simp [written, String.append_assoc]

theorem logged_events (hc : s.canonical = some canonical) (hf : s.files.isEmpty = false) :
    logged s.events = s.files.flatMap (·.analyze.log) ++ [s.totals] := by
  rw [events_of_files hc hf, logged, logged, ScanEvent.logged_append, Scan.logged_files]
  rfl

end Survey

namespace Scan

theorem performs_survey (s : Survey) : Performs (survey s) s.events s.outcome := by
  rw [survey, Survey.events, Survey.outcome]
  cases s.canonical with
  | none => exact performs_throw _
  | some canonical =>
    by_cases hf : s.files.isEmpty = true
    · simp only [hf, if_true]
      exact performs_after _ (performs_bind_error (performs_throw _))
    · simp only [hf]
      refine performs_after _ (performs_after _ ?_)
      refine performs_bind (performs_files _ _) ?_
      exact performs_bind (performs_log _) (performs_pure _)

section Unlimited

variable {α : Type} {scan : Scan α} {events : List ScanEvent} {result : Except ScanError α}

theorem run_unlimited (h : Performs scan events result) :
    scan.runWith .unlimited =
      (result, ⟨⟨none, (ScanEvent.written events).toUTF8⟩, ScanEvent.logged events⟩) := by
  rw [runWith, h, Sink.unlimited, ScanEvent.play_unlimited, ByteArray.empty_append, List.nil_append]
  rfl

theorem ends_unlimited (h : Performs scan events result) {progress : Progress}
    (hroom : progress.sink.room = none) :
    ∃ after, (ExceptT.run scan).run progress = (result, after) ∧ after.sink.room = none := by
  obtain ⟨⟨room, taken⟩, records⟩ := progress
  obtain rfl : room = none := hroom
  exact ⟨_, (h _).trans (congrArg (ended result) (ScanEvent.play_unlimited _ _ _)), rfl⟩

end Unlimited

/-- With a sink that has no limit, the scan gives the value and leaves the sink without one. -/
def Yields {α : Type} (scan : Scan α) (value : α) : Prop :=
  ∀ progress : Progress, progress.sink.room = none → ∃ after : Progress,
    (ExceptT.run scan).run progress = (.ok value, after) ∧ after.sink.room = none

variable {s : Survey}

theorem yields_survey {canonical : String} (hc : s.canonical = some canonical)
    (hf : s.files ≠ []) : Yields (survey s) (Summary.empty.ofFiles s.files) := by
  intro progress hroom
  have houtcome : s.outcome = .ok (Summary.empty.ofFiles s.files) := by
    simp [Survey.outcome, hc, hf]
  rw [← houtcome]
  exact ends_unlimited (performs_survey s) hroom

theorem survey_fails (h : s.canonical = none ∨ s.files = []) (progress : Progress)
    (hroom : progress.sink.room = none) :
    ∃ error after, (ExceptT.run (survey s)).run progress = (.error error, after) := by
  have houtcome : ∃ error, s.outcome = .error error := by
    rw [Survey.outcome]
    cases hc : s.canonical with
    | none => exact ⟨_, rfl⟩
    | some canonical =>
      have hf : s.files = [] := h.resolve_left (by simp [hc])
      exact ⟨.noGrammarFiles s.directory, by simp [hf]⟩
  obtain ⟨error, houtcome⟩ := houtcome
  obtain ⟨after, hrun, -⟩ := ends_unlimited (performs_survey s) hroom
  exact ⟨error, after, houtcome ▸ hrun⟩

end Scan

end CaptureAudit
