import CaptureAudit.Proofs.Scan.Trace

/-! # A sink that fills up

A writer that runs into the limit of its sink has written the first bytes of what it would have
written, up to the limit, and fails with that. A scan has then logged what it would have logged so
far, and has analysed no file after the one with the refused status line. -/
namespace CaptureAudit

theorem extract_before {first second : ByteArray} {size : Nat} (h : size ≤ first.size) :
    (first ++ second).extract 0 size = first.extract 0 size := by
  rw [ByteArray.extract_append, Nat.zero_sub, Nat.sub_eq_zero_of_le h]
  simp

theorem extract_after {first second : ByteArray} {size : Nat} (h : first.size ≤ size) :
    (first ++ second).extract 0 size = first ++ second.extract 0 (size - first.size) := by
  have hfirst : first.extract 0 size = first := by
    rw [← Nat.max_eq_left h, ByteArray.extract_zero_max_size]
  rw [ByteArray.extract_append, Nat.zero_sub, hfirst]

namespace Sink

variable {room : Nat} {taken : ByteArray} {text : String}

theorem write_fits (h : text.utf8ByteSize ≤ room) : write ⟨some room, taken⟩ text =
    .ok ⟨some (room - text.utf8ByteSize), taken ++ text.toUTF8⟩ := by
  simp [write, h]

theorem write_refused (h : room < text.utf8ByteSize) : write ⟨some room, taken⟩ text =
    .error ⟨some 0, taken ++ text.toUTF8.extract 0 room⟩ := by
  simp [write, Nat.not_le_of_lt h]

end Sink

namespace ScanEvent

/-- What happens before the first text that does not fit into the room. -/
def fitting (room : Nat) : List ScanEvent → List ScanEvent
  | [] => []
  | log records :: rest => log records :: fitting room rest
  | write text :: rest =>
    if text.utf8ByteSize ≤ room then write text :: fitting (room - text.utf8ByteSize) rest
    else []

theorem fitting_initial (room : Nat) (events : List ScanEvent) : fitting room events <+: events := by
  induction events generalizing room with
  | nil => exact List.prefix_rfl
  | cons event rest ih =>
    cases event with
    | log records => exact List.cons_prefix_cons.mpr ⟨rfl, ih room⟩
    | write text =>
      rw [fitting]
      split
      · exact List.cons_prefix_cons.mpr ⟨rfl, ih _⟩
      · exact List.nil_prefix

theorem logged_initial {first second : List ScanEvent} (h : first <+: second) :
    logged first <+: logged second := by
  obtain ⟨rest, rfl⟩ := h
  rw [logged_append]
  exact List.prefix_append _ _

/-- With a limit either everything fits, or the bytes are cut there and the rest is left out. -/
theorem play_limited (events : List ScanEvent) (room : Nat) (taken : ByteArray)
    (records : List LogRecord) : play events ⟨⟨some room, taken⟩, records⟩ =
      if (written events).utf8ByteSize ≤ room then
        .ok ⟨⟨some (room - (written events).utf8ByteSize), taken ++ (written events).toUTF8⟩,
          records ++ logged events⟩
      else
        .error ⟨⟨some 0, taken ++ (written events).toUTF8.extract 0 room⟩,
          records ++ logged (fitting room events)⟩ := by
  induction events generalizing room taken records with
  | nil => simp [play, written, logged]
  | cons event rest ih =>
    cases event with
    | log more => simp [play, ih, written, logged, fitting]
    | write text =>
      have hsize : (written (write text :: rest)).utf8ByteSize =
          text.utf8ByteSize + (written rest).utf8ByteSize := String.utf8ByteSize_append
      have hbytes : (written (write text :: rest)).toUTF8 =
          text.toUTF8 ++ (written rest).toUTF8 := String.toByteArray_append
      have htext : text.toUTF8.size = text.utf8ByteSize := String.size_toByteArray
      rw [hsize, hbytes]
      by_cases hfits : text.utf8ByteSize ≤ room
      · simp only [play, Sink.write_fits hfits, ih, fitting, if_pos hfits, logged]
        rw [extract_after (by omega), htext, ByteArray.append_assoc, Nat.sub_sub]
        by_cases hrest : (written rest).utf8ByteSize ≤ room - text.utf8ByteSize
        · rw [if_pos hrest, if_pos (by omega)]
        · rw [if_neg hrest, if_neg (by omega), ByteArray.append_assoc]
      · have hrefused := Nat.lt_of_not_le hfits
        simp only [play, Sink.write_refused hrefused, fitting, if_neg hfits, logged]
        rw [if_neg (by omega), extract_before (by omega), List.append_nil]

end ScanEvent

namespace Scan

open ScanEvent (written logged fitting)

variable {α : Type} {scan : Scan α} {events : List ScanEvent} {result : Except ScanError α}

theorem run_fits (h : Performs scan events result) {limit : Nat}
    (hfits : (written events).utf8ByteSize ≤ limit) : scan.runWith (.ofLimit (some limit)) =
      (result, ⟨⟨some (limit - (written events).utf8ByteSize), (written events).toUTF8⟩,
        logged events⟩) := by
  rw [runWith, h, Sink.ofLimit, ScanEvent.play_limited, if_pos hfits, ByteArray.empty_append,
    List.nil_append]
  rfl

theorem run_refused (h : Performs scan events result) {limit : Nat}
    (hfull : limit < (written events).utf8ByteSize) : scan.runWith (.ofLimit (some limit)) =
      (.error .sinkFull, ⟨⟨some 0, (written events).toUTF8.extract 0 limit⟩,
        logged (fitting limit events)⟩) := by
  rw [runWith, h, Sink.ofLimit, ScanEvent.play_limited, if_neg (Nat.not_le_of_lt hfull),
    ByteArray.empty_append, List.nil_append]
  rfl

theorem logged_texts (pieces : List String) : logged (pieces.map ScanEvent.write) = [] := by
  induction pieces with
  | nil => rfl
  | cons piece rest ih => exact ih

theorem written_texts (pieces : List String) :
    written (pieces.map ScanEvent.write) = String.join pieces := by
  induction pieces with
  | nil => rfl
  | cons piece rest ih => rw [List.map_cons, written, ih, String.join_cons]

/-- Texts are taken or refused by their bytes alone, however they are cut into pieces. -/
theorem play_texts (pieces : List String) (progress : Progress) :
    ScanEvent.play (pieces.map .write) progress =
      ScanEvent.play [.write (String.join pieces)] progress := by
  have hwritten : written (pieces.map .write) = written [.write (String.join pieces)] := by
    rw [written_texts, written, written, String.append_empty]
  have hlogged : logged (pieces.map ScanEvent.write) = [] := logged_texts pieces
  have hfitting (room : Nat) : logged (fitting room (pieces.map .write)) =
      logged (fitting room [.write (String.join pieces)]) := by
    have hnone := ScanEvent.logged_initial (ScanEvent.fitting_initial room (pieces.map .write))
    rw [hlogged] at hnone
    rw [List.prefix_nil.mp hnone, fitting]
    split <;> rfl
  obtain ⟨⟨room, taken⟩, records⟩ := progress
  cases room with
  | none => rw [ScanEvent.play_unlimited, ScanEvent.play_unlimited, hwritten, hlogged]; rfl
  | some room =>
    rw [ScanEvent.play_limited, ScanEvent.play_limited, hwritten, hlogged, hfitting]
    rfl

theorem performs_pieces (pieces : List String) :
    Performs (pieces.forM write) (pieces.map .write) (.ok ()) := by
  induction pieces with
  | nil => exact performs_pure ()
  | cons piece rest ih => exact performs_after piece ih

/-- Each piece may be the one that is refused, and still it is as if they were written at once. -/
theorem write_pieces (pieces : List String) :
    pieces.forM write = write (String.join pieces) := by
  refine funext fun progress => ?_
  refine (performs_pieces pieces progress).trans ?_
  rw [play_texts]
  exact (performs_write _ progress).symm

end Scan

/-- The parts of a report that are written at once, and the scan, which writes as it goes on. -/
inductive Writer : Type → Type
  | header (directory : String) : Writer Unit
  | fileCount (count : Nat) : Writer Unit
  | fileStatus (name : String) (result : FileResult) : Writer Unit
  | conclusion (summary : Summary) : Writer Unit
  | survey (taken : Survey) : Writer Summary

namespace Writer

variable {α : Type}

def scan : Writer α → Scan α
  | header directory => Scan.write (Report.header directory)
  | fileCount count => Scan.write (Report.fileCount count)
  | fileStatus name result => Scan.write (Report.fileStatus name result)
  | conclusion summary => Scan.write (Report.conclusion summary)
  | survey taken => Scan.survey taken

theorem outcome_not_full (s : Survey) : s.outcome ≠ .error .sinkFull := by
  rw [Survey.outcome]
  cases s.canonical with
  | none => simp
  | some canonical => by_cases hf : s.files.isEmpty = true <;> simp [hf]

/-- What a writer does is settled before it meets its sink. -/
theorem performs (writer : Writer α) : ∃ events result,
    Scan.Performs writer.scan events result ∧ result ≠ .error .sinkFull := by
  cases writer with
  | header | fileCount | fileStatus | conclusion =>
    exact ⟨_, _, Scan.performs_write _, by simp⟩
  | survey taken =>
    exact ⟨_, _, Scan.performs_survey _, outcome_not_full _⟩

end Writer

namespace Survey

open ScanEvent (written logged fitting)

/-- The sink is full before the status line of the last of these files is out, or before the
heading is if there is no file. The lines of the files before it are out. -/
structure CutAt (s : Survey) (canonical : String) (limit : Nat) (analysed : List GrammarFile) :
    Prop where
  initial : analysed <+: s.files
  reached : analysed ≠ [] → (s.textThrough canonical analysed.dropLast).utf8ByteSize ≤ limit
  refused : limit < (s.textThrough canonical analysed).utf8ByteSize

/-- Among the files, the one whose status line is refused is the last one that is analysed. -/
theorem fitting_files (files : List GrammarFile) (tail : List ScanEvent) (room : Nat)
    (hfull : room < (String.join (files.map GrammarFile.statusLine)).utf8ByteSize) :
    ∃ earlier last, earlier ++ [last] <+: files ∧
      logged (fitting room (files.flatMap Scan.fileEvents ++ tail)) =
        (earlier ++ [last]).flatMap (·.analyze.log) ∧
      (String.join (earlier.map GrammarFile.statusLine)).utf8ByteSize ≤ room ∧
      room < (String.join ((earlier ++ [last]).map GrammarFile.statusLine)).utf8ByteSize := by
  induction files generalizing room with
  | nil => simp at hfull
  | cons file rest ih =>
    have hevents : (file :: rest).flatMap Scan.fileEvents ++ tail =
        .log file.analyze.log :: .write file.statusLine ::
          (rest.flatMap Scan.fileEvents ++ tail) := rfl
    rw [hevents, fitting, fitting, logged]
    by_cases hfits : file.statusLine.utf8ByteSize ≤ room
    · rw [List.map_cons, String.join_cons, String.utf8ByteSize_append] at hfull
      obtain ⟨earlier, last, hfiles, hlog, hreached, hrefused⟩ :=
        ih (room - file.statusLine.utf8ByteSize) (by omega)
      refine ⟨file :: earlier, last, List.cons_prefix_cons.mpr ⟨rfl, hfiles⟩, ?_, ?_, ?_⟩
      · rw [if_pos hfits, logged, hlog]
        rfl
      · rw [List.map_cons, String.join_cons, String.utf8ByteSize_append]
        omega
      · rw [List.cons_append, List.map_cons, String.join_cons, String.utf8ByteSize_append]
        omega
    · refine ⟨[], file, List.cons_prefix_cons.mpr ⟨rfl, List.nil_prefix⟩, ?_, ?_, ?_⟩
      · rw [if_neg hfits]
        simp [logged]
      · simp
      · simpa using hfits

variable {s : Survey} {canonical : String} {limit : Nat}

theorem size_through (s : Survey) (canonical : String) (files : List GrammarFile) :
    (s.textThrough canonical files).utf8ByteSize = (Report.header canonical).utf8ByteSize +
      (Report.fileCount s.files.length).utf8ByteSize +
      (String.join (files.map GrammarFile.statusLine)).utf8ByteSize := by
  rw [textThrough, String.utf8ByteSize_append, String.utf8ByteSize_append]

/-- Before the heading is out no file is analysed. -/
theorem cut_in_heading (hfull : limit < (Report.header canonical).utf8ByteSize +
    (Report.fileCount s.files.length).utf8ByteSize) : s.CutAt canonical limit [] := by
  refine ⟨List.nil_prefix, fun h => (h rfl).elim, ?_⟩
  rw [size_through]
  omega

/-- If the header is out, there are files, or nothing would be left to write. -/
theorem cut_after_header (hc : s.canonical = some canonical)
    (hfull : limit < (written s.events).utf8ByteSize)
    (hheader : (Report.header canonical).utf8ByteSize ≤ limit) :
    ∃ analysed, s.CutAt canonical limit analysed ∧
      logged (fitting limit s.events) = analysed.flatMap (·.analyze.log) := by
  cases hf : s.files.isEmpty with
  | true =>
    have hevents : s.events = [.write (Report.header canonical)] := by simp [events, hc, hf]
    rw [hevents, written, written, String.append_empty] at hfull
    omega
  | false =>
    rw [written_events hc hf, size_through] at hfull
    rw [events_of_files hc hf, fitting, if_pos hheader, fitting, logged]
    by_cases hcount : (Report.header canonical).utf8ByteSize +
        (Report.fileCount s.files.length).utf8ByteSize ≤ limit
    · rw [if_pos (by omega), logged]
      obtain ⟨earlier, last, hfiles, hlog, hreached, hrefused⟩ := fitting_files s.files
        [.log [Scan.totalsRecord (Summary.empty.ofFiles s.files)]]
        (limit - (Report.header canonical).utf8ByteSize -
          (Report.fileCount s.files.length).utf8ByteSize) (by omega)
      refine ⟨earlier ++ [last], ⟨hfiles, fun _ => ?_, ?_⟩, hlog⟩
      · rw [List.dropLast_concat, size_through]
        omega
      · rw [size_through]
        omega
    · rw [if_neg (by omega)]
      exact ⟨[], cut_in_heading (by omega), rfl⟩

/-- A scan that was cut logs what belongs to the files up to the refused line, and no more. -/
theorem cut_log (hfull : limit < (written s.events).utf8ByteSize) :
    ∃ canonical analysed, s.canonical = some canonical ∧ s.CutAt canonical limit analysed ∧
      logged (fitting limit s.events) = analysed.flatMap (·.analyze.log) := by
  cases hc : s.canonical with
  | none =>
    rw [events, hc] at hfull
    simp [written] at hfull
  | some canonical =>
    by_cases hheader : (Report.header canonical).utf8ByteSize ≤ limit
    · obtain ⟨analysed, hcut, hlog⟩ := cut_after_header hc hfull hheader
      exact ⟨canonical, analysed, rfl, hcut, hlog⟩
    · have hnone : fitting limit s.events = [] := by
        cases hf : s.files.isEmpty with
        | true => simp [events, hc, hf, fitting, hheader]
        | false => rw [events_of_files hc hf, fitting, if_neg hheader]
      exact ⟨canonical, [], rfl, cut_in_heading (by omega), by rw [hnone]; rfl⟩

end Survey

/-- What a limit does to a scan of any kind that does not itself end with a full sink. -/
theorem Scan.limited_run {α : Type} {scan : Scan α} {events : List ScanEvent}
    {result : Except ScanError α} (h : Scan.Performs scan events result) (limit : Nat) :
    let whole := scan.runWith .unlimited
    let cut := scan.runWith (.ofLimit (some limit))
    let bytes := whole.2.sink.taken
    (cut.1, cut.2.sink.taken) = (if bytes.size ≤ limit then (whole.1, bytes)
      else (.error .sinkFull, bytes.extract 0 limit)) ∧
    cut.2.log <+: whole.2.log := by
  have hsize : (ScanEvent.written events).toUTF8.size =
    (ScanEvent.written events).utf8ByteSize := String.size_toByteArray
  simp only [Scan.run_unlimited h, hsize]
  by_cases hfits : (ScanEvent.written events).utf8ByteSize ≤ limit
  · rw [Scan.run_fits h hfits, if_pos hfits]
    exact ⟨rfl, List.prefix_rfl⟩
  · rw [Scan.run_refused h (Nat.lt_of_not_le hfits), if_neg hfits]
    exact ⟨rfl, ScanEvent.logged_initial (ScanEvent.fitting_initial limit events)⟩

/-- Whatever is written to a sink with a limit: the text may be written at once or piece by piece;
what the sink takes is all of the bytes and the outcome stands, or it is the first bytes up to the
limit and the outcome is that the sink is full. The log only loses its end, and a scan that is cut
has analysed the files up to the one with the refused status line. -/
theorem full_sink_truncates (limit : Nat) :
    (∀ pieces : List String, pieces.forM Scan.write = Scan.write (String.join pieces)) ∧
    (∀ (α : Type) (writer : Writer α),
      let whole := writer.scan.runWith .unlimited
      let cut := writer.scan.runWith (.ofLimit (some limit))
      let bytes := whole.2.sink.taken
      whole.1 ≠ .error .sinkFull ∧
      (cut.1, cut.2.sink.taken) = (if bytes.size ≤ limit then (whole.1, bytes)
        else (.error .sinkFull, bytes.extract 0 limit)) ∧
      cut.2.log <+: whole.2.log) ∧
    ∀ s : Survey,
      let whole := (Scan.survey s).runWith .unlimited
      let cut := (Scan.survey s).runWith (.ofLimit (some limit))
      (whole.2.sink.taken.size ≤ limit ∧ cut.2.log = whole.2.log) ∨
        ∃ canonical analysed, s.canonical = some canonical ∧ s.CutAt canonical limit analysed ∧
          cut.2.log = analysed.flatMap fun file => file.analyze.log := by
  refine ⟨Scan.write_pieces, ?_, ?_⟩
  · intro α writer whole cut bytes
    obtain ⟨events, result, h, hresult⟩ := writer.performs
    have hwhole : whole.1 = result := congrArg Prod.fst (Scan.run_unlimited h)
    exact ⟨hwhole ▸ hresult, Scan.limited_run h limit⟩
  · intro s whole cut
    have h := Scan.performs_survey s
    have hwhole : whole = _ := Scan.run_unlimited h
    have hsize : (ScanEvent.written s.events).toUTF8.size =
      (ScanEvent.written s.events).utf8ByteSize := String.size_toByteArray
    by_cases hfits : (ScanEvent.written s.events).utf8ByteSize ≤ limit
    · have hcut : cut = _ := Scan.run_fits h hfits
      rw [hwhole, hcut]
      exact Or.inl ⟨hsize ▸ hfits, rfl⟩
    · have hcut : cut = _ := Scan.run_refused h (Nat.lt_of_not_le hfits)
      rw [hcut]
      exact Or.inr (Survey.cut_log (Nat.lt_of_not_le hfits))

end CaptureAudit
