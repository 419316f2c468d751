import CaptureAudit.Files.Listing
import CaptureAudit.Report.Text
import CaptureAudit.Sink

/-! # Scanning a directory

A survey holds all that a scan reads: the directory and its grammars, in order. It is taken from
the files that the program has access to, or from those of a tree. The scan itself streams one
line a file to a sink, logs its progress and totals the results. A file that cannot be read is a
result like any other; only a missing directory, a directory without grammars or a full sink ends
a scan.
-/
namespace CaptureAudit

open Files (FileAccess FileError Volume)

structure GrammarFile where
  name : String
  path : String
  content : Except FileError String

namespace GrammarFile

def read {m : Type → Type} [Monad m] (files : FileAccess m) (name path : String) :
    m GrammarFile :=
  return ⟨name, path, ← files.readText path⟩

def analyze (file : GrammarFile) : Analysis :=
  let analysis := match file.content with
    | .ok text => Analysis.ofText file.path text
    | .error error => Analysis.ofFailure error.message
  { analysis with log := ⟨.debug, .analysis, "Analysing " ++ file.path⟩ :: analysis.log }

end GrammarFile

structure Survey where
  directory : String
  /-- Its absolute path without links, or how it is spelled if there is none; `none` if it does
  not exist. -/
  canonical : Option String
  files : List GrammarFile

def Survey.take {m : Type → Type} [Monad m] (files : FileAccess m) (directory : String) :
    m Survey := do
  match ← files.kind? directory with
  | none => return ⟨directory, none, []⟩
  | some _ =>
    let canonical := (← files.canonical? directory).getD directory
    let grammars ← (← Files.grammarFiles files directory).mapM fun (name, path) =>
      GrammarFile.read files name path
    return ⟨directory, some canonical, grammars⟩

def Survey.ofVolume (volume : Volume) (directory : String) : Survey :=
  (Survey.take volume.access directory).run

inductive ScanError where
  | directoryNotFound (directory : String)
  | noGrammarFiles (directory : String)
  | sinkFull
  deriving DecidableEq, Repr

def ScanError.message : ScanError → String
  | directoryNotFound directory => "Grammar directory not found: " ++ directory
  | noGrammarFiles directory => "No .json grammar files found in " ++ directory
  | sinkFull => "IO error: sink full"

/-- What a scan has done so far; it stays done if the scan ends early. -/
structure Progress where
  sink : Sink
  log : List LogRecord

abbrev Scan := ExceptT ScanError (StateM Progress)

namespace Scan

def log (records : List LogRecord) : Scan Unit :=
  modify fun progress => { progress with log := progress.log ++ records }

def write (text : String) : Scan Unit := do
  match (← get).sink.write text with
  | .ok sink => modify fun progress => { progress with sink := sink }
  | .error sink =>
    modify fun progress => { progress with sink := sink }
    throw .sinkFull

def file (summary : Summary) (file : GrammarFile) : Scan Summary := do
  let analysis := file.analyze
  log analysis.log
  write (Report.fileStatus file.name analysis.result)
  return summary.record file.name analysis.result

def totalsRecord (summary : Summary) : LogRecord :=
  ⟨.debug, .scan, "Analysed " ++ toString summary.filesAnalyzed ++ " files, " ++
    toString summary.totalViolations ++ " violations"⟩

def survey (survey : Survey) : Scan Summary := do
  match survey.canonical with
  | none => throw (.directoryNotFound survey.directory)
  | some canonical =>
    write (Report.header canonical)
    if survey.files.isEmpty then
      throw (.noGrammarFiles survey.directory)
    write (Report.fileCount survey.files.length)
    let summary ← survey.files.foldlM file ∅
    log [totalsRecord summary]
    return summary

def runWith {α : Type} (scan : Scan α) (sink : Sink) : Except ScanError α × Progress :=
  ExceptT.run scan |>.run ⟨sink, []⟩

end Scan

end CaptureAudit
