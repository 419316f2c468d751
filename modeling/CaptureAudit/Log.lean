/-! # Log records

What an audit reports about its own progress. A record is a value; whether it is shown, and
how, is decided where the command line is run.
-/
namespace CaptureAudit

inductive LogLevel where
  | error
  | warn
  | info
  | debug
  | trace
  deriving DecidableEq, Repr

namespace LogLevel

def name : LogLevel → String
  | error => "ERROR"
  | warn => "WARN"
  | info => "INFO"
  | debug => "DEBUG"
  | trace => "TRACE"

def verbosity : LogLevel → Nat
  | error => 0
  | warn => 1
  | info => 2
  | debug => 3
  | trace => 4

end LogLevel

inductive LogTarget where
  | command
  | analysis
  | scan
  deriving DecidableEq, Repr

def LogTarget.name : LogTarget → String
  | command => "tmcaps"
  | analysis => "tmcaps::analysis"
  | scan => "tmcaps::scan"

structure LogRecord where
  level : LogLevel
  target : LogTarget
  message : String
  deriving DecidableEq, Repr

end CaptureAudit
