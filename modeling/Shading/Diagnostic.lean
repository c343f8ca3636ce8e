import Shading.Span

/-!
# Diagnostics

What the compiler reports: a place, a message, the stage that found it and how bad it is. Reports
are kept in the order in which they were found. -/
namespace Shading

inductive Severity where
  | error
  | warning
deriving DecidableEq, Repr

/-- The stage that found the problem. A problem of the grammar ends the reading; the others do
not. -/
inductive Stage where
  | lexical
  | grammatical
  | semantic
  | capacity
deriving DecidableEq, Repr

structure Diagnostic where
  stage : Stage
  severity : Severity
  span : Span
  message : String
deriving DecidableEq, Repr

def Diagnostic.line (d : Diagnostic) : String := s!"{d.span.text}: {d.message}"

abbrev Diagnostics := Array Diagnostic

namespace Diagnostics

/-- Warnings do not count. -/
def errorCount (ds : Diagnostics) : Nat := ds.countP fun d => d.severity == .error

def hasErrors (ds : Diagnostics) : Bool := ds.any fun d => d.severity == .error

def text (ds : Diagnostics) : String := "\n".intercalate (ds.toList.map Diagnostic.line)

end Diagnostics
end Shading
