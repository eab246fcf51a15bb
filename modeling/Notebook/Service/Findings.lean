import Notebook.Service.Protocol
import Notebook.Settings.Sections
import Notebook.Table

/-!
# Findings by file

The service reports syntactic and semantic findings separately.  For every file the
latest of both are kept, and each report replaces the earlier one of its round; a file
without findings has no entry.  Suggestions are passed on and not kept.
-/

namespace Notebook

/-- The latest findings in a file. -/
structure FileFindings where
  syntactic : List Diagnostic
  semantic : List Diagnostic
  deriving DecidableEq, Repr, Inhabited

/-- The latest findings by file. -/
structure Findings where
  files : Table String FileFindings
  deriving DecidableEq, Repr, Inhabited

namespace Findings

/-- No findings. -/
def empty : Findings :=
  ⟨.empty⟩

/-- The codes that are dropped in a round. -/
def ignored (settings : ServiceSettings) : Pass → List UInt32
  | .suggestion => settings.ignoredSuggestions
  | _ => settings.ignoredDiagnostics

/-- A finding in the words of this library. -/
def diagnosticOf (raw : RawFinding) : Diagnostic :=
  ⟨.ofCategory raw.category, raw.start, raw.end, raw.text, raw.code⟩

/-- The findings of a round that are not ignored. -/
def normalize (settings : ServiceSettings) (pass : Pass) (raw : List RawFinding) :
    List Diagnostic :=
  (raw.filter fun finding => finding.code ∉ ignored settings pass).map diagnosticOf

/-- The findings of a file. -/
def of (f : Findings) (filename : String) : FileFindings :=
  (f.files.find? filename).getD ⟨[], []⟩

/-- All findings of a file, the syntactic ones first. -/
def FileFindings.all (f : FileFindings) : List Diagnostic :=
  f.syntactic ++ f.semantic

/-- The findings of a file after a round. -/
def FileFindings.after (f : FileFindings) (pass : Pass) (items : List Diagnostic) :
    FileFindings :=
  match pass with
  | .syntactic => { f with syntactic := items }
  | .semantic => { f with semantic := items }
  | .suggestion => f

/-- Records a round; all findings of the file come back. -/
def update (f : Findings) (filename : String) (pass : Pass) (items : List Diagnostic) :
    List Diagnostic × Findings :=
  let file := FileFindings.after (f.of filename) pass items
  let all := FileFindings.all file
  (all,
    if all.isEmpty then ⟨f.files.erase filename⟩ else ⟨f.files.set filename file⟩)

/-- Forgets a file. -/
def remove (f : Findings) (filename : String) : Findings :=
  ⟨f.files.erase filename⟩

end Findings
end Notebook
