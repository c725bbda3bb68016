import Tide.Analysis.Purity
import Tide.Analysis.Sign
import Tide.Analysis.Typing

/-!
# Analysis of a program

All checks are made before any finding counts.  A program with errors is refused with all findings;
otherwise the findings are warnings.
-/

namespace Tide

/-- What the checks say about a program, each in source order. -/
structure AnalysisReport where
  functions : FunctionTable
  inference : List Diagnostic
  purity : List Diagnostic
  definitions : List Diagnostic
  operators : List Diagnostic
  callSites : List Diagnostic

/-- What is known of a program that was accepted. -/
structure Accepted where
  warnings : List Diagnostic
  functions : FunctionTable

namespace AnalysisReport

def ofProgram (program : Program) : AnalysisReport :=
  let table := program.functionTable
  { functions := table
    inference := Analysis.inference.run program
    purity := Analysis.purity table program
    definitions := SignCheck.definitions.run table program
    operators := Analysis.operators.run program
    callSites := SignCheck.callSites.run table program }

/-- Every finding, in the order the checks are made. -/
def findings (report : AnalysisReport) : List Diagnostic :=
  report.inference ++ report.purity ++ report.definitions ++ report.operators ++ report.callSites

/-- The program is accepted, or refused with every finding. -/
def verdict (report : AnalysisReport) : Except (List Diagnostic) Accepted :=
  if errorCount report.findings = 0 then .ok ⟨report.findings, report.functions⟩
  else .error report.findings

end AnalysisReport

namespace Program

/-- Checks the program. -/
def analyze (program : Program) : Except (List Diagnostic) Accepted :=
  (AnalysisReport.ofProgram program).verdict

/-- Makes every check on its own, whatever the others find, after the table of functions. -/
def report (program : Program) : Noted AnalysisReport := do
  Noted.log program.functionTableLog
  let report := AnalysisReport.ofProgram program
  Noted.log (report.findings.map Diagnostic.logLine)
  return report

/-- What is reported while the program is checked. -/
def analysisLog (program : Program) : List LogLine :=
  let report := AnalysisReport.ofProgram program
  report.inference.map Diagnostic.logLine
    ++ program.functionTableLog
    ++ (report.purity ++ report.definitions ++ report.operators ++ report.callSites).map
      Diagnostic.logLine
    ++ match report.verdict with
      | .ok accepted =>
        [infoLine ("analysis passed: " ++ toString accepted.functions.length ++ " function(s), "
          ++ toString accepted.warnings.length ++ " warning(s)")]
      | .error _ => []

end Program

end Tide
