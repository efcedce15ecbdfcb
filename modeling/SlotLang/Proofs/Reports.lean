import SlotLang.Proofs.Builder.Drafts

/-!
# Reports

A report is made by pushing diagnostics and by appending other reports. However this is done, it is the
report of the diagnostics in the order in which they came (`Report.History.report_eq`), since appending
the reports of two sequences gives the report of both (`Report.extend_ofList`).
-/

open List

namespace SlotLang.Report

theorem ofList_eq (ds : List Diagnostic) :
    ofList ds = ⟨ds.take capacity, .ofNat ds.length⟩ := by
  rw [ofList, foldl_push]
  simp

theorem push_ofList (ds : List Diagnostic) (d : Diagnostic) :
    (ofList ds).push d = ofList (ds ++ [d]) := by
  simp [ofList]

/-- The dropped diagnostics of the second report are counted, and those it keeps are all that there is
room for. -/
theorem extend_ofList (ds es : List Diagnostic) : (ofList ds).extend (ofList es) = ofList (ds ++ es) := by
  simp only [extend, ofList_eq, foldl_push, length_append, take_append, take_take,
    length_take, mk.injEq]
  refine ⟨?_, by grind [UInt64.ofNat_add]⟩
  congr 2
  omega

/-- How a report is made. -/
inductive History where
  | empty
  | push (h : History) (d : Diagnostic)
  | extend (h other : History)

namespace History

def report : History → Report
  | empty => {}
  | push h d => h.report.push d
  | extend h other => h.report.extend other.report

/-- All diagnostics in the order in which they came. -/
def pushed : History → List Diagnostic
  | empty => []
  | push h d => h.pushed ++ [d]
  | extend h other => h.pushed ++ other.pushed

theorem report_eq (h : History) : h.report = ofList h.pushed := by
  induction h with
  | empty => rfl
  | push h d ih => rw [report, pushed, ih, push_ofList]
  | extend h other ih ih' => rw [report, pushed, ih, ih', extend_ofList]

end History

end SlotLang.Report
