-- SUMMARY: Every issue of every pass has its location inside the source.
import FlakeLint.Proofs.Passes.MissingPositions
import FlakeLint.Proofs.Tree.Nesting

/-!
# Locations of issues

An issue of any pass is a finding placed between the start of one node of the tree
and the end of another node around it, mostly the same. On a tree with nested
spans no issue therefore loses its place.
-/

namespace FlakeLint

/-- The issue is a finding placed between nodes of the file. -/
def Issue.IsAbout (file : TestFile) (issue : Issue) : Prop :=
  ∃ finding first last, file.parsed.root.Contains last ∧ last.Contains first ∧
    issue = Finding.issue finding file.lines (some (file.parsed.spanning first last))

/-- The issue of a problem is a finding placed between the nodes of the problem. -/
theorem Checker.isAbout_of_mem_problems {file : TestFile} {checker : Checker} {problem : Problem}
    (h : file.parsed.root.isPositioned) (hproblem : problem ∈ checker.problems file) :
    (problem.issue file).IsAbout file := by
  obtain ⟨hlast, hfirst⟩ := Checker.contains_of_mem_problems hproblem
  refine ⟨problem.finding, problem.first, problem.last, hlast, hfirst, ?_⟩
  exact problem.issue_eq file (Node.isPositioned_of_contains (hlast.trans hfirst) h)
    (Node.isPositioned_of_contains hlast h)

/-- Whatever a checker reports on a parsed source whose spans nest has a location inside the source and
shows the line on which that begins. -/
theorem Checker.analyze_locates {parsers : Parsers} {path content : String}
    {asked : Option String} {result : ParseResult}
    (hparse : parsers.parse path content asked = .ok result)
    (hnested : result.parsed.root.IsNested (Utf8.encode content.toList) 0
      (Utf8.encode content.toList).length)
    (checker : Checker) (shownPath : String) {output : Output}
    (houtput : checker.analyze (.ofContent shownPath content result.parsed) = .ok output) :
    ∀ issue ∈ output.issues, issue.IsLocatedIn content := by
  intro issue hissue
  have hroot : (TestFile.ofContent shownPath content result.parsed).parsed.root.isPositioned :=
    hnested.isPositioned
  rw [Checker.issues_of_analyze houtput] at hissue
  obtain ⟨problem, hproblem, rfl⟩ := List.mem_map.1 hissue
  obtain ⟨finding, first, last, hlast, hfirst, heq⟩ :=
    Checker.isAbout_of_mem_problems hroot hproblem
  rw [heq]
  exact Finding.isLocatedIn_issue (Parsers.lines_of_parse hparse)
    (Node.IsNested.of_contains hlast hnested) hfirst finding

/-- The one issue of a fixed wait is located. -/
theorem Checker.analyze_locates_fixed_wait :
    ∃ result output,
      (Sample.parsers "1000").parse "a.cy.js" (Sample.source "1000") none = .ok result ∧
      Checker.asyncReliability.analyze
        (.ofContent "a.cy.js" (Sample.source "1000") result.parsed) = .ok output ∧
      output.issues.length = 1 ∧
      ∀ issue ∈ output.issues, issue.IsLocatedIn (Sample.source "1000") := by
  have hparse : (Sample.parsers "1000").parse "a.cy.js" (Sample.source "1000") none =
      .ok ⟨⟨(Sample.outline 4).place ⟨(Utf8.encode (Sample.source "1000").toList).toArray⟩
          (pointsOf (Utf8.encode (Sample.source "1000").toList)),
        "javascript", byteLines (Utf8.encode (Sample.source "1000").toList)⟩, false⟩ := rfl
  obtain ⟨output, houtput, hlength⟩ := exists_eq_ok_of_map_toOption
    (show (Checker.asyncReliability.analyze (.ofContent "a.cy.js" (Sample.source "1000")
        ⟨(Sample.outline 4).place ⟨(Utf8.encode (Sample.source "1000").toList).toArray⟩
            (pointsOf (Utf8.encode (Sample.source "1000").toList)),
          "javascript", byteLines (Utf8.encode (Sample.source "1000").toList)⟩)).toOption.map
      (fun output => output.issues.length) = some 1 by decide +kernel)
  exact ⟨_, output, hparse, houtput, hlength,
    Checker.analyze_locates hparse (Node.isNested_place (by decide)) .asyncReliability "a.cy.js"
      houtput⟩

end FlakeLint
