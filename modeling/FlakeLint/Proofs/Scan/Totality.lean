-- SUMMARY: What stops analyses and scans: a delay too long to be written, and for scans a link in a circle.
import FlakeLint.Proofs.Number.Numeral
import FlakeLint.Proofs.Scan.Outcome
import FlakeLint.Proofs.Tree.Placement

/-!
# Totality

With settings that were loaded, on trees in which every node has a position, an
analysis ends with outputs or with a source that does not parse, and a scan ends
with a report. There are two exceptions. A delay that is to be reported may have
more digits than are written; the waits at the beginning have such a delay, a number
of thousands of digits in base 16, at any length beyond the limit. And a file that
is found may be a link to itself, for which some systems have no path to show.
-/

namespace FlakeLint.Sample

/-! ## The tree -/

section

variable (point : Nat → Point) (text : Nat → Nat → String) (argument : String)

/-- A node of the tree of the sample, given what stands where. -/
def node (kind : Kind) (role : Option Role) (start stop : Nat) (text : String)
    (children : List Node) : Node :=
  .mk ⟨kind, true, false, false, role, text, some ⟨point start, point stop⟩⟩ children

/-- The call of the sample. -/
def call : Node :=
  let bytes := (Utf8.encode argument.toList).length
  node point .call none 0 (10 + bytes) (text 0 (10 + bytes)) [
    node point .member (some .function) 0 7 (text 0 7) [
      node point .identifier (some .object) 0 2 "cy" [],
      node point .property (some .property) 3 7 "wait" []],
    node point .arguments (some .arguments) 7 (10 + bytes) (text 7 (10 + bytes)) [
      node point .number none 9 (9 + bytes) argument []]]

/-- The tree of the sample. -/
def tree : Node :=
  let bytes := (Utf8.encode argument.toList).length
  node point (.other "program") none 0 (10 + bytes) (text 0 (10 + bytes))
    [call point text argument]

end

theorem place_outline (argument : String) :
    (outline (Utf8.encode argument.toList).length).place
        ⟨(Utf8.encode (source argument).toList).toArray⟩
        (pointsOf (Utf8.encode (source argument).toList)) =
      tree (Point.ofOffset (Utf8.encode (source argument).toList))
        (textBetween ⟨(Utf8.encode (source argument).toList).toArray⟩) argument := by
  have hcs (before text after : String) (h : "cy.wait(\n" = before ++ text ++ after) :
      (source argument).toList = before.toList ++ text.toList ++ (after ++ argument ++ ")").toList := by
    simp [source, h]
  have hobject : textBetween ⟨(Utf8.encode (source argument).toList).toArray⟩ 0 2 = "cy" :=
    textBetween_encode (hcs "" "cy" ".wait(\n" rfl) (by decide) (by decide)
  have hmethod : textBetween ⟨(Utf8.encode (source argument).toList).toArray⟩ 3 7 = "wait" :=
    textBetween_encode (hcs "cy." "wait" "(\n" rfl) (by decide) (by decide)
  have hnumber : textBetween ⟨(Utf8.encode (source argument).toList).toArray⟩ 9
      (9 + (Utf8.encode argument.toList).length) = argument := by
    have hsource : (source argument).toList = "cy.wait(\n".toList ++ argument.toList ++ [')'] := by
      simp [source]
    rw [textBetween_encode hsource (by decide) rfl, String.ofList_toList]
  simp only [outline, methodCall, piece, Outline.place, placeAll, Option.map_some,
    pointAt_pointsOf, hobject, hmethod, hnumber]
  rfl

section

variable {file : TestFile} {point : Nat → Point} {text : Nat → Nat → String} {k : Nat}

theorem delay?_call :
    Checker.asyncReliability.delay? (call point text (Numeral.sixteenToThe k)) =
      some (.int (16 ^ k : Nat)) := by
  have hcall : (call point text (Numeral.sixteenToThe k)).isCallOf libraryObject "wait" := rfl
  have hargument : ∃ n, Wait.soleArgument? (call point text (Numeral.sixteenToThe k)) = some n ∧
      n.kind = .number ∧ n.text = Numeral.sixteenToThe k := ⟨_, rfl, rfl, rfl⟩
  obtain ⟨n, hargument, hkind, htext⟩ := hargument
  unfold Checker.delay?
  dsimp only
  rw [if_pos hcall, hargument, Option.bind_some, Node.numberValue?, if_pos hkind, htext,
    Numeral.value?_sixteenToThe]

/-- A delay of thousands of digits in base 16 stops the checker. -/
theorem isStopped_of_le (hroot : file.parsed.root = tree point text (Numeral.sixteenToThe k))
    (hline : lineText file.lines ((point 0).row + 1 : Nat) = "cy.wait(") (hk : 3600 ≤ k) :
    Checker.asyncReliability.isStopped file := by
  have hcall : Cursor.mk (call point text (Numeral.sixteenToThe k)) [file.parsed.root] ∈
      file.cursor.calls := by
    unfold Cursor.calls TestFile.cursor Parsed.cursor
    rw [List.mem_filter, Cursor.walk_eq, List.mem_cons, List.mem_flatMap]
    refine ⟨.inr ⟨⟨call point text (Numeral.sixteenToThe k), [file.parsed.root]⟩, ?_, ?_⟩, rfl⟩
    · rw [hroot]
      exact List.mem_singleton.2 rfl
    · rw [Cursor.walk_eq]
      exact List.mem_cons_self
  unfold Checker.isStopped
  refine List.any_eq_true.2 ⟨_, hcall, ?_⟩
  -- The wait is long, unmarked and outside of any retry, so its delay is to be reported.
  have hlarge : 16 ^ 3 ≤ 16 ^ k := Nat.pow_le_pow_right (by decide) (by omega)
  have hlong : (Number.int Wait.reportedFrom).le (.int (16 ^ k : Nat)) := by
    rw [Number.le_int, Wait.reportedFrom]
    exact decide_eq_true (by omega)
  have hshort : (Number.int (16 ^ k : Nat)).le (.int Wait.explainedUpTo) = false := by
    rw [Number.le_int, Wait.explainedUpTo]
    exact decide_eq_false (by omega)
  have hcovers : Retry.covers libraryObject
      ⟨call point text (Numeral.sixteenToThe k), [file.parsed.root]⟩ = false := by
    rw [hroot]
    rfl
  have hmarker : Wait.commentMentions ["testcopilot-disable"] "cy.wait(" = false := rfl
  have hplace : (call point text (Numeral.sixteenToThe k)).line = (point 0).row + 1 := rfl
  unfold Checker.isUnwritable
  rw [delay?_call, Option.any_some, Number.not_isWritable_of_le hk]
  unfold Checker.reportsDelay Wait.isExempt
  dsimp only
  rw [hplace, hline, hmarker, hshort, hcovers, hlong]
  rfl

end

/-! ## The source -/

def path : String := "cypress/a.cy.js"

theorem lineText_source (argument : String) :
    lineText (Text.sourceLines (source argument)) 1 = "cy.wait(" := by
  have hlines : Text.splitOn '\n' (source argument).toList =
      "cy.wait(".toList :: Text.splitOn '\n' (argument ++ ")").toList := by
    have hsource : (source argument).toList =
        "cy.wait(".toList ++ '\n' :: (argument ++ ")").toList := by simp [source]
    rw [hsource, Text.splitOn_append_cons]
    rfl
  unfold Text.sourceLines
  rw [hlines]
  rfl

/-- With default settings, the analysis of the sample is stopped. -/
theorem isStopped_source {k : Nat} (hk : 3600 ≤ k) :
    Analysis.IsStopped (parsers (Numeral.sixteenToThe k)) path (source (Numeral.sixteenToThe k))
      (.table Settings.defaults) := by
  refine ⟨[.asyncReliability], _, rfl, rfl, .asyncReliability, List.mem_cons_self, ?_⟩
  apply isStopped_of_le (place_outline (Numeral.sixteenToThe k)) ?_ hk
  rw [Point.ofOffset_zero]
  exact lineText_source _

/-! ## The disks -/

/-- The file with the sample. -/
def file (argument : String) : File where
  bytes := Utf8.encode (source argument).toList
  outlines := (parsers argument).outlines

/-- A link to itself. -/
def circle : File where
  bytes := []
  outlines := []
  refusal? := some .circle

/-- A project with a single file. -/
def disk (file : File) : Disk where
  home := "/project"
  root := .directory [("project", .directory [("cypress", .directory [("a.cy.js", .file file)])])]

section

variable (file : File)

theorem start_disk {path : String} (h : Path.isAbsolute path = false) :
    (disk file).start path = ["project"] := by
  have hsteps : Path.steps "/project" = ["project"] := rfl
  rw [Disk.start, h, if_neg Bool.false_ne_true]
  exact hsteps

theorem place_disk : (disk file).place path = .ok ["project", "cypress", "a.cy.js"] := by
  have hsteps : Path.steps path = ["cypress", "a.cy.js"] := rfl
  rw [Disk.place, start_disk file rfl, hsteps]
  exact Disk.follow_eq_of_at? (by decide) rfl

theorem testFiles_disk : Discovery.testFiles (disk file) "cypress" (.list []) = .ok [path] := by
  have hsteps : (disk file).start "cypress" ++ Path.steps "cypress" = ["project", "cypress"] := by
    have hcypress : Path.steps "cypress" = ["cypress"] := rfl
    rw [start_disk file rfl, hcypress]
    rfl
  have hfound : (disk file).find? "cypress" = some (.directory [("a.cy.js", .file file)]) :=
    Disk.find?_of_at? (by decide) hsteps rfl rfl
  have hbelow : Discovery.below [] "" [("a.cy.js", .file file)] = .ok ["a.cy.js"] := rfl
  have hexclusions : Discovery.Exclusion.ofSetting (.list []) = .ok [] := rfl
  have hpath : Discovery.startOf "cypress" ++ "a.cy.js" = path := rfl
  unfold Discovery.testFiles
  rw [hfound]
  simp only [hexclusions, hbelow, bind, Except.bind, List.map_cons, List.map_nil, hpath,
    List.mergeSort_singleton]
  rfl

/-- With default settings, what stops a scan at the only file prevents the scan. -/
theorem isPreventedBy_disk {fault : Fault}
    (h : Visit.IsStoppedBy (disk file) [defaultGrammar] (.table Settings.defaults) path fault) :
    ScanReport.IsPreventedBy (disk file) [defaultGrammar] "cypress" Settings.defaults fault := by
  have hexclude : Settings.defaults.value .exclude = .list [] := rfl
  refine ⟨[path], ?_, .head h⟩
  rw [hexclude]
  exact testFiles_disk file

end

theorem read_disk {argument : String} (h : '\r' ∉ argument.toList) :
    (disk (file argument)).read path = .ok (file argument, (source argument).toList) := by
  have hsource : '\r' ∉ (source argument).toList := by
    simpa [source] using h
  have htext : (file argument).text = .ok (source argument).toList := File.text_encode hsource rfl
  have hfile : (disk (file argument)).file path = .ok (file argument) := by
    unfold Disk.file
    rw [place_disk]
    rfl
  unfold Disk.read
  rw [hfile]
  simp only [htext, bind, Except.bind, pure, Except.pure]

/-- The sample stops a scan at its file. -/
theorem isStoppedBy_delay {k : Nat} (hk : 3600 ≤ k) :
    Visit.IsStoppedBy (disk (file (Numeral.sixteenToThe k))) [defaultGrammar]
      (.table Settings.defaults) path (.number .tooLongToWrite) := by
  have hchars : '\r' ∉ (Numeral.sixteenToThe k).toList := by
    simp [Numeral.sixteenToThe]
  have hshown : Path.shown "/project" "/project" path = path := rfl
  refine .delay ?_ (read_disk hchars) ?_
  · rintro ⟨-, hcircle⟩
    unfold Disk.isCircle at hcircle
    rw [place_disk] at hcircle
    cases hcircle
  · rw [String.ofList_toList]
    exact hshown.symm ▸ isStopped_source hk

/-- So does a link to itself. -/
theorem isStoppedBy_circle :
    Visit.IsStoppedBy (disk circle) [defaultGrammar] (.table Settings.defaults) path
      (.linkCircle "/project/cypress/a.cy.js") := by
  have hpath : "/" ++ Path.join (Path.stepsFromRoot "/project" path) =
      "/project/cypress/a.cy.js" := rfl
  refine hpath ▸ .circle ⟨rfl, ?_⟩
  unfold Disk.isCircle
  rw [place_disk]
  rfl

end FlakeLint.Sample

namespace FlakeLint

/-! ## Totality -/

/-- Every analysis of a source ends with outputs or with a source that does not parse, except exactly
where a delay that is too long to be written is to be reported. Every scan ends with a report, except
exactly where it finds a file at which such a delay is met, or one whose path leads in a circle while
the system makes a fault of that. The first such file stops it. -/
theorem stopped_iff_unwritable_delay_or_circle {settings : Settings} (hsettings : settings.IsLoaded) :
    (∀ parsers path content, Parsers.isPositioned parsers →
      (Analysis.IsStopped parsers path content (.table settings) →
        Analysis.ofSource parsers path content (.table settings) =
          .error (.number .tooLongToWrite)) ∧
      (¬ Analysis.IsStopped parsers path content (.table settings) →
        (∃ analysis, Analysis.ofSource parsers path content (.table settings) = .ok analysis) ∨
        ∃ failure, Analysis.ofSource parsers path content (.table settings) =
          .error (.parse failure))) ∧
    ∀ disk grammars path, Disk.isPositioned disk → disk.root.contents.length < 2 ^ 1023 →
      (∀ fault, ScanReport.IsPreventedBy disk grammars path settings fault →
        scan disk grammars path (.table settings) = .error fault) ∧
      ((∀ fault, ¬ ScanReport.IsPreventedBy disk grammars path settings fault) →
        ∃ report, scan disk grammars path (.table settings) = .ok report) := by
  have hsound := Settings.isSound_of_isLoaded hsettings
  constructor
  · intro parsers path content hparsers
    rcases Analysis.ofSource_cases hsound hparsers path content with ⟨hstop, hsource⟩ |
      ⟨hgo, ⟨analysis, hsource, -⟩ | hfailed⟩
    · exact ⟨fun _ => hsource, fun hgo => absurd hstop hgo⟩
    · exact ⟨fun hstop => absurd hstop hgo, fun _ => .inl ⟨analysis, hsource⟩⟩
    · exact ⟨fun hstop => absurd hstop hgo, fun _ => .inr hfailed⟩
  · intro disk grammars path hdisk hcount
    exact ScanReport.scan_of_isPreventedBy hsound hdisk hcount grammars path

/-- A wait for `16 ^ 3600` milliseconds stops the analysis of its file and the scan of its project. A
link to itself stops the scan of its project. -/
theorem stopped_by_long_delay_and_by_circle :
    Settings.IsLoaded Settings.defaults ∧
    Analysis.ofSource (Sample.parsers (Numeral.sixteenToThe 3600)) Sample.path
      (Sample.source (Numeral.sixteenToThe 3600)) (.table Settings.defaults) =
        .error (.number .tooLongToWrite) ∧
    scan (Sample.disk (Sample.file (Numeral.sixteenToThe 3600))) [defaultGrammar] "cypress"
      (.table Settings.defaults) = .error (.number .tooLongToWrite) ∧
    scan (Sample.disk Sample.circle) [defaultGrammar] "cypress" (.table Settings.defaults) =
      .error (.linkCircle "/project/cypress/a.cy.js") := by
  have hloaded : Settings.IsLoaded Settings.defaults :=
    ⟨0, { home := "/project", root := .directory [] }, "settings.json", [], rfl⟩
  have hcount : ∀ file, (Sample.disk file).root.contents.length < 2 ^ 1023 := by
    -- Behind a name, the bound is not written out as a numeral.
    obtain ⟨n, hn, hlimit⟩ : ∃ n, n ≠ 0 ∧ 2 ^ 1023 = 2 ^ n := ⟨1023, by decide, rfl⟩
    intro file
    rw [hlimit]
    exact Nat.one_lt_two_pow hn
  obtain ⟨hsource, hscan⟩ := stopped_iff_unwritable_delay_or_circle hloaded
  exact ⟨hloaded,
    (hsource _ _ _ rfl).1 (Sample.isStopped_source (by decide)),
    (hscan _ _ _ rfl (hcount _)).1 _
      (Sample.isPreventedBy_disk _ (Sample.isStoppedBy_delay (by decide))),
    (hscan _ _ _ rfl (hcount _)).1 _ (Sample.isPreventedBy_disk _ Sample.isStoppedBy_circle)⟩

end FlakeLint
