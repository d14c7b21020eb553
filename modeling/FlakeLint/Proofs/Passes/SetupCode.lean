-- SUMMARY: Setup code around an action: which lines are searched, and what marks them.
import FlakeLint.Proofs.Passes.Translation
import FlakeLint.Proofs.Text.Patterns

/-!
# Setup code

An action near setup code needs no check. The lines that are searched for a mark of
setup code reach from the ninth line above the action to the fifth below, as far as
there are such lines; so a mark on the tenth line above does not count.
-/

namespace FlakeLint.Setup

open FlakeLint.Text

-- ---------------------------------------------------------------------------
-- Marked lines
-- ---------------------------------------------------------------------------

/-- The line with this number, counted from 1, exists and has a mark of setup code in it, whatever the
case of the letters. -/
def MarksSetup (lines : List String) (number : Int) : Prop :=
  ∃ text, lineAt? lines number = some text ∧
    ∃ marker ∈ ["beforeeach", "before(", "// setup", "// navigate", "// preparation"],
      marker.toList <:+: (lower text).toList

/-- One of the lines with these numbers has a mark of setup code. -/
def IsNearSetup (lines : List String) (first last : Int) : Prop :=
  ∃ number, first ≤ number ∧ number ≤ last ∧ MarksSetup lines number

theorem isMarked_iff {text : String} :
    isMarked text = true ↔ ∃ marker ∈ markers, marker.toList <:+: (lower text).toList := by
  unfold isMarked contains
  simp only [List.any_eq_true, containsChars_iff]

theorem marksSetup_iff {lines : List String} {number : Int} :
    MarksSetup lines number ↔
      ∃ i : Nat, number = i + 1 ∧ ∃ text, lines[i]? = some text ∧ isMarked text = true := by
  constructor
  · rintro ⟨text, hline, hmarked⟩
    unfold lineAt? at hline
    split at hline
    · exact ⟨(number - 1).toNat, by omega, text, hline, isMarked_iff.2 hmarked⟩
    · cases hline
  · rintro ⟨i, rfl, text, hline, hmarked⟩
    exact ⟨text, (lineAt?_succ lines i).trans hline, isMarked_iff.1 hmarked⟩

/-- Of the ten lines above an action nine are searched. -/
theorem any_window_isMarked_iff {lines : List String} {line : Int} (h : 1 ≤ line) :
    (window lines line).any isMarked = true ↔ IsNearSetup lines (line - 9) (line + 5) := by
  rw [any_window_iff h]
  constructor
  · rintro ⟨i, text, hi, hmarked, hlow, hhigh⟩
    exact ⟨i + 1, by omega, by omega, marksSetup_iff.2 ⟨i, rfl, text, hi, hmarked⟩⟩
  · rintro ⟨_, hlow, hhigh, hmarks⟩
    obtain ⟨i, rfl, text, hi, hmarked⟩ := marksSetup_iff.1 hmarks
    exact ⟨i, text, hi, hmarked, by omega, by omega⟩

theorem isNearSetup_iff_of_le {lines : List String} {first last : Int} (h : first ≤ last) :
    IsNearSetup lines first last ↔
      MarksSetup lines first ∨ IsNearSetup lines (first + 1) last := by
  constructor
  · rintro ⟨number, hlow, hhigh, hmarks⟩
    rcases eq_or_lt_of_le hlow with rfl | hlt
    · exact .inl hmarks
    · exact .inr ⟨number, hlt, hhigh, hmarks⟩
  · rintro (hmarks | ⟨number, hlow, hhigh, hmarks⟩)
    · exact ⟨first, le_rfl, h, hmarks⟩
    · exact ⟨number, by omega, hhigh, hmarks⟩

-- ---------------------------------------------------------------------------
-- Navigation
-- ---------------------------------------------------------------------------

/-- A word for a control stands in the text and, behind it on the same line, a word for leaving. -/
def HoldsNavigation (text : String) : Prop :=
  HoldsInTurn ["nav", "menu", "tab", "link", "button"]
    ["close", "cancel", "back", "next", "prev", "skip"] text.toList

/-- There is a selector, not empty, that names a control for navigation. -/
def IsForNavigation (selector : Option String) : Prop :=
  ∃ text, selector = some text ∧ text ≠ "" ∧ HoldsNavigation text

theorem isNavigation_iff {text : String} :
    Selector.isNavigation text = true ↔ HoldsNavigation text :=
  occurs_afterWordThen_iff (by decide) (by decide) (by decide)

theorem any_isNavigation_iff {selector : Option String} :
    selector.any Selector.isNavigation = true ↔ IsForNavigation selector := by
  rw [Option.any_eq_true]
  constructor
  · rintro ⟨text, rfl, hnavigation⟩
    refine ⟨text, rfl, ?_, isNavigation_iff.1 hnavigation⟩
    rintro rfl
    revert hnavigation
    decide
  · rintro ⟨text, rfl, -, hholds⟩
    exact ⟨text, rfl, isNavigation_iff.2 hholds⟩

-- ---------------------------------------------------------------------------
-- Actions without a check
-- ---------------------------------------------------------------------------

theorem excuses_iff (command : String) (selector : Option String) (lines : List String)
    {line : Int} (h : 1 ≤ line) :
    excuses command selector lines line = true ↔
      command ∈ commands ∨ IsNearSetup lines (line - 9) (line + 5) ∨ IsForNavigation selector := by
  unfold excuses
  rw [Bool.or_eq_true, Bool.or_eq_true, any_window_isMarked_iff h, any_isNavigation_iff,
    List.contains_iff_mem, or_assoc]

/-- Unless its command is a setup verb, an action is excused exactly by a mark of setup code on the nine
lines above it, its own line or the five lines below, and by a selector for navigation. A mark on the
tenth line above is what ten lines above and five below would add to that. -/
theorem excuses_iff_isNearSetup {command : String} (selector : Option String) (lines : List String)
    {line : Int} (hcommand : command ∉ ["scrollIntoView", "scrollTo", "focus", "blur", "clear"])
    (hline : 1 ≤ line) :
    (excuses command selector lines line = true ↔
      IsNearSetup lines (line - 9) (line + 5) ∨ IsForNavigation selector) ∧
    (IsNearSetup lines (line - 10) (line + 5) ∨ IsForNavigation selector ↔
      MarksSetup lines (line - 10) ∨ excuses command selector lines line = true) := by
  have hexcuses : excuses command selector lines line = true ↔
      IsNearSetup lines (line - 9) (line + 5) ∨ IsForNavigation selector := by
    rw [excuses_iff command selector lines hline]
    exact or_iff_right hcommand
  refine ⟨hexcuses, ?_⟩
  rw [hexcuses, isNearSetup_iff_of_le (by omega), or_assoc,
    show line - 10 + 1 = line - 9 by omega]

namespace Sample

/-- A test whose setup code begins ten lines above its last line. -/
def farSetup : List String :=
  ["it('submits', () => {});", "beforeEach(() => \x7b", "  a();", "  b();", "  c();", "  d();", "  e();",
    "  f();", "  g();", "  h();", "\x7d);", "cy.get('#go').click();"]

end Sample

/-- The setup code ten lines above the action does not excuse it. -/
theorem excuses_of_farSetup :
    IsNearSetup Sample.farSetup (12 - 10) (12 + 5) ∧
    excuses "click" (some "#go") Sample.farSetup 12 = false ∧
    ¬ IsNearSetup Sample.farSetup (12 - 9) (12 + 5) := by
  have hmarks : MarksSetup Sample.farSetup (12 - 10) :=
    ⟨"beforeEach(() => \x7b", by decide, "beforeeach", by decide, by decide +kernel⟩
  have hexcuses : excuses "click" (some "#go") Sample.farSetup 12 = false := by decide +kernel
  have hiff := (excuses_iff_isNearSetup (some "#go") Sample.farSetup
    (show "click" ∉ ["scrollIntoView", "scrollTo", "focus", "blur", "clear"] by decide)
    (show (1 : Int) ≤ 12 by decide)).1
  refine ⟨⟨12 - 10, le_rfl, by decide, hmarks⟩, hexcuses, fun hnear => ?_⟩
  rw [hiff.2 (.inl hnear)] at hexcuses
  cases hexcuses

end FlakeLint.Setup
