-- SUMMARY: Styled text and messages for a terminal, and what takes the text.
import FlakeLint.Output
import FlakeLint.Text.Utf16

/-!
# Terminal

Text is styled only if the output goes to a terminal and styles are not switched
off. Messages go to the error stream and are styled by their kind; log lines
never are, and appear only on demand. What is printed may be refused, line by line.
-/

namespace FlakeLint

inductive Style where
  | reset
  | bold
  | dim
  | red
  | green
  | yellow
  | blue
  | cyan
deriving DecidableEq, Repr

namespace Style

def all : List Style :=
  [.reset, .bold, .dim, .red, .green, .yellow, .blue, .cyan]

def name : Style → String
  | .reset => "reset"
  | .bold => "bold"
  | .dim => "dim"
  | .red => "red"
  | .green => "green"
  | .yellow => "yellow"
  | .blue => "blue"
  | .cyan => "cyan"

def ofName? (name : String) : Option Style :=
  all.find? fun style => style.name = name

/-- The number of a style in a control sequence. -/
def code : Style → Nat
  | .reset => 0
  | .bold => 1
  | .dim => 2
  | .red => 31
  | .green => 32
  | .yellow => 33
  | .blue => 34
  | .cyan => 36

def sequence (style : Style) : String :=
  s!"\u001b[{style.code}m"

end Style

structure Terminal where
  /-- Does the output go to a terminal? -/
  isTerminal : Bool
  /-- Are styles switched off? -/
  isPlain : Bool
deriving DecidableEq, Repr

namespace Terminal

/-- Styles a text as a whole and goes back to plain text behind it, also if no style is known. -/
def paintWith (terminal : Terminal) (style : Option Style) (text : String) : String :=
  if terminal.isPlain || !terminal.isTerminal then text
  else (style.map Style.sequence).getD "" ++ text ++ Style.reset.sequence

def paint (terminal : Terminal) (style : Style) (text : String) : String :=
  terminal.paintWith (some style) text

/-- Styles a text that may hold halves of pairs. -/
def paintText (terminal : Terminal) (style : Style) (text : Utf16) : Utf16 :=
  if terminal.isPlain || !terminal.isTerminal then text
  else ↑style.sequence ++ text ++ ↑Style.reset.sequence

end Terminal

/-! ## Printing -/

namespace Utf16

/-- The first half of a pair that stands alone, with those that follow right upon it. -/
def halvesFrom? (position : Nat) : List Glyph → Option TextFault
  | [] => none
  | .char _ :: rest => halvesFrom? (position + 1) rest
  | .half unit :: rest =>
    let more := rest.takeWhile fun glyph => glyph.char?.isNone
    some (.halves unit position (position + more.length))

/-- Why a text cannot be encoded, if it cannot. -/
def halves? (text : Utf16) : Option TextFault :=
  halvesFrom? 0 text.glyphs

/-- Texts as lines, each with a line break behind it. -/
def ofLines (lines : List Utf16) : Utf16 :=
  ⟨lines.flatMap fun line => (line ++ ↑"\n").units⟩

end Utf16

/-- Where lines are printed to: why it does not take a line, if it does not. -/
structure Sink where
  refusal? : Utf16 → Option TextFault

namespace Sink

/-- A sink that takes every line. -/
def granting : Sink where
  refusal? _ := none

/-- A sink that encodes its lines, and has nothing for a half of a pair. -/
def encoding : Sink where
  refusal? := Utf16.halves?

end Sink

/-! ## Messages -/

inductive Message where
  | status (text : String)
  | warning (text : String)
  | error (text : String)
  | log (line : LogLine)
deriving DecidableEq, Repr

namespace Message

def render (terminal : Terminal) : Message → String
  | .status text => terminal.paint .dim text
  | .warning text => terminal.paint .yellow s!"  testcopilot: warning: {text}"
  | .error text => terminal.paint .red s!"  testcopilot: error: {text}"
  | .log line => line.render

/-- What the error stream shows of some messages, one a line. -/
def stream (terminal : Terminal) (showLog : Bool) (messages : List Message) : String :=
  String.join <| messages.map fun message =>
    match message with
    | .log _ => if showLog then message.render terminal ++ "\n" else ""
    | _ => message.render terminal ++ "\n"

end Message

end FlakeLint
