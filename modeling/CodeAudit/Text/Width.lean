import CodeAudit.Text.Blank
import CodeAudit.Text.Case
import CodeAudit.Text.WidthTable
namespace CodeAudit.Text

/-- The columns that a character takes on a screen. -/
def charWidth (c : Char) : Nat :=
  if inRanges c.toNat zeroWidthRanges then 0 else if inRanges c.toNat wideRanges then 2 else 1

/-- The columns of a text, `shown` being the last character with columns of its own. A joiner takes
the character after it into the one before, and a selector makes a picture of what was shown. -/
def widthFrom (shown : Option Char) : List Char → Nat
  | [] => 0
  | '\u200d' :: [] => 0
  | '\u200d' :: _ :: cs => widthFrom shown cs
  | '\ufe0f' :: cs =>
    match shown with
    | some c => (if inRanges c.toNat picturedRanges then 1 else 0) + widthFrom none cs
    | none => widthFrom none cs
  | c :: cs =>
    if charWidth c = 0 then widthFrom shown cs else charWidth c + widthFrom (some c) cs

def width (cs : List Char) : Nat := widthFrom none cs

/-- The columns from one tab stop to the next. -/
def tabSize : Nat := 8

/-- The pieces of a line between its tabs in a row, each with spaces up to the next tab stop, the
last excepted. -/
def fillTabs : List (List Char) → List Char
  | [] => []
  | [piece] => piece
  | piece :: rest =>
    piece ++ List.replicate (tabSize - width piece % tabSize) ' ' ++ fillTabs rest

/-- A line with spaces for its tabs. -/
def expandTabs (line : List Char) : List Char := fillTabs (splitAt '\t' line)

/-- Controls that move the cursor or ring the bell; a line feed or a tab is none of them. -/
def movesCursor (c : Char) : Bool :=
  c == '\x07' || c == '\x08' || c == '\x0b' || c == '\x0c' || c == '\r'

/-- A text as a screen shows it: without controls that move the cursor, and with spaces for tabs. -/
def onScreen (cs : List Char) : List Char :=
  ['\n'].intercalate ((splitAt '\n' (cs.filter (!movesCursor ·))).map expandTabs)

end CodeAudit.Text
