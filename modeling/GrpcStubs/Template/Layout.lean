import GrpcStubs.Text.Blank
import GrpcStubs.Text.Split
import GrpcStubs.Text.Width

set_option autoImplicit false

/-!
# Layout of templates

A template is written indented, with its text between two line breaks, so that it can stand inside
other code. `layout` recovers the lines that are meant: the line before the text and a blank line
after it are dropped, and the indentation that all other lines share is cut off.
-/

namespace GrpcStubs.Template
open Text

abbrev Line := List Char

def ofLines (lines : List String) : String :=
  .ofList ('\n' :: lines.flatMap fun line => line.toList ++ ['\n'])

def dropFirstEmpty : List Line → List Line
  | [] :: lines => lines
  | lines => lines

def dropLastBlank (lines : List Line) : List Line :=
  if lines.getLast?.any allBlank then lines.dropLast else lines

/-- How far a line is indented, in bytes. -/
def indentWidth (line : Line) : Nat :=
  utf8Width (leadingBlanks line)

def commonIndent (lines : List Line) : Nat :=
  ((lines.filter fun line => !allBlank line).map indentWidth).min?.getD 0

/-- A line that cannot be cut at the common indentation becomes empty. -/
def cut (width : Nat) (line : Line) : Line :=
  (dropWidth width line).getD []

def textLines (template : List Char) : List Line :=
  dropLastBlank (dropFirstEmpty (splitAt '\n' template))

def layout (template : List Char) : List Line :=
  let lines := textLines template
  lines.map (cut (commonIndent lines))

end GrpcStubs.Template
