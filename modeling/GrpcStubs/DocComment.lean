import GrpcStubs.Text.Blank
import GrpcStubs.Text.Split

set_option autoImplicit false

namespace GrpcStubs.DocComment
open Text

def special : List Char :=
  "\\`*_[]#<>".toList

def escapeChars : List Char → List Char
  | [] => []
  | c :: cs => if special.contains c then '\\' :: c :: escapeChars cs else c :: escapeChars cs

def escape (text : String) : String :=
  .ofList (escapeChars text.toList)

def marker : List Char :=
  "///".toList

/-- A space follows the marker unless the line starts with a blank. -/
def renderLine (line : List Char) : List Char :=
  if allBlank line then marker
  else if line.head?.any isBlank then marker ++ escapeChars line
  else marker ++ ' ' :: escapeChars line

def contentLines (comment : List Char) : List (List Char) :=
  dropEndWhile allBlank (commentLines comment)

/-- What has a meaning in Markdown is escaped, so that the comment reads the same in the generated
    documentation. -/
def render (comment : String) : String :=
  .ofList ((contentLines comment.toList).flatMap fun line => renderLine line ++ ['\n'])

end GrpcStubs.DocComment
