import GrpcStubs.Error
import GrpcStubs.Identifier
import GrpcStubs.Text.Blank
import GrpcStubs.Text.Split
import GrpcStubs.Template.Layout

set_option autoImplicit false

namespace GrpcStubs.Template
open Text

/-- The name in a line that consists of one placeholder, blanks at its end apart. -/
def soleName? (body : Line) : Option String :=
  match trimEnd body with
  | '$' :: rest =>
    match beforeEnd ['$'] rest with
    | some name =>
      if !name.isEmpty && name.all Identifier.isContinue then some (.ofList name) else none
    | none => none
  | _ => none

def unterminated (body : Line) : Error :=
  .malformedTemplate s!"unterminated placeholder in `{String.ofList body}`"

/-- Fill the pieces between the dollar signs of `body`: they are in turn text and names. -/
def fillPieces (value : String → Except Error String) (body : Line) :
    List Line → Except Error String
  | [] => .ok ""
  | [text] => .ok (.ofList text)
  | [_, _] => .error (unterminated body)
  | text :: name :: rest => do
    let filled ← if name.isEmpty then .ok "$" else value (.ofList name)
    let remaining ← fillPieces value body rest
    return .ofList text ++ filled ++ remaining

def fill (value : String → Except Error String) (body : Line) : Except Error String :=
  fillPieces value body (splitAt '$' body)

end GrpcStubs.Template
