import GrpcStubs.Template.Placeholder

set_option autoImplicit false

/-!
# Printing templates

A printer holds the text printed so far and the indentation of the block that is being printed.
`printTemplate` prints a template. A placeholder alone on its line prints its value at the
indentation of that line, so a block bound to it is indented as a whole. A failed action leaves
behind what it printed before it failed, and the indentation it found.
-/

namespace GrpcStubs.Template
open Text

structure Printer where
  output : String := ""
  indent : Nat := 0

abbrev Print := ExceptT Error (StateM Printer)

inductive Value where
  | text (content : String)
  | block (body : Print Unit)

abbrev Bindings := List (String × Value)

def spaces (n : Nat) : String :=
  .ofList (List.replicate n ' ')

def lineBreak : Print Unit :=
  modify fun p => { p with output := p.output ++ "\n" }

/-- A line without text is not indented. -/
def printLine (extra : Nat) (text : String) : Print Unit :=
  if text.isEmpty then lineBreak
  else modify fun p => { p with output := p.output ++ spaces (p.indent + extra) ++ text ++ "\n" }

def printText (extra : Nat) (text : String) : Print Unit :=
  (lines text.toList).forM fun line => printLine extra (.ofList line)

/-- Run an action with a deeper indentation, which is taken back also if the action fails. From an
    action that leaves less than that, nothing below 0 is taken; steps leave what they find. -/
def indented (extra : Nat) (body : Print Unit) : Print Unit := fun p =>
  let (result, q) := body { p with indent := p.indent + extra }
  (result, { q with indent := q.indent - extra })

def printed (body : Print Unit) : Except Error String :=
  match body {} with
  | (.ok _, p) => .ok p.output
  | (.error e, _) => .error e

/-- A block within a line is printed apart, and the line breaks at its end are dropped. -/
def Value.inline : Value → Except Error String
  | .text content => .ok content
  | .block body => do
    let content ← printed body
    return .ofList (dropEndWhile (· == '\n') content.toList)

def valueOf (bindings : Bindings) (name : String) : Except Error Value :=
  match bindings.lookup name with
  | some value => .ok value
  | none => .error (.unboundName name)

def printValue (extra : Nat) : Value → Print Unit
  | .text content => printText extra content
  | .block body => indented extra body

def printTemplateLine (bindings : Bindings) (line : Line) : Print Unit := do
  if allBlank line then lineBreak
  else
    let extra := indentWidth line
    let body := trimStart line
    match soleName? body with
    | some name => printValue extra (← valueOf bindings name)
    | none => printLine extra (← fill (fun name => valueOf bindings name >>= Value.inline) body)

def printTemplate (bindings : Bindings) (source : String) : Print Unit :=
  (layout source.toList).forM (printTemplateLine bindings)

end GrpcStubs.Template
