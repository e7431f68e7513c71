import GrpcStubs.Template.Printer

set_option autoImplicit false

namespace GrpcStubs.Template

mutual

inductive Step where
  | emptyLine
  | fail (error : Error)
  | template (bindings : List Binding) (source : String)

inductive Binding where
  | text (name content : String)
  | block (name : String) (steps : List Step)

end

mutual

def Step.print : Step → Print Unit
  | .emptyLine => lineBreak
  | .fail error => throw error
  | .template bindings source => printTemplate (Binding.values bindings) source

def Step.printAll : List Step → Print Unit
  | [] => pure ()
  | step :: steps => do
    step.print
    Step.printAll steps

def Binding.value : Binding → String × Value
  | .text name content => (name, .text content)
  | .block name steps => (name, .block (Step.printAll steps))

def Binding.values : List Binding → Bindings
  | [] => []
  | binding :: bindings => binding.value :: Binding.values bindings

end

def Step.render (steps : List Step) : Except Error String :=
  printed (Step.printAll steps)

end GrpcStubs.Template
