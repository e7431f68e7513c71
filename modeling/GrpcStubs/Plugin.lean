import GrpcStubs.Descriptor.Resolve
import GrpcStubs.GeneratedFile

set_option autoImplicit false

namespace GrpcStubs

structure Request where
  toGenerate : List String := []
  parameter : String := ""
  files : List Descriptor.File := []

structure Response where
  error : Option String := none
  /-- The generator accepts optional fields in schemas of the third version. -/
  supportedFeatures : Nat := 1
  files : List GeneratedFile := []
deriving DecidableEq, Repr

namespace Plugin

def options (texts : Texts) (toGenerate : List String) (parameter : String) :
    Except Failure Options :=
  match Options.parse texts parameter with
  | .ok options => .ok { options with crateFiles := toGenerate }
  | .error error => .error ⟨[.readParameter], .generation error⟩

def output (options : Options) (described : List Descriptor.File) (index : Descriptor.Index)
    (name : String) : Except Failure (Option GeneratedFile) :=
  match described.find? fun file => file.name == name with
  | none => .error ⟨[], .fileNotProvided name⟩
  | some file => do
    let resolved ← (file.resolve index).mapError (.during (.readFile name))
    match resolved.generate options with
    | .ok generated => .ok generated
    | .error error => .error ⟨[.generateFile name], .generation error⟩

def outputs (texts : Texts) (described : List Descriptor.File) (toGenerate : List String)
    (parameter : String) : Except Failure (List GeneratedFile) := do
  let options ← options texts toGenerate parameter
  let generated ← toGenerate.mapM (output options described (.ofFiles described))
  return generated.filterMap id

def respond (texts : Texts) (request : Request) : Response :=
  match outputs texts request.files request.toGenerate request.parameter with
  | .ok generated => { files := generated }
  | .error failure => { error := some failure.message }

end Plugin

end GrpcStubs
