import GrpcStubs.CrateMap
import GrpcStubs.Parameter

set_option autoImplicit false

namespace GrpcStubs

structure Options where
  /-- The module of the message types, seen from the root of a generated file. -/
  messageModule : Path := .current
  crates : CrateMap := .empty
  /-- The files whose messages are generated into the same crate. -/
  crateFiles : List String := []
  buildClient : Bool := true
  buildServer : Bool := true

namespace Options
open Text

def isDefault (options : Options) : Bool :=
  options.messageModule == .current && options.crates == .empty && options.crateFiles.isEmpty &&
    options.buildClient && options.buildServer

/-- An empty path is the module itself. -/
def withMessageModule (options : Options) (value : String) : Except Parameter.Fault Options :=
  let text := trim value.toList
  if text.isEmpty then .ok { options with messageModule := .current }
  else
    match Path.ofText? text with
    | .ok path => .ok { options with messageModule := path }
    | .error fault => .error (.notModulePath (.ofList text) fault)

def withMappingFile (texts : Texts) (options : Options) (path : String) :
    Except Error Options :=
  if path.isEmpty then .error Parameter.Fault.noMappingFile.toError
  else return { options with crates := ← CrateMap.load texts path }

def apply (texts : Texts) (options : Options) (p : Parameter) : Except Error Options :=
  match p.key with
  | "message_module_path" => (options.withMessageModule p.value).mapError (·.toError)
  | "crate_mapping" => options.withMappingFile texts p.value
  | "build_client" =>
    match p.switch with
    | .ok on => .ok { options with buildClient := on }
    | .error fault => .error fault.toError
  | "build_server" =>
    match p.switch with
    | .ok on => .ok { options with buildServer := on }
    | .error fault => .error fault.toError
  | key => .error (Parameter.Fault.unknown key).toError

def parse (texts : Texts) (text : String) : Except Error Options := do
  let parameters ← (Parameter.parseAll text).mapError (·.toError)
  parameters.foldlM (apply texts) {}

def mappingFiles (text : String) : List String :=
  match Parameter.parseAll text with
  | .ok parameters => (parameters.filter (·.key == "crate_mapping")).map (·.value)
  | .error _ => []

end Options

structure Context where
  options : Options
  file : String

/-- Whether the messages of `file` are generated into the crate of the current file. -/
def Context.isLocal (ctx : Context) (file : String) : Bool :=
  file == ctx.file || ctx.options.crateFiles.contains file

end GrpcStubs
