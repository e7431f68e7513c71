import GrpcStubs.Host
import GrpcStubs.Plugin
import GrpcStubs.Wire.Schema

set_option autoImplicit false

namespace GrpcStubs.Standalone

def roots (files : List Descriptor.File) : List String :=
  let imported := files.flatMap (·.dependencies)
  (files.map (·.name)).filter fun name => !imported.contains name

def selection (requested : List String) (files : List Descriptor.File) : List String :=
  if requested.isEmpty then roots files else requested

structure Arguments where
  descriptorSet : String
  outDirectory : String
  files : List String := []
  parameter : String := ""
deriving DecidableEq, Repr

def decode (path : String) (content : Bytes) : Except Failure (List Descriptor.File) :=
  match Descriptor.readSet content with
  | some files => .ok files
  | none => .error ⟨[.decodeSet path], .undecodable⟩

def generated (path : String) : String :=
  s!"Generated {path}"

def nothingGenerated : String :=
  "No services found; nothing generated"

section

variable {m : Type → Type} [Monad m] {α : Type}

def during (task : Failure.Task) (action : m (Except Disk.Fault α)) : ExceptT Failure m α :=
  ExceptT.mk do
    return (← action).mapError fun fault => ⟨[task], .disk fault⟩

def announce (host : Host m) (line : String) : ExceptT Failure m Unit :=
  ExceptT.lift (host.print (line ++ "\n"))

def save (host : Host m) (outDirectory : String) (file : GeneratedFile) :
    ExceptT Failure m Unit := do
  let path := Disk.join outDirectory file.name
  match Disk.parent? path with
  | some directory => during (.createDirectory directory) (host.createDirectories directory)
  | none => pure ()
  during (.writeFile path) (host.write path (.ofText file.content))
  announce host (generated path)

def run (host : Host m) (arguments : Arguments) : ExceptT Failure m Unit := do
  let set := arguments.descriptorSet
  let content ← during (.readSet set) (host.read set)
  let files ← liftM (decode set content)
  let texts ← ExceptT.lift (host.mappingTexts arguments.parameter)
  let requested := selection arguments.files files
  let outputs ← liftM (Plugin.outputs texts files requested arguments.parameter)
  outputs.forM (save host arguments.outDirectory)
  if outputs.isEmpty then announce host nothingGenerated

end

end GrpcStubs.Standalone
