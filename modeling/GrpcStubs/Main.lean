import GrpcStubs.CommandLine

set_option autoImplicit false

namespace GrpcStubs.Main

def faultOf : IO.Error → Disk.Fault
  | .noFileOrDirectory .. => .notFound
  | .alreadyExists .. => .alreadyExists
  | .inappropriateType _ 20 _ => .notDirectory
  | .inappropriateType _ 21 _ => .isDirectory
  | .invalidArgument _ 36 _ => .nameTooLong
  | error => .other error.toString

def attempt {α : Type} (path : String) (action : IO α) : IO (Except Disk.Fault α) := do
  if path.toList.contains '\x00' then return .error .nulInPath
  try
    return .ok (← action)
  catch error =>
    return .error (faultOf error)

def host : Host IO where
  read path := attempt path do return (← IO.FS.readBinFile path).data.toList
  createDirectories path := do
    if path.isEmpty then return .ok ()
    attempt path (IO.FS.createDirAll path)
  write path content := attempt path (IO.FS.writeBinFile path ⟨content.toArray⟩)
  print := IO.print

partial def readAll (input : IO.FS.Stream) (start : ByteArray) : IO ByteArray := do
  let chunk ← input.read 65536
  if chunk.isEmpty then return start
  readAll input (start ++ chunk)

def fail (failure : Failure) : IO UInt32 := do
  IO.eprint failure.report
  return 1

def plugin : IO UInt32 := do
  let input := (← readAll (← IO.getStdin) .empty).data.toList
  let parameter := (Request.read input).elim "" (·.parameter)
  match CommandLine.answer (← host.mappingTexts parameter) input with
  | .error failure => fail failure
  | .ok response =>
    let output ← IO.getStdout
    output.write ⟨response.write.toArray⟩
    output.flush
    return 0

def generate (arguments : Standalone.Arguments) : IO UInt32 := do
  match ← (Standalone.run host arguments).run with
  | .error failure => fail failure
  | .ok _ => return 0

end GrpcStubs.Main

open GrpcStubs in
def main (arguments : List String) : IO UInt32 := do
  match CommandLine.parse? arguments with
  | some .plugin => Main.plugin
  | some (.generate options) => Main.generate options
  | some .version =>
    IO.print CommandLine.versionText
    return 0
  | some .help =>
    IO.print CommandLine.usageText
    return 0
  | none =>
    IO.eprint CommandLine.usageText
    return 2
