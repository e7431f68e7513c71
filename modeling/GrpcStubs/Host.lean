import GrpcStubs.Disk
import GrpcStubs.Options

set_option autoImplicit false

/-!
# The machine that a run works on

A run reads and writes files and prints. `Host` is all that it asks for, so that the same run can
be made on a machine and on a model of one.
-/

namespace GrpcStubs

structure Host (m : Type → Type) where
  read : String → m (Except Disk.Fault Bytes)
  createDirectories : String → m (Except Disk.Fault Unit)
  write : String → Bytes → m (Except Disk.Fault Unit)
  print : String → m Unit

def Host.mappingTexts {m : Type → Type} [Monad m] (host : Host m) (parameter : String) : m Texts := do
  let texts ← (Options.mappingFiles parameter).mapM fun path =>
    return (path, Disk.textOf (← host.read path))
  return fun path => (texts.lookup path).getD (.error Disk.Fault.notFound.message)

structure Session where
  disk : Disk
  printed : String := ""

def Session.host : Host (StateM Session) where
  read path session := (session.disk.read path, session)
  createDirectories path session :=
    let (result, disk) := session.disk.createDirectories path
    (result, { session with disk })
  write path content session :=
    let (result, disk) := session.disk.write path content
    (result, { session with disk })
  print text session := ((), { session with printed := session.printed ++ text })

end GrpcStubs
