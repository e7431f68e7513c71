import GrpcStubs.Options
import GrpcStubs.Schema

set_option autoImplicit false

namespace GrpcStubs

/-- The path of a type in the module of its file: a message holds its nested messages in a module
    of its own name. -/
def Message.localSegments (message : Message) : List String :=
  (message.around.map fun outer => Identifier.escape (Identifier.snakeCase outer.name)).reverse ++
    [Identifier.escape message.name]

namespace Path

def upward (depth : Nat) (segments : List String) : Path :=
  ⟨false, List.replicate depth "super" ++ segments⟩

/-- The path `below` a module that is named as seen from `depth` levels further up. A global path
    and one that starts at the crate mean the same at every depth. -/
def descend (modulePath : Path) (depth : Nat) (below : List String) : Path :=
  match modulePath.isGlobal, modulePath.segments with
  | true, segments => ⟨true, segments ++ below⟩
  | false, ["self"] => upward depth below
  | false, "crate" :: next :: rest => ⟨false, "crate" :: next :: rest ++ below⟩
  | false, "self" :: rest => upward depth (rest ++ below)
  | false, segments => upward depth (segments ++ below)

end Path

/-- The path of a message type, seen from `depth` levels below the root of the current file. -/
def Context.typePath (ctx : Context) (depth : Nat) (message : Message) : Except Error Path :=
  if ctx.isLocal message.file then
    .ok (ctx.options.messageModule.descend depth message.localSegments)
  else
    match ctx.options.crates.get? message.file with
    | some crate => .ok ⟨true, Identifier.escape crate :: message.localSegments⟩
    | none => .error (.unmappedFile message.file message.name)

end GrpcStubs
