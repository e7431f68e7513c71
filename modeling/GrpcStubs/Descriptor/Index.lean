import GrpcStubs.Descriptor
import GrpcStubs.Schema

set_option autoImplicit false

/-!
# Indexes of messages

An index finds a message by its qualified name: a dot, the package, the names of the messages
around it and its own name, with dots between them. Of messages with one name the last counts,
where a nested message comes before the one that holds it.
-/

namespace GrpcStubs.Descriptor

def File.scope (file : File) : String :=
  if file.package.isEmpty then "" else "." ++ file.package

structure Index where
  /-- The messages with their names, the last one first. -/
  entries : List (String × GrpcStubs.Message) := []

namespace Index

def record (index : Index) (fullName : String) (message : GrpcStubs.Message) : Index :=
  ⟨(fullName, message) :: index.entries⟩

def declared (file : String) (parent : Option GrpcStubs.Message) (name : String) :
    GrpcStubs.Message :=
  match parent with
  | some parent => parent.inside name
  | none => .outermost name file

mutual

/-- Record a message, after all that are nested in it. -/
def insert (file scope : String) (parent : Option GrpcStubs.Message) (index : Index) :
    Message → Index
  | .mk name nested =>
    let fullName := scope ++ "." ++ name
    let message := declared file parent name
    (index.insertAll file fullName (some message) nested).record fullName message

def insertAll (file scope : String) (parent : Option GrpcStubs.Message) (index : Index) :
    List Message → Index
  | [] => index
  | message :: messages =>
    (index.insert file scope parent message).insertAll file scope parent messages

end

def ofFiles (files : List File) : Index :=
  files.foldl (fun index file => index.insertAll file.name file.scope none file.messages) {}

/-- The dot at the start may be left out. -/
def qualified (typeName : String) : String :=
  if typeName.toList.head? = some '.' then typeName else "." ++ typeName

def find? (index : Index) (typeName : String) : Option GrpcStubs.Message :=
  index.entries.lookup (qualified typeName)

end Index

end GrpcStubs.Descriptor
