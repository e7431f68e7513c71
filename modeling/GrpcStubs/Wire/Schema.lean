import GrpcStubs.Descriptor
import GrpcStubs.Wire.Unused

set_option autoImplicit false

/-!
# Encoded schema descriptors

Which field of an encoded descriptor holds what. Of a field that occurs more than once, repeated
fields keep every value, texts and flags the last one, and embedded messages are read into each
other.
-/

namespace GrpcStubs.Descriptor
open Wire

/-- How deep messages may be nested in an encoded one. -/
def depthBudget : Nat := 100

def Location.merge (budget : Nat) (location : Location) (field : Field) : Option Location :=
  match field.number with
  | 1 => do return { location with path := location.path ++ (← field.integers) }
  | 3 => do return { location with leading := ← field.text }
  | 4 => do return { location with trailing := ← field.text }
  | _ => Part.location.skip budget location field

/-- The comments of a file are a message of their own. -/
def mergeLocations (budget : Nat) (locations : List Location) (field : Field) :
    Option (List Location) :=
  match field.number with
  | 1 => do return locations ++ [← mergeEmbedded Location.merge {} budget field]
  | _ => Field.unknown budget locations

def MethodOptions.merge (budget : Nat) (options : MethodOptions) (field : Field) :
    Option MethodOptions :=
  match field.number with
  | 33 => do return { options with deprecated := ← field.flag }
  | _ => Part.methodOptions.skip budget options field

def Method.merge (budget : Nat) (method : Method) (field : Field) : Option Method :=
  match field.number with
  | 1 => do return { method with name := ← field.text }
  | 2 => do return { method with input := ← field.text }
  | 3 => do return { method with output := ← field.text }
  | 4 => do
    let options ← mergeEmbedded MethodOptions.merge (method.options.getD {}) budget field
    return { method with options := some options }
  | 5 => do return { method with clientStreaming := ← field.flag }
  | 6 => do return { method with serverStreaming := ← field.flag }
  | _ => Field.unknown budget method

def Service.merge (budget : Nat) (service : Service) (field : Field) : Option Service :=
  match field.number with
  | 1 => do return { service with name := ← field.text }
  | 2 => do
    let method ← mergeEmbedded Method.merge {} budget field
    return { service with methods := service.methods ++ [method] }
  | _ => Part.service.skip budget service field

def Message.merge (budget : Nat) (readNested : Bytes → Option Message) :
    Message → Field → Option Message
  | .mk name nested, field =>
    match field.number, field.payload with
    | 1, _ => do return .mk (← field.text) nested
    | 3, .bytes content => do return .mk name (nested ++ [← readNested content])
    | 3, _ => none
    | _, _ => Part.message.skip budget (.mk name nested) field

def Message.read : (budget : Nat) → Bytes → Option Message
  | 0, bytes => do
    let fields ← readFields 0 bytes
    fields.foldlM (Message.merge 0 fun _ => none) (.mk "" [])
  | budget + 1, bytes => do
    let fields ← readFields (budget + 1) bytes
    fields.foldlM (Message.merge (budget + 1) (Message.read budget)) (.mk "" [])

def readMessage (budget : Nat) (field : Field) : Option Message := do
  let (left, content) ← field.embedded budget
  Message.read left content

def File.merge (budget : Nat) (file : File) (field : Field) : Option File :=
  match field.number with
  | 1 => do return { file with name := ← field.text }
  | 2 => do return { file with package := ← field.text }
  | 3 => do return { file with dependencies := file.dependencies ++ [← field.text] }
  | 4 => do return { file with messages := file.messages ++ [← readMessage budget field] }
  | 6 => do
    let service ← mergeEmbedded Service.merge {} budget field
    return { file with services := file.services ++ [service] }
  | 9 => do
    let locations ← mergeEmbedded mergeLocations file.locations budget field
    return { file with locations }
  | _ => Part.file.skip budget file field

/-- A set of files is a message with one repeated field. -/
def mergeFiles (budget : Nat) (files : List File) (field : Field) : Option (List File) :=
  match field.number with
  | 1 => do return files ++ [← mergeEmbedded File.merge {} budget field]
  | _ => Field.unknown budget files

def readSet (bytes : Bytes) : Option (List File) :=
  readInto mergeFiles [] depthBudget bytes

end GrpcStubs.Descriptor
