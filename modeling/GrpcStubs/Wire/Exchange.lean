import GrpcStubs.Plugin
import GrpcStubs.Wire.Schema

set_option autoImplicit false

namespace GrpcStubs
open Wire

def Request.merge (budget : Nat) (request : Request) (field : Field) : Option Request :=
  match field.number with
  | 1 => do return { request with toGenerate := request.toGenerate ++ [← field.text] }
  | 2 => do return { request with parameter := ← field.text }
  | 15 => do
    return { request with
      files := request.files ++ [← mergeEmbedded Descriptor.File.merge {} budget field] }
  | _ => Part.request.skip budget request field

def Request.read (bytes : Bytes) : Option Request :=
  readInto Request.merge {} Descriptor.depthBudget bytes

def GeneratedFile.write (file : GeneratedFile) : Bytes :=
  writeTextField 1 file.name ++ writeTextField 15 file.content

def Response.write (response : Response) : Bytes :=
  (match response.error with
    | some error => writeTextField 1 error
    | none => []) ++
  writeVarintField 2 response.supportedFeatures ++
  response.files.flatMap fun file => writeBytesField 15 file.write

end GrpcStubs
