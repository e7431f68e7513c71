set_option autoImplicit false

namespace GrpcStubs

abbrev Bytes := List UInt8

def Bytes.ofText (text : String) : Bytes :=
  text.toUTF8.data.toList

def Bytes.text? (bytes : Bytes) : Option String :=
  String.fromUTF8? ⟨bytes.toArray⟩

end GrpcStubs
