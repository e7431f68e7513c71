import GrpcStubs.Wire.Field

set_option autoImplicit false

/-!
# Unused parts of a descriptor

A descriptor says more than code is generated from: the fields of messages, enumerations, options.
These parts are not kept, but they must be well formed. `Part.kind?` lists their fields, and
`Part.skip` passes over a field after checking that its payload is of the listed kind. A field
that is not listed is unknown and may be of any kind.
-/

namespace GrpcStubs.Wire

/-- Messages of which some or all fields are not used. -/
inductive Part where
  | request
  | version
  | file
  | message
  | service
  | methodOptions
  | location
  | fieldType
  | oneof
  | enumType
  | enumValue
  | range
  | extensionRange
  | fileOptions
  | messageOptions
  | fieldOptions
  | enumOptions
  | enumValueOptions
  | serviceOptions
  | otherOptions
  | customOption
  | customName
deriving DecidableEq, Repr

inductive Kind where
  | text
  | bytes
  | number
  | numbers
  | double
  | message (part : Part)
deriving DecidableEq, Repr

/-- The kind of a field that is known and not used. Every set of options has custom options
    besides its own. -/
def Part.kind? : Part → (number : Nat) → Option Kind
  | .request, 3 => some (.message .version)
  | .version, 1 | .version, 2 | .version, 3 => some .number
  | .version, 4 => some .text
  | .file, 5 => some (.message .enumType)
  | .file, 7 => some (.message .fieldType)
  | .file, 8 => some (.message .fileOptions)
  | .file, 10 | .file, 11 => some .numbers
  | .file, 12 => some .text
  | .message, 2 | .message, 6 => some (.message .fieldType)
  | .message, 4 => some (.message .enumType)
  | .message, 5 => some (.message .extensionRange)
  | .message, 7 => some (.message .messageOptions)
  | .message, 8 => some (.message .oneof)
  | .message, 9 => some (.message .range)
  | .message, 10 => some .text
  | .service, 3 => some (.message .serviceOptions)
  | .location, 2 => some .numbers
  | .location, 6 => some .text
  | .fieldType, 1 | .fieldType, 2 | .fieldType, 6 | .fieldType, 7 | .fieldType, 10 => some .text
  | .fieldType, 3 | .fieldType, 4 | .fieldType, 5 | .fieldType, 9 | .fieldType, 17 => some .number
  | .fieldType, 8 => some (.message .fieldOptions)
  | .oneof, 1 => some .text
  | .oneof, 2 => some (.message .otherOptions)
  | .enumType, 1 | .enumType, 5 => some .text
  | .enumType, 2 => some (.message .enumValue)
  | .enumType, 3 => some (.message .enumOptions)
  | .enumType, 4 => some (.message .range)
  | .enumValue, 1 => some .text
  | .enumValue, 2 => some .number
  | .enumValue, 3 => some (.message .enumValueOptions)
  | .range, 1 | .range, 2 => some .number
  | .extensionRange, 1 | .extensionRange, 2 => some .number
  | .extensionRange, 3 => some (.message .otherOptions)
  | .customOption, 2 => some (.message .customName)
  | .customOption, 3 | .customOption, 8 => some .text
  | .customOption, 4 | .customOption, 5 => some .number
  | .customOption, 6 => some .double
  | .customOption, 7 => some .bytes
  | .customName, 1 => some .text
  | .customName, 2 => some .number
  | .fileOptions, number =>
    if [1, 8, 11, 36, 37, 39, 40, 41, 44, 45].contains number then some .text
    else if [9, 10, 16, 17, 18, 20, 23, 27, 31, 42].contains number then some .number
    else customField number
  | .messageOptions, number =>
    if [1, 2, 3, 7].contains number then some .number else customField number
  | .fieldOptions, number =>
    if [1, 2, 3, 5, 6, 10].contains number then some .number else customField number
  | .enumOptions, number =>
    if [2, 3].contains number then some .number else customField number
  | .enumValueOptions, number => if number = 1 then some .number else customField number
  | .serviceOptions, number => if number = 33 then some .number else customField number
  | .methodOptions, number => if number = 34 then some .number else customField number
  | .otherOptions, number => customField number
  | _, _ => none
where
  customField (number : Nat) : Option Kind :=
    if number = 999 then some (.message .customOption) else none

def Part.checkWith (budget : Nat) (checkInner : Part → Bytes → Option Unit) (part : Part)
    (field : Field) : Option Unit :=
  match part.kind? field.number, field.payload with
  | none, _ => Field.unknown budget ()
  | some .text, _ => field.text.map fun _ => ()
  | some .number, _ => field.integer.map fun _ => ()
  | some .numbers, _ => field.integers.map fun _ => ()
  | some .bytes, .bytes _ => some ()
  | some .double, .fixed64 => some ()
  | some (.message inner), .bytes content => checkInner inner content
  | _, _ => none

def Part.checkContent : (budget : Nat) → Part → Bytes → Option Unit
  | 0, part, bytes => do
    let fields ← readFields 0 bytes
    fields.forM (part.checkWith 0 fun _ _ => none)
  | budget + 1, part, bytes => do
    let fields ← readFields (budget + 1) bytes
    fields.forM (part.checkWith (budget + 1) (Part.checkContent budget))

def Part.check (part : Part) : (budget : Nat) → Field → Option Unit
  | 0, field => part.checkWith 0 (fun _ _ => none) field
  | budget + 1, field => part.checkWith (budget + 1) (Part.checkContent budget) field

def Part.skip {α : Type} (part : Part) (budget : Nat) (message : α) (field : Field) : Option α :=
  (part.check budget field).map fun _ => message

end GrpcStubs.Wire
