import GrpcStubs.Wire.Varint

set_option autoImplicit false

/-!
# Fields of an encoded message

An encoded message is a sequence of fields, each a number and a payload. Bytes are first read as
marks: fields, and the marks that open and close a group. Groups must be closed in the order in
which they were opened, and their content is dropped. A message may hold others to a limited
depth, which is given as a budget.
-/

namespace GrpcStubs.Wire

inductive Payload where
  | varint (n : Nat)
  | bytes (content : Bytes)
  | fixed32
  | fixed64
  | group
deriving DecidableEq, Repr

structure Field where
  number : Nat
  payload : Payload
deriving DecidableEq, Repr

inductive Mark where
  | field (field : Field)
  | openGroup (number : Nat)
  | closeGroup (number : Nat)
deriving DecidableEq, Repr

def skip (count : Nat) (bytes : Bytes) : Option Bytes :=
  if count ≤ bytes.length then some (bytes.drop count) else none

/-- Read what follows the key of a field. The kinds 6 and 7 do not exist. -/
def readPayload (number kind : Nat) (bytes : Bytes) : Option (Mark × Bytes) :=
  match kind with
  | 0 => (readVarint bytes).map fun (n, rest) => (.field ⟨number, .varint n⟩, rest)
  | 1 => (skip 8 bytes).map fun rest => (.field ⟨number, .fixed64⟩, rest)
  | 2 => do
    let (count, rest) ← readVarint bytes
    let after ← skip count rest
    return (.field ⟨number, .bytes (rest.take count)⟩, after)
  | 3 => some (.openGroup number, bytes)
  | 4 => some (.closeGroup number, bytes)
  | 5 => (skip 4 bytes).map fun rest => (.field ⟨number, .fixed32⟩, rest)
  | _ => none

/-- A key has 32 bits. It holds a field number, which is not zero, and the kind of the payload. -/
def readMark (bytes : Bytes) : Option (Mark × Bytes) := do
  let (key, rest) ← readVarint bytes
  if UInt32.size ≤ key ∨ key / 8 = 0 then none
  else readPayload (key / 8) (key % 8) rest

theorem skip_length {count : Nat} {bytes rest : Bytes} (h : skip count bytes = some rest) :
    rest.length ≤ bytes.length := by
  unfold skip at h
  split at h
  · cases h
    simp
  · simp at h

theorem readPayload_length {number kind : Nat} {bytes rest : Bytes} {mark : Mark}
    (h : readPayload number kind bytes = some (mark, rest)) : rest.length ≤ bytes.length := by
  unfold readPayload at h
  split at h
  · obtain ⟨⟨n, r⟩, hr, he⟩ := Option.map_eq_some_iff.mp h
    cases he
    exact Nat.le_of_lt (readVarint_length hr)
  · obtain ⟨r, hr, he⟩ := Option.map_eq_some_iff.mp h
    cases he
    exact skip_length hr
  · obtain ⟨⟨count, r⟩, hr, h⟩ := Option.bind_eq_some_iff.mp h
    obtain ⟨after, ha, h⟩ := Option.bind_eq_some_iff.mp h
    cases h
    exact Nat.le_trans (skip_length ha) (Nat.le_of_lt (readVarint_length hr))
  · cases h
    exact Nat.le_refl _
  · cases h
    exact Nat.le_refl _
  · obtain ⟨r, hr, he⟩ := Option.map_eq_some_iff.mp h
    cases he
    exact skip_length hr
  · simp at h

theorem readMark_length {bytes rest : Bytes} {mark : Mark}
    (h : readMark bytes = some (mark, rest)) : rest.length < bytes.length := by
  obtain ⟨⟨key, r⟩, hr, h⟩ := Option.bind_eq_some_iff.mp h
  dsimp only at h
  split at h
  · simp at h
  · exact Nat.lt_of_le_of_lt (readPayload_length h) (readVarint_length hr)

def readMarks (bytes : Bytes) : Option (List Mark) :=
  if bytes.isEmpty then some []
  else
    match _h : readMark bytes with
    | none => none
    | some (mark, rest) => (readMarks rest).map (mark :: ·)
termination_by bytes.length
decreasing_by exact readMark_length _h

/-- The fields outside groups, where `groups` are open, the innermost first. A group counts as a
    field; what it holds takes up one level of the budget. -/
def closeGroups (budget : Nat) : (groups : List Nat) → List Mark → Option (List Field)
  | [], [] => some []
  | _ :: _, [] => none
  | [], .field field :: marks => (closeGroups budget [] marks).map (field :: ·)
  | [], .openGroup number :: marks =>
    (closeGroups budget [number] marks).map (⟨number, .group⟩ :: ·)
  | [], .closeGroup _ :: _ => none
  | innermost :: groups, .closeGroup number :: marks =>
    if number = innermost then closeGroups budget groups marks else none
  | groups, .field _ :: marks =>
    if groups.length < budget then closeGroups budget groups marks else none
  | groups, .openGroup number :: marks =>
    if groups.length < budget then closeGroups budget (number :: groups) marks else none

def readFields (budget : Nat) (bytes : Bytes) : Option (List Field) :=
  readMarks bytes >>= closeGroups budget []

namespace Field

def text (field : Field) : Option String :=
  match field.payload with
  | .bytes content => content.text?
  | _ => none

def flag (field : Field) : Option Bool :=
  match field.payload with
  | .varint n => some (n != 0)
  | _ => none

/-- The low 32 bits of a number, with a sign. -/
def signed (n : Nat) : Int :=
  Int.bmod n UInt32.size

def integer (field : Field) : Option Int :=
  match field.payload with
  | .varint n => some (signed n)
  | _ => none

def unknown {α : Type} (budget : Nat) (message : α) : Option α :=
  if 0 < budget then some message else none

def embedded (budget : Nat) (field : Field) : Option (Nat × Bytes) :=
  match budget, field.payload with
  | budget + 1, .bytes content => some (budget, content)
  | _, _ => none

end Field

def readPacked (bytes : Bytes) : Option (List Int) :=
  if bytes.isEmpty then some []
  else
    match _h : readVarint bytes with
    | none => none
    | some (n, rest) => (readPacked rest).map (Field.signed n :: ·)
termination_by bytes.length
decreasing_by exact readVarint_length _h

/-- Numbers come one in a field or several packed into one. -/
def Field.integers (field : Field) : Option (List Int) :=
  match field.payload with
  | .varint n => some [signed n]
  | .bytes content => readPacked content
  | _ => none

def readInto {α : Type} (merge : Nat → α → Field → Option α) (start : α) (budget : Nat)
    (bytes : Bytes) : Option α := do
  let fields ← readFields budget bytes
  fields.foldlM (merge budget) start

def mergeEmbedded {α : Type} (merge : Nat → α → Field → Option α) (start : α) (budget : Nat)
    (field : Field) : Option α := do
  let (left, content) ← field.embedded budget
  readInto merge start left content

def writeVarintField (number n : Nat) : Bytes :=
  writeVarint (8 * number) ++ writeVarint n

def writeBytesField (number : Nat) (content : Bytes) : Bytes :=
  writeVarint (8 * number + 2) ++ writeVarint content.length ++ content

def writeTextField (number : Nat) (text : String) : Bytes :=
  writeBytesField number (.ofText text)

end GrpcStubs.Wire
