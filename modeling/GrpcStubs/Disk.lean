import GrpcStubs.Disk.Entry
import GrpcStubs.Disk.Fault
import GrpcStubs.Disk.Path
import GrpcStubs.Text.Width

set_option autoImplicit false

/-!
# Operations on files and directories

A path leads from the working directory, or from the root, to a location, through directories that
exist. Names and paths have a longest length in bytes. Operations are refused with the fault that
an operating system reports, because of what the disk holds or for reasons of the machine's own. A
file that was opened before it could not be written is left with the start of its content.
-/

namespace GrpcStubs

structure Disk where
  entries : List (String × Disk.Entry) := []
  workingDirectory : Location := []
  /-- Which of the next changes the machine refuses. All after them are let through. -/
  refusals : List (Option Disk.Refusal) := []
deriving Repr

namespace Disk
open Text

def root (disk : Disk) : Entry :=
  .directory disk.entries

def find? (disk : Disk) (location : Location) : Option Entry :=
  disk.root.find? location

def set (disk : Disk) (location : Location) (entry : Entry) : Disk :=
  { disk with entries := (disk.root.set location entry).entries }

theorem root_set (disk : Disk) {location : Location} (entry : Entry) (h : location ≠ []) :
    (disk.set location entry).root = disk.root.set location entry := by
  cases location with
  | nil => exact absurd rfl h
  | cons name names => rfl

/-- The number of bytes that a name may have. -/
def longestName : Nat := 255

/-- The number of bytes that a path may have. -/
def longestPath : Nat := 4095

/-- Follow the pieces of a path. The trail holds the names on the way from the root, the last one
    first, each with the directory that it was taken from. The last location need not exist. -/
def walk (trail : List (String × Entry)) (here : Option Entry) :
    List String → Except Fault Location
  | [] => .ok (trail.map (·.1)).reverse
  | piece :: pieces =>
    match here with
    | none => .error .notFound
    | some (.file _) => .error .notDirectory
    | some (.directory entries) =>
      if piece = "" ∨ piece = "." then walk trail here pieces
      else if piece = ".." then
        match trail with
        | [] => walk [] here pieces
        | (_, above) :: trail => walk trail (some above) pieces
      else if longestName < utf8Width piece.toList then .error .nameTooLong
      else walk ((piece, .directory entries) :: trail) (entries.lookup piece) pieces

def pieces (path : List Char) : List String :=
  (splitAt '/' path).map String.ofList

def start (disk : Disk) (path : List Char) : Location :=
  if path.head? = some '/' then [] else disk.workingDirectory

def locate (disk : Disk) (path : String) : Except Fault Location :=
  let text := path.toList
  if text.contains '\x00' then .error .nulInPath
  else if text.isEmpty then .error .notFound
  else if longestPath < utf8Width text then .error .nameTooLong
  else walk [] (some disk.root) (disk.start text ++ pieces text)

def read (disk : Disk) (path : String) : Except Fault Bytes := do
  let location ← disk.locate path
  match disk.find? location with
  | some (.file content) => .ok content
  | some (.directory _) => .error .isDirectory
  | none => .error .notFound

def textOf : Except Fault Bytes → Except String String
  | .ok content =>
    match content.text? with
    | some text => .ok text
    | none => .error Fault.notText.message
  | .error fault => .error fault.message

def readText (disk : Disk) (path : String) : Except String String :=
  textOf (disk.read path)

def isDirectory (disk : Disk) (path : String) : Bool :=
  match disk.locate path with
  | .ok location => (disk.find? location).any Entry.isDirectory
  | .error _ => false

def nextChange (disk : Disk) : Option Refusal × Disk :=
  (disk.refusals.head?.join, { disk with refusals := disk.refusals.tail })

def locateFile (disk : Disk) (path : String) : Except Fault Location := do
  let location ← disk.locate path
  match disk.find? location with
  | some (.directory _) => .error .isDirectory
  | some (.file _) | none => .ok location

def write (disk : Disk) (path : String) (content : Bytes) : Except Fault Unit × Disk :=
  let (refusal, disk) := disk.nextChange
  match refusal, disk.locateFile path with
  | some ⟨fault, none⟩, _ => (.error fault, disk)
  | _, .error fault => (.error fault, disk)
  | none, .ok location => (.ok (), disk.set location (.file content))
  | some ⟨fault, some count⟩, .ok location =>
    (.error fault, disk.set location (.file (content.take count)))

def createDirectory (disk : Disk) (path : String) : Except Fault Unit × Disk :=
  let (refusal, disk) := disk.nextChange
  match refusal, disk.locate path with
  | some refusal, _ => (.error refusal.fault, disk)
  | none, .error fault => (.error fault, disk)
  | none, .ok location =>
    match disk.find? location with
    | some _ => (.error .alreadyExists, disk)
    | none => (.ok (), disk.set location .empty)

/-- Create the first of the directories, where the next one is around it, and those around it as
    far as they are missing. What was created stays if a later step fails. -/
def createNested (disk : Disk) : List String → Except Fault Unit × Disk
  | [] => (.ok (), disk)
  | path :: around =>
    if path.isEmpty then (.ok (), disk)
    else
      match disk.createDirectory path with
      | (.ok _, created) => (.ok (), created)
      | (.error .notFound, disk) =>
        match createNested disk around with
        | (.error fault, outer) => (.error fault, outer)
        | (.ok _, outer) =>
          match outer.createDirectory path with
          | (.ok _, created) => (.ok (), created)
          | (.error fault, outer) => (if outer.isDirectory path then .ok () else .error fault, outer)
      | (.error fault, disk) => (if disk.isDirectory path then .ok () else .error fault, disk)

def createDirectories (disk : Disk) (path : String) : Except Fault Unit × Disk :=
  disk.createNested (ancestors path)

end Disk

end GrpcStubs
