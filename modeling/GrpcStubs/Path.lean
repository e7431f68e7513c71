import GrpcStubs.Identifier
import GrpcStubs.Text.Split

set_option autoImplicit false

namespace GrpcStubs

structure Path where
  isGlobal : Bool := false
  segments : List String
deriving DecidableEq, Repr

namespace Path
open Text

def render (path : Path) : String :=
  (if path.isGlobal then "::" else "") ++ "::".intercalate path.segments

/-- The module in which the path is read. -/
def current : Path :=
  ⟨false, ["self"]⟩

inductive Fault where
  | noSegments
  | emptySegment
  | notIdentifier
deriving DecidableEq, Repr

def Fault.message : Fault → String
  | .noSegments => "no segments"
  | .emptySegment => "empty segment"
  | .notIdentifier => "segments must be non-keyword identifiers"

/-- The pieces between the double colons, found from the left. -/
def splitSegments : List Char → List (List Char)
  | [] => [[]]
  | ':' :: ':' :: cs => [] :: splitSegments cs
  | c :: cs => consFirst c (splitSegments cs)

/-- The keywords with which a relative path may go on: `self` and `crate` only at its start. -/
def leadingKeywords (atStart : Bool) : List String :=
  if atStart then ["crate", "self", "super"] else ["super"]

/-- `leading` holds as long as all segments before were keywords of a relative path. -/
def checkSegments (leading atStart : Bool) : List (List Char) → Except Fault Unit
  | [] => .ok ()
  | segment :: rest =>
    if segment.isEmpty then .error .emptySegment
    else if leading && (leadingKeywords atStart).contains (.ofList segment) then
      checkSegments true false rest
    else if Identifier.isWritten segment then checkSegments false false rest
    else .error .notIdentifier

def ofRelative (isGlobal : Bool) (text : List Char) : Except Fault Path :=
  if text.isEmpty then .error .noSegments
  else
    let segments := splitSegments text
    match checkSegments (!isGlobal) true segments with
    | .ok _ => .ok ⟨isGlobal, segments.map String.ofList⟩
    | .error fault => .error fault

def ofText? (text : List Char) : Except Fault Path :=
  match afterStart [':', ':'] text with
  | some rest => ofRelative true rest
  | none => ofRelative false text

end Path

end GrpcStubs
