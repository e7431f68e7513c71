import GrpcStubs.Text.Split

set_option autoImplicit false

/-!
# Paths of files

Paths are taken as they are written. Between its slashes a path has components; a piece that is
empty or a single dot is none, except for a dot at the very start.
-/

namespace GrpcStubs.Disk
open Text

/-- The path of `name` below `directory`; a name that starts at the root stands for itself. -/
def join (directory name : String) : String :=
  if name.toList.head? = some '/' || directory.isEmpty then name
  else if directory.toList.getLast? = some '/' then directory ++ name
  else directory ++ "/" ++ name

def isTrivial (piece : List Char) : Bool :=
  piece.isEmpty || piece == ['.']

/-- The text of a path from its first piece and the pieces after it, last one first. -/
def ofPieces (first : List Char) (reversed : List (List Char)) : String :=
  .ofList (first ++ reversed.reverse.flatMap ('/' :: ·))

/-- For each piece that is a component, the path up to it; the longest path first. -/
def upToComponents (first : List Char) : List (List Char) → List String
  | [] => []
  | piece :: pieces =>
    if isTrivial piece then upToComponents first pieces
    else ofPieces first (piece :: pieces) :: upToComponents first pieces

/-- A path and the directories around it, innermost first. A relative path ends with the empty
    one. -/
def ancestors (path : String) : List String :=
  match splitAt '/' path.toList with
  | [] | [[]] => []
  | [] :: pieces => upToComponents [] pieces.reverse ++ ["/"]
  | first :: pieces => upToComponents first pieces.reverse ++ [.ofList first, ""]

def parent? (path : String) : Option String :=
  (ancestors path)[1]?

end GrpcStubs.Disk
