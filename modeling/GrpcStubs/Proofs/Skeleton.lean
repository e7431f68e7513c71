import GrpcStubs.Client
import GrpcStubs.Server
import GrpcStubs.Proofs.Binding
import GrpcStubs.Proofs.Lines

set_option autoImplicit false

/-!
# The templates and their placeholders

The templates are written line by line, so their items can be computed from the characters of the
lines. For each template of a client and of a server this gives the items with a placeholder that
is not bound to a fixed text: comments, attributes, and the blocks of the methods.
-/

namespace GrpcStubs.Template
open Text

inductive Spelled : String → Line → Prop where
  | append {s t : String} {front back : Line} :
    Spelled s front → Spelled t back → Spelled (s ++ t) (front ++ back)
  | literal (cs : List Char) : Spelled (String.ofList cs) cs

inductive SpelledLines : List String → List Line → Prop where
  | nil : SpelledLines [] []
  | cons {s : String} {row : Line} {lines : List String} {rows : List Line} :
    Spelled s row → SpelledLines lines rows → SpelledLines (s :: lines) (row :: rows)

theorem Spelled.toList_eq {s : String} {row : Line} (h : Spelled s row) : s.toList = row := by
  induction h with
  | append _ _ hs ht => rw [String.toList_append, hs, ht]
  | literal cs => exact String.toList_ofList

theorem SpelledLines.toList_eq {lines : List String} {rows : List Line} (h : SpelledLines lines rows) :
    (ofLines lines).toList = '\n' :: rows.flatMap fun row => row ++ ['\n'] := by
  rw [ofLines, String.toList_ofList]
  induction h with
  | nil => rfl
  | cons hs _ ih =>
    rw [List.flatMap_cons, List.flatMap_cons, hs.toList_eq]
    exact congrArg (fun cs => '\n' :: (_ ++ ['\n'] ++ cs)) (List.cons.inj ih).2

theorem dropLastBlank_append_nil (rows : List Line) : dropLastBlank (rows ++ [[]]) = rows := by
  unfold dropLastBlank
  rw [List.getLast?_append, List.dropLast_concat]
  rfl

theorem textLines_rows {rows : List Line} (h : ∀ row ∈ rows, '\n' ∉ row) :
    textLines ('\n' :: rows.flatMap fun row => row ++ ['\n']) = rows := by
  rw [textLines, splitAt, if_pos rfl, dropFirstEmpty, splitAt_rows, flatMap_splitAt_of_not_mem h,
    dropLastBlank_append_nil]

/-- The characters of the lines of a template, which the items can be computed from. -/
structure Spelling (template : String) where
  rows : List Line
  width : Nat
  items_eq : items template = rows.map fun row => Item.ofLine (cut width row)

def Spelling.ofLines (width : Nat) {lines : List String} {rows : List Line}
    (spelled : SpelledLines lines rows)
    (check : (rows.all (fun row => !row.contains '\n') && commonIndent rows == width) = true) :
    Spelling (ofLines lines) where
  rows := rows
  width := width
  items_eq := by
    rw [Bool.and_eq_true, beq_iff_eq, List.all_eq_true] at check
    have hn : ∀ row ∈ rows, '\n' ∉ row := fun row hr => by simpa using check.1 row hr
    rw [items, layout, spelled.toList_eq, textLines_rows hn, check.2, List.map_map]
    rfl

end GrpcStubs.Template

namespace GrpcStubs
open Template

def Client.moduleNames : List String :=
  ["client_mod", "client_ident"]

def Client.methodNames : List String :=
  ["ident", "request", "response", "codec", "path", "service_name", "method_name"]

def Server.moduleNames : List String :=
  ["server_mod", "trait_ident", "server_ident", "service_name"]

def Server.traitNames : List String :=
  ["ident", "request", "response"]

def Server.routeNames : List String :=
  ["path", "trait_ident", "svc_ident", "codec", "grpc_call"]

def Server.adapterNames : List String :=
  ["trait_ident", "svc_ident", "ident", "request", "response"]

def Stub.headingSpelling : Spelling (ofLines ["    $doc$", "    $deprecated$"]) := by
  apply Spelling.ofLines 4
  -- The characters of the lines are metavariables here, which the constructors fill in.
  · repeat constructor
  · decide +kernel

def Client.moduleSpelling : Spelling moduleTemplate := by
  apply Spelling.ofLines 4
  · repeat constructor
  · decide +kernel

def Client.methodSpelling (shape : Shape) : Spelling (methodTemplate shape) := by
  cases shape <;>
  · apply Spelling.ofLines 4
    · repeat constructor
    · decide +kernel

def Server.moduleSpelling : Spelling moduleTemplate := by
  apply Spelling.ofLines 4
  · repeat constructor
  · decide +kernel

def Server.traitSpelling (shape : Shape) : Spelling (traitTemplate shape) := by
  cases shape <;>
  · apply Spelling.ofLines 4
    · repeat constructor
    · decide +kernel

def Server.routeSpelling : Spelling routeTemplate := by
  apply Spelling.ofLines 4
  · repeat constructor
  · decide +kernel

def Server.adapterSpelling (shape : Shape) : Spelling (adapterTemplate shape) := by
  cases shape <;>
  · apply Spelling.ofLines 4
    · repeat constructor
    · decide +kernel

theorem Stub.heading_items : items (ofLines ["    $doc$", "    $deprecated$"]) =
    [.sole 0 "doc", .sole 0 "deprecated"] := by
  rw [Stub.headingSpelling.items_eq]
  decide +kernel

theorem Client.otherItems_module : otherItems Client.moduleNames Client.moduleTemplate =
    [.sole 4 "service_doc", .sole 8 "methods"] := by
  rw [otherItems, Client.moduleSpelling.items_eq]
  decide +kernel

theorem Server.otherItems_module : otherItems Server.moduleNames Server.moduleTemplate =
    [.sole 8 "trait_methods", .sole 4 "service_doc", .sole 16 "routes"] := by
  rw [otherItems, Server.moduleSpelling.items_eq]
  decide +kernel

theorem Server.otherItems_route : otherItems Server.routeNames Server.routeTemplate =
    [.sole 4 "svc_impl"] := by
  rw [otherItems, Server.routeSpelling.items_eq]
  decide +kernel

theorem Client.otherItems_method (shape : Shape) :
    otherItems Client.methodNames (Client.methodTemplate shape) = [] := by
  rw [otherItems, (Client.methodSpelling shape).items_eq]
  cases shape <;> decide +kernel

theorem Server.otherItems_trait (shape : Shape) :
    otherItems Server.traitNames (Server.traitTemplate shape) = [] := by
  rw [otherItems, (Server.traitSpelling shape).items_eq]
  cases shape <;> decide +kernel

theorem Server.otherItems_adapter (shape : Shape) :
    otherItems Server.adapterNames (Server.adapterTemplate shape) = [] := by
  rw [otherItems, (Server.adapterSpelling shape).items_eq]
  cases shape <;> decide +kernel

end GrpcStubs
