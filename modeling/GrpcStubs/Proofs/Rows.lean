import GrpcStubs.Proofs.Lines
import GrpcStubs.Proofs.Trace

set_option autoImplicit false

namespace GrpcStubs.Template
open Text

def Piece.row (indent : Nat) (piece : Piece) : Line :=
  if piece.text.isEmpty then [] else List.replicate (indent + piece.extra) ' ' ++ piece.text

def dropSpaces (line : Line) : Line :=
  line.dropWhile (· == ' ')

theorem chars_eq_row (indent : Nat) (piece : Piece) :
    piece.chars indent = piece.row indent ++ ['\n'] := by
  unfold Piece.chars Piece.row
  split <;> rfl

theorem layOut_eq_rows (indent : Nat) (pieces : List Piece) :
    layOut indent pieces = (pieces.map (Piece.row indent)).flatMap fun row => row ++ ['\n'] := by
  rw [layOut, List.flatMap_map]
  exact congrArg (fun f => pieces.flatMap f) (funext fun piece => chars_eq_row indent piece)

theorem splitAt_layOut (indent : Nat) (pieces : List Piece) :
    splitAt '\n' (layOut indent pieces) =
      (pieces.flatMap fun piece => splitAt '\n' (piece.row indent)) ++ [[]] := by
  rw [layOut_eq_rows, splitAt_rows, List.flatMap_map]

theorem not_mem_row {indent : Nat} {piece : Piece} {c : Char} (hc : c ≠ ' ') (h : c ∉ piece.text) :
    c ∉ piece.row indent := by
  unfold Piece.row
  split
  · exact List.not_mem_nil
  · rw [List.mem_append, not_or]
    exact ⟨fun hm => hc (List.eq_of_mem_replicate hm), h⟩

theorem splitAt_layOut_of_flat {pieces : List Piece} (indent : Nat)
    (h : ∀ piece ∈ pieces, '\n' ∉ piece.text) :
    splitAt '\n' (layOut indent pieces) = pieces.map (Piece.row indent) ++ [[]] := by
  have hrows : ∀ row ∈ pieces.map (Piece.row indent), '\n' ∉ row :=
    List.forall_mem_map.mpr fun piece hpiece => not_mem_row (by decide) (h piece hpiece)
  rw [layOut_eq_rows, splitAt_rows, flatMap_splitAt_of_not_mem hrows]

theorem dropSpaces_replicate (n : Nat) (line : Line) :
    dropSpaces (List.replicate n ' ' ++ line) = dropSpaces line := by
  induction n with
  | zero => rfl
  | succ n ih =>
    rw [List.replicate_succ, List.cons_append, dropSpaces, List.dropWhile_cons_of_pos rfl]
    exact ih

theorem dropSpaces_row (indent : Nat) (piece : Piece) :
    dropSpaces (piece.row indent) = dropSpaces piece.text := by
  unfold Piece.row
  split
  · rename_i h
    rw [List.isEmpty_iff.mp h]
  · exact dropSpaces_replicate _ _

theorem dropSpaces_of_head {c : Char} {cs : Line} (h : c ≠ ' ') : dropSpaces (c :: cs) = c :: cs :=
  List.dropWhile_cons_of_neg (by simp [h])

end GrpcStubs.Template
