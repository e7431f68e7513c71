set_option autoImplicit false

namespace GrpcStubs.Text

def consFirst (c : Char) : List (List Char) → List (List Char)
  | [] => [[c]]
  | piece :: pieces => (c :: piece) :: pieces

/-- The pieces between the occurrences of `sep`, one more than there are occurrences. -/
def splitAt (sep : Char) : List Char → List (List Char)
  | [] => [[]]
  | c :: cs => if c = sep then [] :: splitAt sep cs else consFirst c (splitAt sep cs)

theorem splitAt_ne_nil (sep : Char) (cs : List Char) : splitAt sep cs ≠ [] := by
  cases cs with
  | nil => simp [splitAt]
  | cons c cs =>
    by_cases h : c = sep
    · simp [splitAt, h]
    · cases hs : splitAt sep cs <;> simp [splitAt, h, hs, consFirst]

theorem not_mem_of_mem_splitAt {sep : Char} {cs piece : List Char}
    (h : piece ∈ splitAt sep cs) : sep ∉ piece := by
  induction cs generalizing piece with
  | nil =>
    rw [splitAt, List.mem_singleton] at h
    simp [h]
  | cons c cs ih =>
    by_cases hc : c = sep
    · rw [splitAt, if_pos hc, List.mem_cons] at h
      rcases h with rfl | h
      · exact List.not_mem_nil
      · exact ih h
    · rw [splitAt, if_neg hc] at h
      cases hs : splitAt sep cs with
      | nil => exact absurd hs (splitAt_ne_nil sep cs)
      | cons first rest =>
        rw [hs, consFirst, List.mem_cons] at h
        rcases h with rfl | h
        · rw [List.mem_cons, not_or]
          exact ⟨fun he => hc he.symm, ih (hs ▸ List.mem_cons_self)⟩
        · exact ih (hs ▸ List.mem_cons_of_mem _ h)

theorem intercalate_splitAt (sep : Char) (cs : List Char) :
    [sep].intercalate (splitAt sep cs) = cs := by
  induction cs with
  | nil => rfl
  | cons c cs ih =>
    cases hs : splitAt sep cs with
    | nil => exact absurd hs (splitAt_ne_nil sep cs)
    | cons first rest =>
      rw [hs] at ih
      by_cases hc : c = sep
      · rw [splitAt, if_pos hc, hs, hc]
        exact congrArg (sep :: ·) ih
      · rw [splitAt, if_neg hc, hs, consFirst]
        cases rest with
        | nil => simpa using congrArg (c :: ·) ih
        | cons next rest => exact congrArg (c :: ·) ih

def splitFirst (sep : Char) : List Char → Option (List Char × List Char)
  | [] => none
  | c :: cs =>
    if c = sep then some ([], cs)
    else (splitFirst sep cs).map fun (before, after) => (c :: before, after)

def afterStart : List Char → List Char → Option (List Char)
  | [], cs => some cs
  | _ :: _, [] => none
  | s :: start, c :: cs => if s = c then afterStart start cs else none

def beforeEnd (ending cs : List Char) : Option (List Char) :=
  (afterStart ending.reverse cs.reverse).map List.reverse

def dropReturn (line : List Char) : List Char :=
  (beforeEnd ['\r'] line).getD line

/-- All pieces but the last were ended by a line feed; the last one counts only if it is not
    empty. -/
def closeLines : List (List Char) → List (List Char)
  | [] => []
  | [last] => if last.isEmpty then [] else [last]
  | line :: next :: rest => dropReturn line :: closeLines (next :: rest)

/-- The lines of a text: a line feed ends a line and takes one carriage return before it along. -/
def lines (cs : List Char) : List (List Char) :=
  closeLines (splitAt '\n' cs)

/-- The lines of a comment: carriage return and line feed together end one line, and so does each
    of them alone. -/
def commentLines : List Char → List (List Char)
  | [] => [[]]
  | '\r' :: '\n' :: cs => [] :: commentLines cs
  | c :: cs => if c = '\n' ∨ c = '\r' then [] :: commentLines cs else consFirst c (commentLines cs)

end GrpcStubs.Text
