import GrpcStubs.Proofs.Blanks
import GrpcStubs.Proofs.CommentLines
import Mathlib.Data.List.Forall2

set_option autoImplicit false

namespace GrpcStubs.DocComment
open Text

def Unbroken (line : List Char) : Prop :=
  '\n' ∉ line ∧ '\r' ∉ line

/-- The lines of a text that is scanned from the left. A carriage return that a line feed follows
    ends the line together with it. -/
inductive Scans : List Char → List (List Char) → Prop where
  | last {line : List Char} (flat : Unbroken line) : Scans line [line]
  | lineFeed {line rest : List Char} {lines : List (List Char)} (flat : Unbroken line)
    (next : Scans rest lines) : Scans (line ++ '\n' :: rest) (line :: lines)
  | both {line rest : List Char} {lines : List (List Char)} (flat : Unbroken line)
    (next : Scans rest lines) : Scans (line ++ '\r' :: '\n' :: rest) (line :: lines)
  | carriageReturn {line rest : List Char} {lines : List (List Char)} (flat : Unbroken line)
    (alone : rest.head? ≠ some '\n') (next : Scans rest lines) :
    Scans (line ++ '\r' :: rest) (line :: lines)

structure IsContent (comment : List Char) (lines : List (List Char)) : Prop where
  scanned : ∃ blanks, Scans comment (lines ++ blanks) ∧ ∀ line ∈ blanks, allBlank line = true
  closed : ∀ line, lines.getLast? = some line → allBlank line = false

theorem unbroken_cons {c : Char} {line : List Char} :
    Unbroken (c :: line) ↔ ¬ (c = '\n' ∨ c = '\r') ∧ Unbroken line := by
  simp only [Unbroken, List.mem_cons, not_or, eq_comm (a := c)]
  exact and_and_and_comm

section Scan
variable {c : Char} {cs rest line : List Char} {lines : List (List Char)}

theorem commentLines_cons (h : ¬ (c = '\n' ∨ c = '\r')) (cs : List Char) :
    commentLines (c :: cs) = consFirst c (commentLines cs) := by
  rw [commentLines, if_neg h]
  rintro rest rfl
  exact absurd (.inr rfl) h

theorem commentLines_return (h : rest.head? ≠ some '\n') :
    commentLines ('\r' :: rest) = [] :: commentLines rest := by
  rw [commentLines, if_pos (.inr rfl)]
  rintro more - rfl
  exact h rfl

theorem commentLines_append (hline : Unbroken line)
    (h : commentLines rest = [] :: lines) : commentLines (line ++ rest) = line :: lines := by
  induction line with
  | nil => exact h
  | cons c line ih =>
    obtain ⟨hc, hline⟩ := unbroken_cons.mp hline
    rw [List.cons_append, commentLines_cons hc, ih hline]
    rfl

theorem commentLines_of_unbroken (h : Unbroken line) : commentLines line = [line] := by
  have happend : commentLines (line ++ []) = [line] := commentLines_append h rfl
  rwa [List.append_nil] at happend

theorem Scans.cons {first : List Char} (hc : ¬ (c = '\n' ∨ c = '\r')) (h : Scans cs (first :: lines)) :
    Scans (c :: cs) ((c :: first) :: lines) := by
  cases h with
  | last flat => exact .last (unbroken_cons.mpr ⟨hc, flat⟩)
  | lineFeed flat next => exact .lineFeed (unbroken_cons.mpr ⟨hc, flat⟩) next
  | both flat next => exact .both (unbroken_cons.mpr ⟨hc, flat⟩) next
  | carriageReturn flat alone next =>
    exact .carriageReturn (unbroken_cons.mpr ⟨hc, flat⟩) alone next

theorem unbroken_nil : Unbroken [] :=
  ⟨List.not_mem_nil, List.not_mem_nil⟩

theorem scans_commentLines (cs : List Char) : Scans cs (commentLines cs) := by
  fun_induction commentLines cs with
  | case1 => exact .last unbroken_nil
  | case2 cs ih => exact .both unbroken_nil ih
  | case3 c cs hpair hend ih =>
    rcases hend with rfl | rfl
    · exact .lineFeed unbroken_nil ih
    · refine .carriageReturn unbroken_nil (fun hhead => ?_) ih
      obtain ⟨more, rfl⟩ := List.head?_eq_some_iff.mp hhead
      exact hpair more rfl rfl
  | case4 c cs hpair hend ih =>
    cases hlines : commentLines cs with
    | nil =>
      rw [hlines] at ih
      cases ih
    | cons first rest =>
      rw [hlines] at ih
      exact ih.cons hend

theorem scans_iff : Scans cs lines ↔ commentLines cs = lines := by
  constructor
  · intro h
    induction h with
    | last flat => exact commentLines_of_unbroken flat
    | lineFeed flat _ ih => exact commentLines_append flat (congrArg ([] :: ·) ih)
    | both flat _ ih => exact commentLines_append flat (congrArg ([] :: ·) ih)
    | carriageReturn flat alone _ ih =>
      refine commentLines_append flat ?_
      rw [commentLines_return alone, ih]
  · rintro rfl
    exact scans_commentLines cs

theorem isContent_iff : IsContent cs lines ↔ lines = contentLines cs := by
  rw [eq_comm, contentLines, dropEndWhile_eq_iff]
  constructor
  · rintro ⟨⟨blanks, hscans, hblanks⟩, hclosed⟩
    exact ⟨⟨blanks, scans_iff.mp hscans, hblanks⟩, hclosed⟩
  · rintro ⟨⟨blanks, hlines, hblanks⟩, hclosed⟩
    exact ⟨⟨blanks, scans_iff.mpr hlines, hblanks⟩, hclosed⟩

end Scan

/-- Each line feed takes the carriage return before it along. -/
def joinBreaks : List Char → List Char
  | [] => []
  | '\r' :: '\n' :: cs => '\n' :: joinBreaks cs
  | c :: cs => c :: joinBreaks cs

def splitBreaks : List Char → List (List Char)
  | [] => [[]]
  | c :: cs => if c = '\n' ∨ c = '\r' then [] :: splitBreaks cs else consFirst c (splitBreaks cs)

/-- Two passes find the same lines as the scan. -/
theorem splitBreaks_joinBreaks (cs : List Char) : splitBreaks (joinBreaks cs) = commentLines cs := by
  fun_induction commentLines cs with
  | case1 => rfl
  | case2 cs ih => rw [joinBreaks, splitBreaks, if_pos (.inl rfl), ih]
  | case3 c cs hpair hend ih =>
    rw [joinBreaks, splitBreaks, if_pos hend, ih]
    exact hpair
  | case4 c cs hpair hend ih =>
    rw [joinBreaks, splitBreaks, if_neg hend, ih]
    exact hpair

/-- Text in which every character with a meaning in Markdown has a backslash before it. -/
inductive Escaped : List Char → Prop where
  | nil : Escaped []
  | pair {c : Char} {cs : List Char} (rest : Escaped cs) : Escaped ('\\' :: c :: cs)
  | plain {c : Char} {cs : List Char} (free : c ∉ "\\`*_[]#<>".toList) (rest : Escaped cs) :
    Escaped (c :: cs)

def unescape : List Char → List Char
  | [] => []
  | '\\' :: c :: cs => c :: unescape cs
  | c :: cs => c :: unescape cs

def spaced (line : List Char) : List Char :=
  if line.head?.any isBlank then line else ' ' :: line

structure IsRow (line row : List Char) : Prop where
  escaped : Escaped row
  blank : allBlank line = true → row = ['/', '/', '/']
  text : allBlank line = false → ∃ c rest, row = '/' :: '/' :: '/' :: c :: rest ∧
    isBlank c = true ∧ unescape (c :: rest) = spaced line

/-- Lines that are the same up to what is on blank lines and a space at the start. -/
inductive SameLine : List Char → List Char → Prop where
  | blank {line other : List Char} (blank : allBlank line = true)
    (blankOther : allBlank other = true) : SameLine line other
  | text {line other : List Char} (full : allBlank line = false)
    (fullOther : allBlank other = false) (same : spaced line = spaced other) : SameLine line other

section Row
variable {c : Char} {cs line other : List Char}

theorem escapeChars_cons_of_mem (h : c ∈ special) (cs : List Char) :
    escapeChars (c :: cs) = '\\' :: c :: escapeChars cs := by
  rw [escapeChars, if_pos (List.contains_iff_mem.mpr h)]

theorem escapeChars_cons_of_not_mem (h : c ∉ special) (cs : List Char) :
    escapeChars (c :: cs) = c :: escapeChars cs := by
  rw [escapeChars, if_neg fun hmem => h (List.contains_iff_mem.mp hmem)]

theorem unescape_cons (h : c ≠ '\\') (cs : List Char) : unescape (c :: cs) = c :: unescape cs := by
  rw [unescape]
  exact fun d rest hc => absurd hc h

theorem mem_special_backslash : '\\' ∈ special := by
  unfold special
  decide

theorem unescape_escapeChars (cs : List Char) : unescape (escapeChars cs) = cs := by
  induction cs with
  | nil => rfl
  | cons c cs ih =>
    by_cases hc : c ∈ special
    · rw [escapeChars_cons_of_mem hc, unescape, ih]
    · have hne : c ≠ '\\' := fun he => hc (he ▸ mem_special_backslash)
      rw [escapeChars_cons_of_not_mem hc, unescape_cons hne, ih]

theorem escaped_escapeChars (cs : List Char) : Escaped (escapeChars cs) := by
  induction cs with
  | nil => exact .nil
  | cons c cs ih =>
    by_cases hc : c ∈ special
    · rw [escapeChars_cons_of_mem hc]
      exact .pair ih
    · rw [escapeChars_cons_of_not_mem hc]
      exact .plain hc ih

theorem not_mem_special_of_isBlank (h : isBlank c = true) : c ∉ special := by
  have hnone : special.filter isBlank = [] := rfl
  exact fun hmem => List.filter_eq_nil_iff.mp hnone c hmem h

theorem escaped_marker_append (h : Escaped cs) : Escaped ('/' :: '/' :: '/' :: cs) :=
  .plain (by decide) (.plain (by decide) (.plain (by decide) h))

theorem spaced_eq_cons (line : List Char) : ∃ c rest, spaced line = c :: rest ∧ isBlank c = true := by
  unfold spaced
  split
  · rename_i hhead
    obtain ⟨c, hc, hblank⟩ := (Option.any_eq_true _ _).mp hhead
    obtain ⟨rest, rfl⟩ := List.head?_eq_some_iff.mp hc
    exact ⟨c, rest, rfl, hblank⟩
  · exact ⟨' ', line, rfl, rfl⟩

theorem renderLine_of_blank (h : allBlank line = true) : renderLine line = ['/', '/', '/'] := by
  rw [renderLine, if_pos h, marker_eq]

theorem renderLine_of_full (h : allBlank line = false) :
    renderLine line = ['/', '/', '/'] ++ escapeChars (spaced line) := by
  rw [renderLine, if_neg (by simp [h]), marker_eq, spaced]
  split
  · rfl
  · rw [escapeChars_cons_of_not_mem (not_mem_special_of_isBlank rfl)]

theorem isRow_renderLine (line : List Char) : IsRow line (renderLine line) := by
  cases hblank : allBlank line with
  | true =>
    rw [renderLine_of_blank hblank]
    refine ⟨escaped_marker_append .nil, fun _ => rfl, fun hfull => ?_⟩
    rw [hblank] at hfull
    cases hfull
  | false =>
    obtain ⟨c, rest, hspaced, hc⟩ := spaced_eq_cons line
    have hescape : escapeChars (spaced line) = c :: escapeChars rest := by
      rw [hspaced, escapeChars_cons_of_not_mem (not_mem_special_of_isBlank hc)]
    rw [renderLine_of_full hblank]
    refine ⟨escaped_marker_append (escaped_escapeChars _), fun hfull => ?_, fun _ => ?_⟩
    · rw [hblank] at hfull
      cases hfull
    · refine ⟨c, escapeChars rest, congrArg (['/', '/', '/'] ++ ·) hescape, hc, ?_⟩
      rw [← hescape, unescape_escapeChars]

theorem renderLine_ne (hline : allBlank line = true) (hother : allBlank other = false) :
    renderLine line ≠ renderLine other := by
  obtain ⟨c, rest, hrow, -⟩ := (isRow_renderLine other).text hother
  rw [renderLine_of_blank hline, hrow]
  simp

theorem renderLine_eq_iff : renderLine line = renderLine other ↔ SameLine line other := by
  constructor
  · intro h
    cases hline : allBlank line with
    | true =>
      cases hother : allBlank other with
      | true => exact .blank hline hother
      | false => exact absurd h (renderLine_ne hline hother)
    | false =>
      cases hother : allBlank other with
      | true => exact absurd h.symm (renderLine_ne hother hline)
      | false =>
        rw [renderLine_of_full hline, renderLine_of_full hother] at h
        have hunescaped := congrArg unescape (List.append_cancel_left h)
        rw [unescape_escapeChars, unescape_escapeChars] at hunescaped
        exact .text hline hother hunescaped
  · intro h
    cases h with
    | blank hline hother => rw [renderLine_of_blank hline, renderLine_of_blank hother]
    | text hline hother hsame => rw [renderLine_of_full hline, renderLine_of_full hother, hsame]

end Row

theorem toList_render (comment : String) :
    (render comment).toList =
      ((contentLines comment.toList).map renderLine).flatMap fun row => row ++ ['\n'] := by
  rw [render, String.toList_ofList, List.flatMap_map]

theorem return_not_mem_render (comment : String) : '\r' ∉ (render comment).toList := by
  rw [toList_render]
  intro hmem
  obtain ⟨row, hrow, hc⟩ := List.mem_flatMap.mp hmem
  rcases List.mem_append.mp hc with hc | hc
  · exact not_mem_renderLine (.inr rfl) comment.toList row hrow hc
  · exact absurd hc (by decide)

theorem render_eq_iff {comment other : String} :
    render comment = render other ↔
      List.Forall₂ SameLine (contentLines comment.toList) (contentLines other.toList) := by
  have hrows : render comment = render other ↔
      (contentLines comment.toList).map renderLine = (contentLines other.toList).map renderLine := by
    constructor
    · intro h
      rw [← lines_render, ← lines_render, h]
    · intro h
      rw [← String.toList_inj, toList_render, toList_render, h]
  rw [hrows, ← List.forall₂_eq_eq_eq, List.forall₂_map_left_iff, List.forall₂_map_right_iff]
  simp only [renderLine_eq_iff]

/-- Every line of a comment is written on a row of its own, behind the marker and with Markdown
    escaped, and can be read back from there up to one space. -/
theorem render_faithful (comment other : String) :
    ∃ lines otherLines, (∀ found, IsContent comment.toList found ↔ found = lines) ∧
      (∀ found, IsContent other.toList found ↔ found = otherLines) ∧
      dropEndWhile allBlank (splitBreaks (joinBreaks comment.toList)) = lines ∧
      '\r' ∉ (render comment).toList ∧
      (∃ rows, (render comment).toList = rows.flatMap (fun row => row ++ ['\n']) ∧
        (∀ row ∈ rows, '\n' ∉ row) ∧ List.Forall₂ IsRow lines rows) ∧
      (render comment = render other ↔ List.Forall₂ SameLine lines otherLines) := by
  refine ⟨contentLines comment.toList, contentLines other.toList, fun _ => isContent_iff,
    fun _ => isContent_iff, ?_, return_not_mem_render comment, ?_, render_eq_iff⟩
  · rw [splitBreaks_joinBreaks, contentLines]
  · refine ⟨_, toList_render comment, not_mem_renderLine (.inl rfl) comment.toList, ?_⟩
    rw [List.forall₂_map_right_iff]
    exact List.forall₂_same.mpr fun line _ => isRow_renderLine line

end GrpcStubs.DocComment
