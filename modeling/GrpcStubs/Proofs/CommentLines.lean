import GrpcStubs.Stub
import GrpcStubs.Proofs.Rows

set_option autoImplicit false

namespace GrpcStubs.DocComment
open Text

theorem not_mem_consFirst {c d : Char} {pieces : List (List Char)} (hd : d ≠ c)
    (h : ∀ piece ∈ pieces, c ∉ piece) : ∀ piece ∈ consFirst d pieces, c ∉ piece := by
  cases pieces with
  | nil => simpa [consFirst] using fun he : c = d => hd he.symm
  | cons first rest =>
    intro piece hp
    rw [consFirst, List.mem_cons] at hp
    rcases hp with rfl | hp
    · rw [List.mem_cons, not_or]
      exact ⟨fun he => hd he.symm, h first List.mem_cons_self⟩
    · exact h piece (List.mem_cons_of_mem _ hp)

theorem not_mem_commentLines {c : Char} (hc : c = '\n' ∨ c = '\r') (cs : List Char) :
    ∀ line ∈ commentLines cs, c ∉ line := by
  induction cs using commentLines.induct with
  | case1 => simp [commentLines]
  | case2 cs ih => simpa [commentLines] using ih
  | case3 d cs hpair hend ih =>
    rw [commentLines, if_pos hend]
    · simpa using ih
    · exact hpair
  | case4 d cs hpair hend ih =>
    rw [commentLines, if_neg hend]
    · have hd : d ≠ c := fun he => hend (he ▸ hc)
      exact not_mem_consFirst hd ih
    · exact hpair

theorem mem_of_mem_dropEndWhile {α : Type} {p : α → Bool} {xs : List α} {x : α}
    (h : x ∈ dropEndWhile p xs) : x ∈ xs := by
  rw [dropEndWhile, List.mem_reverse] at h
  exact List.mem_reverse.mp ((List.dropWhile_suffix p).subset h)

theorem mem_escapeChars {c : Char} {cs : List Char} (h : c ∈ escapeChars cs) :
    c ∈ cs ∨ c = '\\' := by
  induction cs with
  | nil => exact absurd h List.not_mem_nil
  | cons d cs ih =>
    rw [escapeChars] at h
    split at h
    · rcases List.mem_cons.mp h with rfl | h
      · exact .inr rfl
      · rcases List.mem_cons.mp h with rfl | h
        · exact .inl List.mem_cons_self
        · exact (ih h).imp_left (List.mem_cons_of_mem d)
    · rcases List.mem_cons.mp h with rfl | h
      · exact .inl List.mem_cons_self
      · exact (ih h).imp_left (List.mem_cons_of_mem d)

theorem marker_eq : marker = ['/', '/', '/'] :=
  String.toList_ofList

theorem renderLine_eq (line : List Char) : ∃ rest, renderLine line = marker ++ rest := by
  unfold renderLine
  split
  · exact ⟨[], (List.append_nil marker).symm⟩
  · split
    · exact ⟨_, rfl⟩
    · exact ⟨_, rfl⟩

theorem mem_renderLine {c : Char} {line : List Char} (h : c ∈ renderLine line) :
    c ∈ line ∨ c = '/' ∨ c = ' ' ∨ c = '\\' := by
  have hm : c ∈ marker → c = '/' := fun hc => by simpa [marker_eq] using hc
  unfold renderLine at h
  split at h
  · exact .inr (.inl (hm h))
  · split at h
    · rcases List.mem_append.mp h with h | h
      · exact .inr (.inl (hm h))
      · exact (mem_escapeChars h).imp_right fun he => .inr (.inr he)
    · rcases List.mem_append.mp h with h | h
      · exact .inr (.inl (hm h))
      · rcases List.mem_cons.mp h with h | h
        · exact .inr (.inr (.inl h))
        · exact (mem_escapeChars h).imp_right fun he => .inr (.inr he)

theorem not_mem_renderLine {c : Char} (hc : c = '\n' ∨ c = '\r') (comment : List Char) :
    ∀ line ∈ (contentLines comment).map renderLine, c ∉ line := by
  intro rendered hr hmem
  obtain ⟨line, hline, rfl⟩ := List.mem_map.mp hr
  have hfree : c ∉ line := not_mem_commentLines hc comment line (mem_of_mem_dropEndWhile hline)
  have hne : c ≠ '/' ∧ c ≠ ' ' ∧ c ≠ '\\' := by
    rcases hc with rfl | rfl <;> decide
  rcases mem_renderLine hmem with h | h | h | h
  · exact hfree h
  · exact hne.1 h
  · exact hne.2.1 h
  · exact hne.2.2 h

theorem lines_render (comment : String) :
    lines (render comment).toList = (contentLines comment.toList).map renderLine := by
  rw [render, String.toList_ofList]
  have hrows : ((contentLines comment.toList).flatMap fun line => renderLine line ++ ['\n']) =
      ((contentLines comment.toList).map renderLine).flatMap fun row => row ++ ['\n'] := by
    rw [List.flatMap_map]
  rw [hrows]
  exact lines_rows (not_mem_renderLine (.inl rfl) _) (not_mem_renderLine (.inr rfl) _)

end GrpcStubs.DocComment

namespace GrpcStubs
open Template Stub

def isDocLine (line : Line) : Bool :=
  (Text.afterStart ['/', '/', '/'] (dropSpaces line)).isSome

/-- A line of documentation, or the attribute that marks a deprecated function. -/
def isCommentLine (line : Line) : Bool :=
  (Text.afterStart "///".toList (dropSpaces line)).isSome ||
    dropSpaces line == "#[deprecated]".toList

theorem isDocLine_render (comment : String) :
    ∀ row ∈ Text.lines (DocComment.render comment).toList, isDocLine row = true := by
  intro row hrow
  rw [DocComment.lines_render] at hrow
  obtain ⟨line, _, rfl⟩ := List.mem_map.mp hrow
  obtain ⟨rest, hrest⟩ := DocComment.renderLine_eq line
  rw [DocComment.marker_eq] at hrest
  have hspaces : dropSpaces (['/', '/', '/'] ++ rest) = ['/', '/', '/'] ++ rest :=
    dropSpaces_of_head (by decide)
  rw [hrest, isDocLine, hspaces, Text.afterStart_append]
  rfl

theorem isCommentLine_of_isDocLine {line : Line} (h : isDocLine line = true) :
    isCommentLine line = true := by
  rw [isCommentLine, String.toList_ofList]
  exact (Bool.or_eq_true _ _).mpr (.inl h)

theorem isCommentLine_render (comment : String) :
    ∀ row ∈ Text.lines (DocComment.render comment).toList, isCommentLine row = true ∧ '\n' ∉ row :=
  fun row hrow =>
    ⟨isCommentLine_of_isDocLine (isDocLine_render comment row hrow), Text.not_mem_of_mem_lines hrow⟩

theorem lines_deprecation (method : Method) :
    Text.lines (deprecation method).toList =
      if method.deprecated then ["#[deprecated]".toList] else [] := by
  unfold deprecation
  split
  · rw [String.toList_ofList]
    decide
  · rw [String.toList_empty]
    rfl

theorem isCommentLine_deprecation (method : Method) :
    ∀ row ∈ Text.lines (deprecation method).toList, isCommentLine row = true ∧ '\n' ∉ row := by
  intro row hrow
  refine ⟨?_, Text.not_mem_of_mem_lines hrow⟩
  rw [lines_deprecation] at hrow
  rw [List.mem_singleton.mp (List.mem_ite_nil_right.mp hrow).2, String.toList_ofList]
  decide

end GrpcStubs
