import GrpcStubs.Proofs.Dedenting

set_option autoImplicit false

namespace GrpcStubs.Template
open Text

/-- A line is moved to the right by `n` spaces, but a blank line becomes any blank line. -/
inductive MovesTo (n : Nat) : Line → Line → Prop where
  | blank {line other : Line} (before : allBlank line = true) (after : allBlank other = true) :
    MovesTo n line other
  | text {line : Line} (full : allBlank line = false) :
    MovesTo n line (List.replicate n ' ' ++ line)

/-- A template with all its lines moved. A first line that is blank stays as it is, since only an
    empty one is dropped. -/
structure IsMoved (n : Nat) (source moved : String) : Prop where
  lines : ∃ first rest start others, IsSplit '\n' source.toList (first :: rest) ∧
    IsSplit '\n' moved.toList (start :: others) ∧ MovesTo n first start ∧
    (allBlank first = true → start = first) ∧ List.Forall₂ (MovesTo n) rest others

theorem utf8Width_replicate (n : Nat) : utf8Width (List.replicate n ' ') = n := by
  induction n with
  | zero => rfl
  | succ n ih =>
    rw [List.replicate_succ, utf8Width, ih]
    exact Nat.add_comm 1 n

section Line
variable {n : Nat} {line other : Line}

theorem allBlank_replicate_append (line : Line) :
    allBlank (List.replicate n ' ' ++ line) = allBlank line := by
  rw [allBlank_eq_trimStart, trimStart_append blank_of_mem_replicate, ← allBlank_eq_trimStart]

theorem indentWidth_replicate_append (line : Line) :
    indentWidth (List.replicate n ' ' ++ line) = n + indentWidth line := by
  rw [indentWidth, leadingBlanks, List.takeWhile_append_of_pos blank_of_mem_replicate,
    utf8Width_append, utf8Width_replicate, indentWidth, leadingBlanks]

theorem dropWidth_replicate_append (width : Nat) (line : Line) :
    dropWidth (n + width) (List.replicate n ' ' ++ line) = dropWidth width line := by
  induction n with
  | zero => rw [Nat.zero_add, List.replicate_zero, List.nil_append]
  | succ n ih =>
    have hwidth : n + 1 + width = n + width + 1 := by omega
    have hsize : ' '.utf8Size ≤ n + width + 1 := Nat.le_add_left 1 _
    rw [hwidth, List.replicate_succ, List.cons_append, dropWidth, if_pos hsize, ← ih]
    rfl

theorem cut_replicate_append (width : Nat) (line : Line) :
    cut (n + width) (List.replicate n ' ' ++ line) = cut width line := by
  rw [cut, dropWidth_replicate_append, cut]

theorem MovesTo.allBlank_eq (h : MovesTo n line other) : allBlank other = allBlank line := by
  cases h with
  | blank before after => rw [before, after]
  | text _ => exact allBlank_replicate_append line

theorem MovesTo.isEmpty_eq (h : MovesTo n line other) (hsame : allBlank line = true → other = line) :
    other.isEmpty = line.isEmpty := by
  cases h with
  | blank before _ => rw [hsame before]
  | text full =>
    have hne : line ≠ [] := by
      rintro rfl
      cases full
    rw [List.isEmpty_eq_false_iff.mpr hne,
      List.isEmpty_eq_false_iff.mpr (List.append_ne_nil_of_right_ne_nil _ hne)]

end Line

section Lines
variable {n : Nat} {lines others : List Line}

theorem dropFirstEmpty_cons (first : Line) (rest : List Line) :
    dropFirstEmpty (first :: rest) = if first.isEmpty then rest else first :: rest := by
  cases first <;> rfl

theorem allBlank_getLast?_of_moves (h : List.Forall₂ (MovesTo n) lines others) :
    others.getLast?.any allBlank = lines.getLast?.any allBlank := by
  rw [← List.head?_reverse, ← List.head?_reverse]
  have hreversed := List.forall₂_reverse_iff.mpr h
  revert hreversed
  generalize lines.reverse = front, others.reverse = back
  intro hreversed
  cases hreversed with
  | nil => rfl
  | cons hline _ => exact hline.allBlank_eq

theorem dropLastBlank_of_moves (h : List.Forall₂ (MovesTo n) lines others) :
    List.Forall₂ (MovesTo n) (dropLastBlank lines) (dropLastBlank others) := by
  -- The last lines are both blank or neither is, so one list is shortened just if the other is.
  rw [dropLastBlank, dropLastBlank, allBlank_getLast?_of_moves h]
  split
  · rw [List.dropLast_eq_take, List.dropLast_eq_take, h.length_eq]
    exact List.forall₂_take _ h
  · exact h

theorem indents_of_moves (h : List.Forall₂ (MovesTo n) lines others) :
    (others.filter fun line => !allBlank line).map indentWidth =
      ((lines.filter fun line => !allBlank line).map indentWidth).map (n + ·) := by
  induction h with
  | nil => rfl
  | @cons line other lines others hline _ ih =>
    rw [List.filter_cons, List.filter_cons, hline.allBlank_eq]
    cases hline with
    | blank before _ => simpa [before] using ih
    | text full => simpa [full, indentWidth_replicate_append] using ih

theorem min?_map_add (n : Nat) {widths : List Nat} {least : Nat} (h : widths.min? = some least) :
    (widths.map (n + ·)).min? = some (n + least) := by
  rw [List.min?_eq_some_iff] at h ⊢
  refine ⟨List.mem_map_of_mem h.1, List.forall_mem_map.mpr fun width hwidth => ?_⟩
  exact Nat.add_le_add_left (h.2 width hwidth) n

/-- The common indentation grows by `n` too, unless no line has any. -/
theorem commonIndent_of_moves (h : List.Forall₂ (MovesTo n) lines others)
    (hfull : ∃ line ∈ lines, allBlank line = false) :
    commonIndent others = n + commonIndent lines := by
  obtain ⟨line, hline, hblank⟩ := hfull
  have hmem : line ∈ lines.filter fun line => !allBlank line :=
    List.mem_filter.mpr ⟨hline, by rw [hblank]; rfl⟩
  rw [commonIndent, indents_of_moves h, commonIndent]
  cases hmin : ((lines.filter fun line => !allBlank line).map indentWidth).min? with
  | none =>
    rw [List.min?_eq_none_iff, List.map_eq_nil_iff] at hmin
    rw [hmin] at hmem
    exact absurd hmem List.not_mem_nil
  | some least => rw [min?_map_add n hmin, Option.getD_some, Option.getD_some]

def Alike (line other : Line) : Prop :=
  (allBlank line = true ∧ allBlank other = true) ∨ line = other

theorem cut_of_moves {line other : Line} {width shifted : Nat} (h : MovesTo n line other)
    (hshift : allBlank line = false → shifted = n + width) :
    Alike (cut width line) (cut shifted other) := by
  cases h with
  | blank before after =>
    exact .inl ⟨allBlank_cut_of_allBlank width before, allBlank_cut_of_allBlank shifted after⟩
  | text full =>
    rw [hshift full, cut_replicate_append]
    exact .inr rfl

theorem map_cut_of_moves {width shifted : Nat} (h : List.Forall₂ (MovesTo n) lines others)
    (hshift : ∀ line ∈ lines, allBlank line = false → shifted = n + width) :
    List.Forall₂ Alike (lines.map (cut width)) (others.map (cut shifted)) := by
  induction h with
  | nil => exact .nil
  | cons hline _ ih =>
    rw [List.forall_mem_cons] at hshift
    exact .cons (cut_of_moves hline hshift.1) (ih hshift.2)

end Lines

theorem textLines_of_isMoved {n : Nat} {source moved : String} (h : IsMoved n source moved) :
    List.Forall₂ (MovesTo n) (textLines source.toList) (textLines moved.toList) := by
  obtain ⟨first, rest, start, others, hsource, hmoved, hfirst, hsame, hrest⟩ := h.lines
  rw [textLines, textLines, isSplit_iff.mp hsource, isSplit_iff.mp hmoved]
  refine dropLastBlank_of_moves ?_
  rw [dropFirstEmpty_cons, dropFirstEmpty_cons, hfirst.isEmpty_eq hsame]
  split
  · exact hrest
  · exact .cons hfirst hrest

theorem layout_of_isMoved {n : Nat} {source moved : String} (h : IsMoved n source moved) :
    List.Forall₂ Alike (layout source.toList) (layout moved.toList) := by
  have hlines := textLines_of_isMoved h
  exact map_cut_of_moves hlines fun line hline hblank =>
    commonIndent_of_moves hlines ⟨line, hline, hblank⟩

theorem Alike.printTemplateLine_eq {line other : Line} (h : Alike line other)
    (bindings : Bindings) : printTemplateLine bindings other = printTemplateLine bindings line := by
  rcases h with ⟨hline, hother⟩ | rfl
  · rw [printTemplateLine, if_pos hother, printTemplateLine, if_pos hline]
  · rfl

theorem forM_printTemplateLine_of_alike {lines others : List Line}
    (h : List.Forall₂ Alike lines others) (bindings : Bindings) :
    others.forM (printTemplateLine bindings) = lines.forM (printTemplateLine bindings) := by
  induction h with
  | nil => rfl
  | @cons line other lines others hline _ ih =>
    change (printTemplateLine bindings other >>= fun _ => others.forM (printTemplateLine bindings)) =
      (printTemplateLine bindings line >>= fun _ => lines.forM (printTemplateLine bindings))
    rw [hline.printTemplateLine_eq bindings, ih]

/-- A template prints the same, and fails in the same way, wherever it stands. -/
theorem printTemplate_of_isMoved {n : Nat} {source moved : String} (h : IsMoved n source moved)
    (bindings : Bindings) (printer : Printer) :
    printTemplate bindings moved printer = printTemplate bindings source printer := by
  rw [printTemplate, printTemplate, forM_printTemplateLine_of_alike (layout_of_isMoved h) bindings]

/-- A template that starts on its first line, with a wide blank in an indentation, a blank line that
    gets longer and one that gets shorter, and a name that nothing is bound to. -/
theorem printTemplate_of_isMoved_wide :
    IsMoved 2 " a\n\n\u3000$b$\n\t \n  $c$\n" "   a\n  \n  \u3000$b$\n\n    $c$\n\t" ∧
      printTemplate [("b", .text "x")] "   a\n  \n  \u3000$b$\n\n    $c$\n\t" ⟨"fn\n", 4⟩ =
        printTemplate [("b", .text "x")] " a\n\n\u3000$b$\n\t \n  $c$\n" ⟨"fn\n", 4⟩ := by
  have hsource : splitAt '\n' " a\n\n\u3000$b$\n\t \n  $c$\n".toList =
      [[' ', 'a'], [], ['\u3000', '$', 'b', '$'], ['\t', ' '], [' ', ' ', '$', 'c', '$'], []] := by
    decide
  have hmoved : splitAt '\n' "   a\n  \n  \u3000$b$\n\n    $c$\n\t".toList =
      [[' ', ' ', ' ', 'a'], [' ', ' '], [' ', ' ', '\u3000', '$', 'b', '$'], [],
        [' ', ' ', ' ', ' ', '$', 'c', '$'], ['\t']] := by
    decide
  have h : IsMoved 2 " a\n\n\u3000$b$\n\t \n  $c$\n" "   a\n  \n  \u3000$b$\n\n    $c$\n\t" := by
    refine ⟨_, _, _, _, isSplit_iff.mpr hsource, isSplit_iff.mpr hmoved, .text rfl, ?_, ?_⟩
    · intro hblank
      cases hblank
    · exact .cons (.blank rfl rfl) (.cons (.text rfl) (.cons (.blank rfl rfl)
        (.cons (.text rfl) (.cons (.blank rfl rfl) .nil))))
  exact ⟨h, printTemplate_of_isMoved h _ _⟩

end GrpcStubs.Template
