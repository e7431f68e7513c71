import GrpcStubs.Proofs.Blanks
import GrpcStubs.Proofs.Flatness
import GrpcStubs.Proofs.Rows
import GrpcStubs.Proofs.Substitution

set_option autoImplicit false

namespace GrpcStubs.Text

theorem utf8Width_append (front rest : List Char) :
    utf8Width (front ++ rest) = utf8Width front + utf8Width rest := by
  induction front with
  | nil => exact (Nat.zero_add _).symm
  | cons c cs ih => rw [List.cons_append, utf8Width, utf8Width, ih, Nat.add_assoc]

theorem utf8Width_eq_zero_iff {cs : List Char} : utf8Width cs = 0 ↔ cs = [] := by
  cases cs with
  | nil => simp [utf8Width]
  | cons c cs =>
    have hpos := c.utf8Size_pos
    simp only [utf8Width, reduceCtorEq, iff_false]
    omega

theorem dropWidth_eq_some_iff {width : Nat} {cs rest : List Char} :
    dropWidth width cs = some rest ↔ ∃ front, cs = front ++ rest ∧ utf8Width front = width := by
  fun_induction dropWidth width cs with
  | case1 cs =>
    simp only [utf8Width_eq_zero_iff]
    simp
  | case2 width =>
    simp only [reduceCtorEq, false_iff]
    rintro ⟨front, hsplit, hwidth⟩
    obtain ⟨rfl, -⟩ := List.append_eq_nil_iff.mp hsplit.symm
    cases hwidth
  | case3 width c cs hle ih =>
    rw [ih]
    constructor
    · rintro ⟨front, rfl, hwidth⟩
      exact ⟨c :: front, rfl, by rw [utf8Width, hwidth, Nat.add_sub_cancel' hle]⟩
    · rintro ⟨front, hsplit, hwidth⟩
      cases front with
      | nil => cases hwidth
      | cons d front =>
        obtain ⟨rfl, rfl⟩ := List.cons.inj hsplit
        rw [utf8Width] at hwidth
        exact ⟨front, rfl, by omega⟩
  | case4 width c cs hlt =>
    simp only [reduceCtorEq, false_iff]
    rintro ⟨front, hsplit, hwidth⟩
    cases front with
    | nil => cases hwidth
    | cons d front =>
      obtain ⟨rfl, rfl⟩ := List.cons.inj hsplit
      rw [utf8Width] at hwidth
      omega

/-- After so many bytes a character of the text starts or the text ends. -/
def IsBoundary (width : Nat) (cs : List Char) : Prop :=
  ∃ front rest, cs = front ++ rest ∧ utf8Width front = width

theorem isBoundary_iff {width : Nat} {cs : List Char} :
    IsBoundary width cs ↔ (dropWidth width cs).isSome = true := by
  simp only [Option.isSome_iff_exists, dropWidth_eq_some_iff, IsBoundary]
  exact exists_comm

instance (width : Nat) (cs : List Char) : Decidable (IsBoundary width cs) :=
  decidable_of_iff _ isBoundary_iff.symm

end GrpcStubs.Text

namespace GrpcStubs.Template
open Text

theorem blank_of_width_le {front rest : List Char}
    (h : utf8Width front ≤ indentWidth (front ++ rest)) : ∀ c ∈ front, isBlank c = true := by
  have hblanks : leadingBlanks (front ++ rest) <+: front ++ rest := List.takeWhile_prefix isBlank
  have hmem : ∀ c ∈ leadingBlanks (front ++ rest), isBlank c = true :=
    fun c => List.mem_takeWhile_imp
  have hfront : front <+: front ++ rest := List.prefix_append front rest
  rcases List.prefix_or_prefix_of_prefix hfront hblanks with hfront | hfront
  · exact fun c hc => hmem c (hfront.subset hc)
  · obtain ⟨more, hmore⟩ := hfront
    have hwidth := congrArg utf8Width hmore
    rw [utf8Width_append] at hwidth
    unfold indentWidth at h
    have hnil : more = [] := utf8Width_eq_zero_iff.mp (by omega)
    rw [hnil, List.append_nil] at hmore
    exact fun c hc => hmem c (by rwa [hmore])

theorem allBlank_iff {line : Line} : allBlank line = true ↔ ∀ c ∈ line, isBlank c = true :=
  List.all_eq_true

theorem trimStart_cut {width : Nat} {line : Line} (hwidth : width ≤ indentWidth line)
    (hboundary : IsBoundary width line) : trimStart (cut width line) = trimStart line := by
  obtain ⟨front, rest, rfl, rfl⟩ := hboundary
  rw [cut, dropWidth_eq_some_iff.mpr ⟨front, rfl, rfl⟩, Option.getD_some,
    trimStart_append (blank_of_width_le hwidth)]

theorem cut_of_not_boundary {width : Nat} {line : Line} (h : ¬ IsBoundary width line) :
    cut width line = [] := by
  rw [isBoundary_iff, Option.not_isSome_iff_eq_none] at h
  rw [cut, h, Option.getD_none]

theorem allBlank_eq_trimStart (line : Line) : allBlank line = (trimStart line).isEmpty := by
  rw [Bool.eq_iff_iff, allBlank_iff, List.isEmpty_iff, trimStart_eq_nil_iff]

theorem allBlank_cut_of_allBlank (width : Nat) {line : Line} (h : allBlank line = true) :
    allBlank (cut width line) = true :=
  allBlank_iff.mpr fun c hc => allBlank_iff.mp h c (mem_of_mem_cut hc)

theorem allBlank_cut {width : Nat} {line : Line}
    (hwidth : allBlank line = false → width ≤ indentWidth line) :
    (!allBlank (cut width line)) = (!allBlank line && decide (IsBoundary width line)) := by
  by_cases hblank : allBlank line = true
  · rw [hblank, allBlank_cut_of_allBlank width hblank]
    rfl
  · have hfull : allBlank line = false := Bool.eq_false_iff.mpr hblank
    by_cases hboundary : IsBoundary width line
    · rw [allBlank_eq_trimStart, trimStart_cut (hwidth hfull) hboundary, ← allBlank_eq_trimStart,
        decide_eq_true hboundary, Bool.and_true]
    · rw [cut_of_not_boundary hboundary, decide_eq_false hboundary, Bool.and_false]
      rfl

def fullLines (cs : List Char) : List Line :=
  (splitAt '\n' cs).filter fun line => !allBlank line

def contents (cs : List Char) : List Line :=
  (fullLines cs).map trimStart

theorem filter_dropFirstEmpty (lines : List Line) :
    (dropFirstEmpty lines).filter (fun line => !allBlank line) =
      lines.filter fun line => !allBlank line := by
  unfold dropFirstEmpty
  split <;> simp [allBlank]

theorem filter_dropLastBlank (lines : List Line) :
    (dropLastBlank lines).filter (fun line => !allBlank line) =
      lines.filter fun line => !allBlank line := by
  unfold dropLastBlank
  split
  · rename_i hany
    cases hlast : lines.getLast? with
    | none =>
      rw [hlast] at hany
      cases hany
    | some last =>
      rw [hlast, Option.any_some] at hany
      have hlines : lines.dropLast ++ [last] = lines := List.dropLast_append_getLast? last hlast
      nth_rewrite 2 [← hlines]
      rw [List.filter_append]
      simp [hany]
  · rfl

theorem filter_textLines (cs : List Char) :
    (textLines cs).filter (fun line => !allBlank line) = fullLines cs := by
  rw [textLines, filter_dropLastBlank, filter_dropFirstEmpty, fullLines]

def sharedWidth (cs : List Char) : Nat :=
  commonIndent (splitAt '\n' cs)

theorem commonIndent_textLines (cs : List Char) : commonIndent (textLines cs) = sharedWidth cs := by
  rw [commonIndent, filter_textLines]
  rfl

theorem sharedWidth_le {cs : List Char} {line : Line} (h : line ∈ fullLines cs) :
    sharedWidth cs ≤ indentWidth line :=
  List.min?_getD_le_of_mem (List.mem_map_of_mem h)

theorem layout_contents (cs : List Char) :
    ((layout cs).filter fun line => !allBlank line).map trimStart =
      ((fullLines cs).filter fun line =>
        decide (IsBoundary (sharedWidth cs) line)).map trimStart := by
  have hfull : ∀ line ∈ textLines cs, allBlank line = false → line ∈ fullLines cs := by
    intro line hline hblank
    rw [← filter_textLines]
    exact List.mem_filter.mpr ⟨hline, by rw [hblank]; rfl⟩
  have hkept : (textLines cs).filter ((fun line => !allBlank line) ∘ cut (sharedWidth cs)) =
      (fullLines cs).filter fun line => decide (IsBoundary (sharedWidth cs) line) := by
    rw [← filter_textLines, List.filter_filter]
    refine List.filter_congr fun line hline => ?_
    rw [Function.comp, allBlank_cut fun hblank => sharedWidth_le (hfull line hline hblank),
      Bool.and_comm]
  rw [layout, commonIndent_textLines, List.filter_map, List.map_map, hkept]
  refine List.map_congr_left fun line hline => ?_
  obtain ⟨hmem, hboundary⟩ := List.mem_filter.mp hline
  exact trimStart_cut (sharedWidth_le hmem) (of_decide_eq_true hboundary)

def plainPiece (line : Line) : Piece :=
  if allBlank line then ⟨0, []⟩ else ⟨indentWidth line, trimStart line⟩

theorem soleName?_eq_none_of_not_mem {body : Line} (h : '$' ∉ body) : soleName? body = none := by
  unfold soleName?
  split
  · rename_i rest heq
    have hmem : '$' ∈ trimEnd body := heq ▸ List.mem_cons_self
    exact absurd ((List.rdropWhile_prefix isBlank body).subset hmem) h
  · rfl

theorem substitute_of_not_mem (bindings : Bindings) {body : Line} (h : '$' ∉ body) :
    substitute bindings body = .ok (.ofList body) := by
  rw [substitute, fill, splitAt_of_not_mem h]
  rfl

theorem printTemplateLine_of_not_mem (bindings : Bindings) {line : Line} (h : '$' ∉ line) :
    printTemplateLine bindings line = (⟨[plainPiece line], .ok ()⟩ : Trace).run := by
  unfold plainPiece
  by_cases hblank : allBlank line = true
  · rw [if_pos hblank, printTemplateLine, if_pos hblank]
    exact (Trace.run_line 0 []).symm
  · have hbody : '$' ∉ trimStart line := fun hmem => h ((List.dropWhile_suffix isBlank).subset hmem)
    rw [if_neg hblank, printTemplateLine_eq_substitute (Bool.eq_false_iff.mpr hblank)
      (soleName?_eq_none_of_not_mem hbody), substitute_of_not_mem bindings hbody]
    exact (Trace.run_line _ _).symm

theorem forM_printTemplateLine (bindings : Bindings) {lines : List Line}
    (h : ∀ line ∈ lines, '$' ∉ line) :
    lines.forM (printTemplateLine bindings) = (⟨lines.map plainPiece, .ok ()⟩ : Trace).run := by
  induction lines with
  | nil => exact Trace.run_done.symm
  | cons line lines ih =>
    rw [List.forall_mem_cons] at h
    change (printTemplateLine bindings line >>= fun _ =>
      lines.forM (printTemplateLine bindings)) = _
    rw [printTemplateLine_of_not_mem bindings h.1, ih h.2]
    exact Trace.run_bind _ _

theorem not_mem_layout_of_not_mem {cs : List Char} {line : Line} {c : Char} (h : c ∉ cs)
    (hline : line ∈ layout cs) : c ∉ line := by
  obtain ⟨row, hrow, rfl⟩ := List.mem_map.mp hline
  intro hmem
  exact h (mem_of_mem_splitAt (mem_splitAt_of_mem_textLines hrow) (mem_of_mem_cut hmem))

theorem printTemplate_of_not_mem (bindings : Bindings) {source : String} (h : '$' ∉ source.toList) :
    printTemplate bindings source {} =
      (.ok (), ⟨.ofList (layOut 0 ((layout source.toList).map plainPiece)), 0⟩) := by
  rw [printTemplate, forM_printTemplateLine bindings fun _ => not_mem_layout_of_not_mem h]
  change (Except.ok (), Printer.mk ("" ++ _) 0) = _
  rw [String.empty_append]

theorem blank_of_mem_replicate {n : Nat} : ∀ c ∈ List.replicate n ' ', isBlank c = true := by
  intro c hc
  rw [List.eq_of_mem_replicate hc]
  rfl

theorem trimStart_row_plainPiece (line : Line) :
    trimStart ((plainPiece line).row 0) = trimStart line := by
  unfold plainPiece Piece.row
  by_cases hblank : allBlank line = true
  · have hnil : trimStart line = [] := trimStart_eq_nil_iff.mpr (allBlank_iff.mp hblank)
    rw [if_pos hblank, hnil]
    rfl
  · have hne : ¬ (trimStart line).isEmpty = true := by rwa [← allBlank_eq_trimStart]
    rw [if_neg hblank, if_neg hne, trimStart_append blank_of_mem_replicate]
    exact List.dropWhile_idempotent isBlank line

theorem contents_layOut {lines : List Line} (h : ∀ line ∈ lines, '\n' ∉ line) :
    contents (layOut 0 (lines.map plainPiece)) =
      (lines.filter fun line => !allBlank line).map trimStart := by
  have hflat : ∀ piece ∈ lines.map plainPiece, '\n' ∉ piece.text := by
    refine List.forall_mem_map.mpr fun line hline => ?_
    unfold plainPiece
    split
    · exact List.not_mem_nil
    · exact fun hmem => h line hline ((List.dropWhile_suffix isBlank).subset hmem)
  have hblank : ((fun line => !allBlank line) ∘ Piece.row 0 ∘ plainPiece) =
      fun line => !allBlank line := by
    funext line
    simp only [Function.comp, allBlank_eq_trimStart, trimStart_row_plainPiece]
  have htrim : (trimStart ∘ Piece.row 0 ∘ plainPiece) = trimStart := funext trimStart_row_plainPiece
  rw [contents, fullLines, splitAt_layOut_of_flat 0 hflat, List.filter_append, List.map_map,
    List.filter_map, hblank]
  simp [allBlank, htrim]

/-- A template without placeholders is always printed. It keeps the text of those of its lines that
    can be cut at the shared width, and so of all of them just if they all can. -/
theorem printTemplate_contents (bindings : Bindings) {source : String} (h : '$' ∉ source.toList) :
    ∃ output, printTemplate bindings source {} = (.ok (), ⟨output, 0⟩) ∧
      contents output.toList =
        ((fullLines source.toList).filter fun line =>
          decide (IsBoundary (sharedWidth source.toList) line)).map trimStart ∧
      (contents output.toList = contents source.toList ↔
        ∀ line ∈ fullLines source.toList, IsBoundary (sharedWidth source.toList) line) := by
  have hcontents : contents (layOut 0 ((layout source.toList).map plainPiece)) = _ :=
    (contents_layOut fun _ => not_mem_layout).trans (layout_contents source.toList)
  refine ⟨_, printTemplate_of_not_mem bindings h, ?_, ?_⟩
  · rw [String.toList_ofList, hcontents]
  · rw [String.toList_ofList, hcontents, contents]
    constructor
    · intro heq line hline
      have hlength := congrArg List.length heq
      rw [List.length_map, List.length_map, List.length_filter_eq_length_iff] at hlength
      exact of_decide_eq_true (hlength line hline)
    · intro hall
      rw [List.filter_eq_self.mpr fun line hline => decide_eq_true (hall line hline)]

/-- Lines that are indented by spaces and by a wider blank, cut where the wider one ends. -/
theorem printTemplate_contents_mixed :
    '$' ∉ "\n   a\n\u3000b\n\n".toList ∧ ∃ output,
      printTemplate [] "\n   a\n\u3000b\n\n" {} = (.ok (), ⟨output, 0⟩) ∧
        contents output.toList = contents "\n   a\n\u3000b\n\n".toList := by
  have h : '$' ∉ "\n   a\n\u3000b\n\n".toList := by decide
  obtain ⟨output, hprints, -, hkept⟩ := printTemplate_contents [] h
  exact ⟨h, output, hprints, hkept.mpr (by decide)⟩

/-- A line whose indentation is one wide blank is lost beside a line with a narrower one. -/
theorem printTemplate_loses_line :
    '$' ∉ " a\n\u3000b".toList ∧ printTemplate [] " a\n\u3000b" {} = (.ok (), ⟨"a\n\n", 0⟩) ∧
      contents "a\n\n".toList ≠ contents " a\n\u3000b".toList := by
  have h : '$' ∉ " a\n\u3000b".toList := by decide
  have hlines : layOut 0 ((layout " a\n\u3000b".toList).map plainPiece) = ['a', '\n', '\n'] := by
    decide
  refine ⟨h, ?_, by decide⟩
  rw [printTemplate_of_not_mem [] h, hlines]

end GrpcStubs.Template
