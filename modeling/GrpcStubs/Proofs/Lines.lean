import GrpcStubs.Text.Split

set_option autoImplicit false

namespace GrpcStubs.Text

theorem consFirst_append (c : Char) {first : List (List Char)} (second : List (List Char))
    (h : first ≠ []) : consFirst c (first ++ second) = consFirst c first ++ second := by
  cases first with
  | nil => exact absurd rfl h
  | cons piece pieces => rfl

theorem intercalate_consFirst (c : Char) (sep : List Char) {pieces : List (List Char)}
    (h : pieces ≠ []) : sep.intercalate (consFirst c pieces) = c :: sep.intercalate pieces := by
  cases pieces with
  | nil => exact absurd rfl h
  | cons first rest =>
    cases rest with
    | nil => rw [consFirst, List.intercalate_singleton, List.intercalate_singleton]
    | cons next rest =>
      rw [consFirst, List.intercalate_cons_cons, List.intercalate_cons_cons, List.cons_append,
        List.cons_append]

theorem splitAt_append_sep (sep : Char) (front rest : List Char) :
    splitAt sep (front ++ sep :: rest) = splitAt sep front ++ splitAt sep rest := by
  induction front with
  | nil => simp [splitAt]
  | cons c cs ih =>
    rw [List.cons_append, splitAt, splitAt, ih]
    split
    · rfl
    · exact consFirst_append c _ (splitAt_ne_nil sep cs)

theorem splitAt_of_not_mem {sep : Char} {cs : List Char} (h : sep ∉ cs) :
    splitAt sep cs = [cs] := by
  induction cs with
  | nil => rfl
  | cons c cs ih =>
    rw [List.mem_cons, not_or] at h
    rw [splitAt, if_neg (fun hc => h.1 hc.symm), ih h.2]
    rfl

theorem mem_of_mem_splitAt {sep c : Char} {cs piece : List Char} (h : piece ∈ splitAt sep cs)
    (hc : c ∈ piece) : c ∈ cs := by
  induction cs generalizing piece with
  | nil =>
    rw [splitAt, List.mem_singleton] at h
    rwa [h] at hc
  | cons d cs ih =>
    rw [splitAt] at h
    split at h
    · rcases List.mem_cons.mp h with rfl | h
      · exact absurd hc List.not_mem_nil
      · exact List.mem_cons_of_mem d (ih h hc)
    · cases hs : splitAt sep cs with
      | nil => exact absurd hs (splitAt_ne_nil sep cs)
      | cons first rest =>
        rw [hs] at h ih
        rcases List.mem_cons.mp h with rfl | h
        · rcases List.mem_cons.mp hc with rfl | hc
          · exact List.mem_cons_self
          · exact List.mem_cons_of_mem d (ih List.mem_cons_self hc)
        · exact List.mem_cons_of_mem d (ih (List.mem_cons_of_mem first h) hc)

theorem eq_or_mem_splitAt (sep : Char) {c : Char} {cs : List Char} (h : c ∈ cs) :
    c = sep ∨ ∃ piece ∈ splitAt sep cs, c ∈ piece := by
  induction cs with
  | nil => exact absurd h List.not_mem_nil
  | cons d cs ih =>
    rw [splitAt]
    split
    · rename_i hd
      rcases List.mem_cons.mp h with rfl | h
      · exact .inl hd
      · refine (ih h).imp_right ?_
        rintro ⟨piece, hpiece, hc⟩
        exact ⟨piece, List.mem_cons_of_mem _ hpiece, hc⟩
    · cases hs : splitAt sep cs with
      | nil => exact absurd hs (splitAt_ne_nil sep cs)
      | cons first rest =>
        rw [hs] at ih
        rcases List.mem_cons.mp h with rfl | h
        · exact .inr ⟨_, List.mem_cons_self, List.mem_cons_self⟩
        · refine (ih h).imp_right ?_
          rintro ⟨piece, hpiece, hc⟩
          rcases List.mem_cons.mp hpiece with rfl | hpiece
          · exact ⟨_, List.mem_cons_self, List.mem_cons_of_mem d hc⟩
          · exact ⟨piece, List.mem_cons_of_mem _ hpiece, hc⟩

theorem splitAt_rows (sep : Char) (rows : List (List Char)) :
    splitAt sep (rows.flatMap fun row => row ++ [sep]) = rows.flatMap (splitAt sep) ++ [[]] := by
  induction rows with
  | nil => rfl
  | cons row rows ih =>
    rw [List.flatMap_cons, List.append_assoc, List.singleton_append, splitAt_append_sep, ih,
      List.flatMap_cons, List.append_assoc]

theorem flatMap_splitAt_of_not_mem {sep : Char} {rows : List (List Char)}
    (h : ∀ row ∈ rows, sep ∉ row) : rows.flatMap (splitAt sep) = rows := by
  induction rows with
  | nil => rfl
  | cons row rows ih =>
    rw [List.flatMap_cons, splitAt_of_not_mem (h row List.mem_cons_self),
      ih fun other ho => h other (List.mem_cons_of_mem _ ho)]
    rfl

structure IsSplit (sep : Char) (cs : List Char) (parts : List (List Char)) : Prop where
  nonempty : parts ≠ []
  joined : [sep].intercalate parts = cs
  free : ∀ part ∈ parts, sep ∉ part

theorem splitAt_intercalate {sep : Char} {parts : List (List Char)} (hne : parts ≠ [])
    (hfree : ∀ part ∈ parts, sep ∉ part) : splitAt sep ([sep].intercalate parts) = parts := by
  induction parts with
  | nil => exact absurd rfl hne
  | cons part rest ih =>
    rw [List.forall_mem_cons] at hfree
    cases rest with
    | nil => rw [List.intercalate_singleton, splitAt_of_not_mem hfree.1]
    | cons next rest =>
      rw [List.intercalate_cons_cons, List.append_assoc, List.singleton_append, splitAt_append_sep,
        splitAt_of_not_mem hfree.1, ih (List.cons_ne_nil next rest) hfree.2]
      rfl

theorem isSplit_iff {sep : Char} {cs : List Char} {parts : List (List Char)} :
    IsSplit sep cs parts ↔ splitAt sep cs = parts := by
  constructor
  · rintro ⟨hne, rfl, hfree⟩
    exact splitAt_intercalate hne hfree
  · rintro rfl
    exact ⟨splitAt_ne_nil sep cs, intercalate_splitAt sep cs, fun _ => not_mem_of_mem_splitAt⟩

theorem afterStart_eq_some_iff {start cs rest : List Char} :
    afterStart start cs = some rest ↔ cs = start ++ rest := by
  induction start generalizing cs with
  | nil => simp [afterStart]
  | cons s start ih =>
    cases cs with
    | nil => simp [afterStart]
    | cons c cs =>
      by_cases hs : s = c
      · simp [afterStart, hs, ih]
      · have hc : ¬ c = s := fun h => hs h.symm
        simp [afterStart, hs, hc]

theorem afterStart_append (start rest : List Char) : afterStart start (start ++ rest) = some rest :=
  afterStart_eq_some_iff.mpr rfl

theorem beforeEnd_eq_some_iff {ending cs front : List Char} :
    beforeEnd ending cs = some front ↔ cs = front ++ ending := by
  rw [beforeEnd, Option.map_eq_some_iff]
  constructor
  · rintro ⟨rest, hrest, rfl⟩
    have hr := afterStart_eq_some_iff.mp hrest
    rw [← List.reverse_reverse cs, hr, List.reverse_append, List.reverse_reverse]
  · rintro rfl
    refine ⟨front.reverse, afterStart_eq_some_iff.mpr ?_, List.reverse_reverse front⟩
    rw [List.reverse_append]

theorem beforeEnd_append (front ending : List Char) :
    beforeEnd ending (front ++ ending) = some front :=
  beforeEnd_eq_some_iff.mpr rfl

/-- The texts before and after the first occurrence of a separator. Without one there is nothing
    after it. -/
inductive Cuts (sep : Char) : List Char → List Char → List Char → Prop where
  | apart {before after : List Char} (first : sep ∉ before) :
    Cuts sep (before ++ sep :: after) before after
  | whole {cs : List Char} (absent : sep ∉ cs) : Cuts sep cs cs []

theorem splitFirst_of_not_mem {sep : Char} {cs : List Char} (h : sep ∉ cs) :
    splitFirst sep cs = none := by
  induction cs with
  | nil => rfl
  | cons c cs ih =>
    rw [List.mem_cons, not_or] at h
    rw [splitFirst, if_neg (fun hc => h.1 hc.symm), ih h.2]
    rfl

theorem splitFirst_append {sep : Char} {before : List Char} (h : sep ∉ before)
    (after : List Char) : splitFirst sep (before ++ sep :: after) = some (before, after) := by
  induction before with
  | nil => exact if_pos rfl
  | cons c cs ih =>
    rw [List.mem_cons, not_or] at h
    rw [List.cons_append, splitFirst, if_neg (fun hc => h.1 hc.symm), ih h.2]
    rfl

theorem splitFirst_eq_none_iff {sep : Char} {cs : List Char} :
    splitFirst sep cs = none ↔ sep ∉ cs := by
  refine ⟨fun h hmem => ?_, splitFirst_of_not_mem⟩
  obtain ⟨before, after, rfl, hfirst⟩ := List.eq_append_cons_of_mem hmem
  rw [splitFirst_append hfirst] at h
  cases h

theorem splitFirst_eq_some_iff {sep : Char} {cs before after : List Char} :
    splitFirst sep cs = some (before, after) ↔ sep ∉ before ∧ cs = before ++ sep :: after := by
  constructor
  · intro h
    by_cases hmem : sep ∈ cs
    · obtain ⟨front, back, rfl, hfirst⟩ := List.eq_append_cons_of_mem hmem
      rw [splitFirst_append hfirst] at h
      cases h
      exact ⟨hfirst, rfl⟩
    · rw [splitFirst_of_not_mem hmem] at h
      cases h
  · rintro ⟨hfirst, rfl⟩
    exact splitFirst_append hfirst after

theorem length_lt_of_splitFirst {sep : Char} {cs before after : List Char}
    (h : splitFirst sep cs = some (before, after)) : after.length < cs.length := by
  obtain ⟨-, rfl⟩ := splitFirst_eq_some_iff.mp h
  rw [List.length_append, List.length_cons]
  omega

theorem cuts_iff {sep : Char} {cs before after : List Char} :
    Cuts sep cs before after ↔ (splitFirst sep cs).getD (cs, []) = (before, after) := by
  constructor
  · intro h
    cases h with
    | apart first => rw [splitFirst_append first, Option.getD_some]
    | whole absent => rw [splitFirst_of_not_mem absent, Option.getD_none]
  · intro h
    cases hsplit : splitFirst sep cs with
    | none =>
      rw [hsplit, Option.getD_none] at h
      cases h
      exact .whole (splitFirst_eq_none_iff.mp hsplit)
    | some sides =>
      rw [hsplit, Option.getD_some] at h
      obtain ⟨hfirst, rfl⟩ := splitFirst_eq_some_iff.mp (hsplit.trans (congrArg some h))
      exact .apart hfirst

theorem dropReturn_of_not_mem {line : List Char} (h : '\r' ∉ line) : dropReturn line = line := by
  unfold dropReturn
  cases hb : beforeEnd ['\r'] line with
  | none => rfl
  | some front =>
    have hf := beforeEnd_eq_some_iff.mp hb
    exact absurd (by simp [hf]) h

theorem closeLines_rows (rows : List (List Char)) :
    closeLines (rows ++ [[]]) = rows.map dropReturn := by
  induction rows with
  | nil => rfl
  | cons row rows ih =>
    cases rows with
    | nil => rfl
    | cons next rest =>
      rw [List.map_cons, ← ih]
      rfl

theorem lines_rows {rows : List (List Char)} (hn : ∀ row ∈ rows, '\n' ∉ row)
    (hr : ∀ row ∈ rows, '\r' ∉ row) : lines (rows.flatMap fun row => row ++ ['\n']) = rows := by
  rw [lines, splitAt_rows, flatMap_splitAt_of_not_mem hn, closeLines_rows]
  calc
    rows.map dropReturn = rows.map id :=
      List.map_congr_left fun row hrow => dropReturn_of_not_mem (hr row hrow)
    _ = rows := List.map_id rows

theorem mem_closeLines {pieces : List (List Char)} {line : List Char}
    (h : line ∈ closeLines pieces) : ∃ piece ∈ pieces, ∀ c ∈ line, c ∈ piece := by
  induction pieces with
  | nil => exact absurd h List.not_mem_nil
  | cons piece rest ih =>
    cases rest with
    | nil =>
      rw [closeLines] at h
      split at h
      · exact absurd h List.not_mem_nil
      · exact ⟨line, h, fun c hc => hc⟩
    | cons next rest =>
      rw [closeLines, List.mem_cons] at h
      rcases h with rfl | h
      · refine ⟨piece, List.mem_cons_self, fun c hc => ?_⟩
        unfold dropReturn at hc
        cases hb : beforeEnd ['\r'] piece with
        | none => simpa [hb] using hc
        | some front =>
          rw [beforeEnd_eq_some_iff.mp hb]
          exact List.mem_append_left _ (by simpa [hb] using hc)
      · obtain ⟨found, hf, hc⟩ := ih h
        exact ⟨found, List.mem_cons_of_mem _ hf, hc⟩

theorem not_mem_of_mem_lines {cs line : List Char} (h : line ∈ lines cs) : '\n' ∉ line := by
  obtain ⟨piece, hp, hc⟩ := mem_closeLines h
  exact fun hl => not_mem_of_mem_splitAt hp (hc _ hl)

end GrpcStubs.Text
