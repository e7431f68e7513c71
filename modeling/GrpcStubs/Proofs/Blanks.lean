import GrpcStubs.Text.Blank
import Mathlib.Data.List.DropRight

set_option autoImplicit false

namespace GrpcStubs.Text

section DropEnd
variable {α : Type} {p : α → Bool}

theorem dropEndWhile_append {xs tail : List α} (h : ∀ x ∈ tail, p x = true) :
    dropEndWhile p (xs ++ tail) = dropEndWhile p xs := by
  rw [dropEndWhile, List.reverse_append, List.dropWhile_append_of_pos, dropEndWhile]
  exact fun x hx => h x (List.mem_reverse.mp hx)

theorem dropEndWhile_of_getLast? {xs : List α} (h : ∀ x, xs.getLast? = some x → p x = false) :
    dropEndWhile p xs = xs := by
  refine List.rdropWhile_eq_self_iff.mpr fun hne => ?_
  simp [h _ (List.getLast?_eq_getLast_of_ne_nil hne)]

/-- What is left is what comes before the longest ending on which `p` holds. -/
theorem dropEndWhile_eq_iff {xs ys : List α} :
    dropEndWhile p xs = ys ↔ (∃ tail, xs = ys ++ tail ∧ ∀ x ∈ tail, p x = true) ∧
      ∀ x, ys.getLast? = some x → p x = false := by
  constructor
  · rintro rfl
    refine ⟨⟨xs.rtakeWhile p, List.rdropWhile_append_rtakeWhile.symm, ?_⟩, fun x hx => ?_⟩
    · exact fun x => List.mem_rtakeWhile_imp
    · obtain ⟨hne, rfl⟩ := List.mem_getLast?_eq_getLast hx
      exact Bool.eq_false_iff.mpr (List.rdropWhile_last_not p xs hne)
  · rintro ⟨⟨tail, rfl, htail⟩, hlast⟩
    rw [dropEndWhile_append htail, dropEndWhile_of_getLast? hlast]

end DropEnd

theorem trimStart_append {front : List Char} (h : ∀ c ∈ front, isBlank c = true) (cs : List Char) :
    trimStart (front ++ cs) = trimStart cs :=
  List.dropWhile_append_of_pos h

theorem trimEnd_append {back : List Char} (h : ∀ c ∈ back, isBlank c = true) (cs : List Char) :
    trimEnd (cs ++ back) = trimEnd cs :=
  dropEndWhile_append h

theorem trimStart_eq_nil_iff {cs : List Char} :
    trimStart cs = [] ↔ ∀ c ∈ cs, isBlank c = true :=
  List.dropWhile_eq_nil_iff

theorem trim_append {front back : List Char} (hfront : ∀ c ∈ front, isBlank c = true)
    (hback : ∀ c ∈ back, isBlank c = true) (cs : List Char) :
    trim (front ++ cs ++ back) = trim cs := by
  rw [List.append_assoc, trim, trimStart_append hfront]
  by_cases hblank : trimStart cs = []
  · have hboth : trimStart (cs ++ back) = [] := by
      rw [trimStart_append (trimStart_eq_nil_iff.mp hblank), trimStart_eq_nil_iff]
      exact hback
    rw [hboth, trim, hblank]
  · have hsplit : trimStart (cs ++ back) = trimStart cs ++ back := by
      rw [trimStart, List.dropWhile_append]
      exact if_neg fun hempty => hblank (List.isEmpty_iff.mp hempty)
    rw [hsplit, trimEnd_append hback, trim]

theorem trim_of_blank {cs : List Char} (h : ∀ c ∈ cs, isBlank c = true) : trim cs = [] := by
  rw [trim, trimStart_eq_nil_iff.mpr h]
  rfl

theorem trim_eq_nil_iff {cs : List Char} : trim cs = [] ↔ allBlank cs = true := by
  rw [allBlank, List.all_eq_true]
  constructor
  · intro h
    obtain ⟨⟨tail, htail, hblank⟩, -⟩ := dropEndWhile_eq_iff.mp h
    rw [List.nil_append] at htail
    have hstart : trimStart (trimStart cs) = [] :=
      trimStart_eq_nil_iff.mpr fun c hc => hblank c (htail ▸ hc)
    rw [trimStart, trimStart, List.dropWhile_idempotent] at hstart
    exact trimStart_eq_nil_iff.mp hstart
  · exact trim_of_blank

theorem trim_of_not_blank {cs : List Char} (h : ∀ c ∈ cs, isBlank c = false) : trim cs = cs := by
  have hstart : trimStart cs = cs := by
    cases cs with
    | nil => rfl
    | cons c cs => exact List.dropWhile_cons_of_neg (by simp [h c List.mem_cons_self])
  rw [trim, hstart]
  exact dropEndWhile_of_getLast? fun c hc => h c (List.mem_of_getLast? hc)

theorem isBlank_of_isDigit {c : Char} (h : c.isDigit = true) : isBlank c = false := by
  have hbounds : 48 ≤ c.toNat ∧ c.toNat ≤ 57 := by
    simpa [Char.isDigit, UInt32.le_iff_toNat_le] using h
  simp only [isBlank, blankRanges, List.any_cons, List.any_nil, Bool.or_false, Bool.or_eq_false_iff,
    Bool.and_eq_false_iff, decide_eq_false_iff_not]
  omega

end GrpcStubs.Text
