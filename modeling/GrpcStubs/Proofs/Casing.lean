import GrpcStubs.Schema
import GrpcStubs.Proofs.Names
import Mathlib.Data.List.Basic

set_option autoImplicit false

namespace GrpcStubs.Identifier

theorem isUpper_toLower (c : Char) : c.toLower.isUpper = false := by
  rw [← Bool.not_eq_true, isUpper_iff, toNat_toLower]
  grind

theorem isLower_toUpper (c : Char) : c.toUpper.isLower = false := by
  rw [← Bool.not_eq_true, isLower_iff, toNat_toUpper]
  grind

theorem toLower_eq_self {c : Char} (h : c.isUpper = false) : c.toLower = c := by
  rw [← Bool.not_eq_true, isUpper_iff] at h
  rw [← Char.toNat_inj, toNat_toLower, if_neg h]

theorem toUpper_eq_self {c : Char} (h : c.isLower = false) : c.toUpper = c := by
  rw [← Bool.not_eq_true, isLower_iff] at h
  rw [← Char.toNat_inj, toNat_toUpper, if_neg h]

theorem isLower_of_isUpper {c : Char} (h : c.isUpper = true) : c.isLower = false := by
  rw [isUpper_iff] at h
  rw [← Bool.not_eq_true, isLower_iff]
  omega

theorem toUpper_toLower {c : Char} (h : c.isLower = false) : c.toLower.toUpper = c := by
  rw [← Bool.not_eq_true, isLower_iff] at h
  rw [← Char.toNat_inj, toNat_toUpper, toNat_toLower]
  grind

theorem toLower_ne_underscore {c : Char} (h : c ≠ '_') : c.toLower ≠ '_' := by
  intro heq
  rcases toLower_eq c with hsame | hlower
  · exact h (hsame.symm.trans heq)
  · rw [heq] at hlower
    cases hlower

theorem toUpper_ne_underscore {c : Char} (h : c ≠ '_') : c.toUpper ≠ '_' := by
  intro heq
  rcases toUpper_eq c with hsame | hupper
  · exact h (hsame.symm.trans heq)
  · rw [heq] at hupper
    cases hupper

theorem underscore_not_mem_camelChars (raised : Bool) (cs : List Char) :
    '_' ∉ camelChars raised cs := by
  induction cs generalizing raised with
  | nil => exact List.not_mem_nil
  | cons c cs ih =>
    rw [camelChars]
    split
    · exact ih true
    · rename_i hc
      refine List.not_mem_cons_of_ne_of_not_mem ?_ (ih false)
      cases raised with
      | true => exact (toUpper_ne_underscore hc).symm
      | false => exact Ne.symm hc

theorem isLower_head_camelChars (cs : List Char) :
    ∀ c ∈ (camelChars true cs).head?, c.isLower = false := by
  induction cs with
  | nil => exact fun c hc => by cases hc
  | cons d cs ih =>
    rw [camelChars]
    split
    · exact ih
    · rintro c ⟨⟩
      exact isLower_toUpper d

theorem camelChars_snakeChars {cs : List Char} (h : '_' ∉ cs) :
    camelChars false (snakeChars false cs) = cs := by
  induction cs with
  | nil => rfl
  | cons c cs ih =>
    obtain ⟨hc, hcs⟩ := List.ne_and_not_mem_of_not_mem_cons h
    have hlow : c.toLower ≠ '_' := toLower_ne_underscore hc.symm
    have hfree : (c == '_') = false := beq_eq_false_iff_ne.mpr hc.symm
    rw [snakeChars]
    cases hupper : c.isUpper with
    | true =>
      -- the underscore says that the next letter was a capital
      have hback := toUpper_toLower (isLower_of_isUpper hupper)
      simp [camelChars, hlow, hback, ih hcs]
    | false =>
      have hsame : c.toLower = c := toLower_eq_self hupper
      simp [camelChars, hsame, hc.symm, hfree, ih hcs]

theorem camelChars_snakeChars_start {cs : List Char} (h : '_' ∉ cs)
    (hhead : ∀ c ∈ cs.head?, c.isLower = false) : camelChars true (snakeChars true cs) = cs := by
  cases cs with
  | nil => rfl
  | cons c cs =>
    obtain ⟨hc, hcs⟩ := List.ne_and_not_mem_of_not_mem_cons h
    have hlow : c.toLower ≠ '_' := toLower_ne_underscore hc.symm
    have hfree : (c == '_') = false := beq_eq_false_iff_ne.mpr hc.symm
    have hback := toUpper_toLower (hhead c rfl)
    simp [snakeChars, camelChars, hlow, hback, hfree, camelChars_snakeChars hcs]

/-- Snake case keeps all of a name that is in upper camel case. -/
theorem upperCamelCase_snakeCase (name : String) :
    upperCamelCase (snakeCase (upperCamelCase name)) = upperCamelCase name := by
  have hback := camelChars_snakeChars_start (underscore_not_mem_camelChars true name.toList)
    (isLower_head_camelChars name.toList)
  rw [upperCamelCase, upperCamelCase, snakeCase, String.toList_ofList, String.toList_ofList, hback]

theorem camelChars_eq_self (raised : Bool) {cs : List Char} (h : '_' ∉ cs)
    (hhead : raised = true → ∀ c ∈ cs.head?, c.isLower = false) : camelChars raised cs = cs := by
  induction cs generalizing raised with
  | nil => rfl
  | cons c cs ih =>
    obtain ⟨hc, hcs⟩ := List.ne_and_not_mem_of_not_mem_cons h
    rw [camelChars, if_neg hc.symm, ih false hcs (by simp)]
    cases raised with
    | false => rfl
    | true =>
      have hsame : c.toUpper = c := toUpper_eq_self (hhead rfl c rfl)
      rw [if_pos rfl, hsame]

theorem upperCamelCase_upperCamelCase (name : String) :
    upperCamelCase (upperCamelCase name) = upperCamelCase name := by
  have hself := camelChars_eq_self true (underscore_not_mem_camelChars true name.toList)
    fun _ => isLower_head_camelChars name.toList
  rw [upperCamelCase, upperCamelCase, String.toList_ofList, hself]

theorem isUpper_of_mem_snakeChars {c : Char} {afterUnderscore : Bool} {cs : List Char}
    (h : c ∈ snakeChars afterUnderscore cs) : c.isUpper = false := by
  rcases mem_snakeChars h with rfl | ⟨d, _, rfl⟩
  · rfl
  · exact isUpper_toLower d

theorem snakeChars_eq_self (afterUnderscore : Bool) {cs : List Char}
    (h : ∀ c ∈ cs, c.isUpper = false) : snakeChars afterUnderscore cs = cs := by
  induction cs generalizing afterUnderscore with
  | nil => rfl
  | cons c cs ih =>
    obtain ⟨hc, hcs⟩ := List.forall_mem_cons.mp h
    have hsame : c.toLower = c := toLower_eq_self hc
    rw [snakeChars, hc, Bool.false_and, if_neg Bool.false_ne_true, hsame, ih _ hcs]

theorem snakeCase_snakeCase (name : String) : snakeCase (snakeCase name) = snakeCase name := by
  have hlower : ∀ c ∈ snakeChars true name.toList, c.isUpper = false :=
    fun _ => isUpper_of_mem_snakeChars
  rw [snakeCase, snakeCase, String.toList_ofList, snakeChars_eq_self true hlower]

theorem keyword_not_camel : ∀ keyword ∈ reserved, keyword ≠ "Self" →
    '_' ∈ keyword.toList ∨ keyword.toList.head?.any Char.isLower = true := by
  decide +kernel

theorem upperCamelCase_not_reserved {name : String} (h : upperCamelCase name ≠ "Self") :
    upperCamelCase name ∉ reserved := by
  intro hmem
  rcases keyword_not_camel _ hmem h with hunder | hhead
  · rw [upperCamelCase, String.toList_ofList] at hunder
    exact underscore_not_mem_camelChars _ _ hunder
  · rw [upperCamelCase, String.toList_ofList, Option.any_eq_true] at hhead
    obtain ⟨c, hc, hlower⟩ := hhead
    rw [isLower_head_camelChars _ c hc] at hlower
    cases hlower

/-- The only name in upper camel case that is escaped is `Self`. -/
theorem escape_upperCamelCase (name : String) :
    escape (upperCamelCase name) =
      if upperCamelCase name = "Self" then "Self_" else upperCamelCase name := by
  split
  · rename_i hself
    rw [hself]
    rfl
  · rename_i hself
    have hfree := upperCamelCase_not_reserved hself
    rw [reserved_perm.mem_iff, List.mem_append, not_or] at hfree
    rw [escape, if_neg (by simpa using hfree.2), if_neg (by simpa using hfree.1)]

end GrpcStubs.Identifier

namespace GrpcStubs.Service
open Identifier

theorem upperCamelCase_moduleStem (service : Service) :
    upperCamelCase service.moduleStem = upperCamelCase service.name := by
  rw [moduleStem, ident, escape_upperCamelCase]
  split
  · rename_i hself
    rw [hself]
    decide +kernel
  · exact upperCamelCase_snakeCase service.name

theorem moduleStem_eq_iff {service other : Service} :
    service.moduleStem = other.moduleStem ↔
      upperCamelCase service.name = upperCamelCase other.name := by
  constructor
  · intro h
    rw [← upperCamelCase_moduleStem service, ← upperCamelCase_moduleStem other, h]
  · intro h
    rw [moduleStem, moduleStem, ident, ident, h]

theorem moduleStem_eq_iff_ident {service other : Service} :
    service.moduleStem = other.moduleStem ↔ service.ident = other.ident := by
  constructor
  · intro h
    rw [ident, ident, moduleStem_eq_iff.mp h]
  · intro h
    rw [moduleStem, moduleStem, h]

end GrpcStubs.Service
