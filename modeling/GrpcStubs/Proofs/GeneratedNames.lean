import GrpcStubs.Client
import GrpcStubs.Server
import GrpcStubs.Proofs.Casing
import Mathlib.Data.Option.Basic

set_option autoImplicit false

namespace GrpcStubs.Identifier

def lead? (name : String) : Option Char :=
  name.toList.find? (· != '_')

theorem ne_underscore_of_lead? {name : String} {c : Char} (h : c ∈ lead? name) : c ≠ '_' := by
  unfold lead? at h
  have hbne := List.find?_some h
  exact bne_iff_ne.mp hbne

theorem head?_camelChars (cs : List Char) :
    (camelChars true cs).head? = (cs.find? (· != '_')).map Char.toUpper := by
  induction cs with
  | nil => rfl
  | cons c cs ih =>
    by_cases hc : c = '_'
    · rw [camelChars, if_pos hc, ih, List.find?_cons_of_neg (by simp [hc])]
    · rw [camelChars, if_neg hc, if_pos rfl, List.head?_cons, List.find?_cons_of_pos (by simp [hc]),
        Option.map_some]

theorem head?_upperCamelCase (name : String) :
    (upperCamelCase name).toList.head? = (lead? name).map Char.toUpper := by
  rw [upperCamelCase, String.toList_ofList, head?_camelChars, lead?]

theorem head?_snakeCase (name : String) :
    (snakeCase name).toList.head? = name.toList.head?.map Char.toLower := by
  rw [snakeCase, String.toList_ofList]
  cases name.toList with
  | nil => rfl
  | cons c cs => simp [snakeChars]

theorem isStart_eq_isAlpha {c : Char} (h : c ≠ '_') : isStart c = c.isAlpha := by
  rw [isStart, beq_eq_false_iff_ne.mpr h, Bool.false_or]

theorem isAlpha_toUpper (c : Char) : c.toUpper.isAlpha = c.isAlpha := by
  rw [Bool.eq_iff_iff, isAlpha_iff, isAlpha_iff, isUpper_iff, isLower_iff, isUpper_iff, isLower_iff,
    toNat_toUpper]
  grind

theorem isAlpha_toLower (c : Char) : c.toLower.isAlpha = c.isAlpha := by
  rw [Bool.eq_iff_iff, isAlpha_iff, isAlpha_iff, isUpper_iff, isLower_iff, isUpper_iff, isLower_iff,
    toNat_toLower]
  grind

theorem toLower_toUpper (c : Char) : c.toUpper.toLower = c.toLower := by
  rw [← Char.toNat_inj, toNat_toLower, toNat_toUpper, toNat_toLower]
  grind

theorem isStart_toUpper_lead? {name : String} {c : Char} (h : c ∈ lead? name) :
    isStart c.toUpper = c.isAlpha := by
  rw [isStart_eq_isAlpha (toUpper_ne_underscore (ne_underscore_of_lead? h)),
    isAlpha_toUpper]

theorem isStart_toLower_lead? {name : String} {c : Char} (h : c ∈ lead? name) :
    isStart c.toLower = c.isAlpha := by
  rw [isStart_eq_isAlpha (toLower_ne_underscore (ne_underscore_of_lead? h)),
    isAlpha_toLower]

theorem isName_iff_head {cs : List Char} (hchars : ∀ c ∈ cs, isContinue c = true) :
    isName cs = true ↔ ∃ c ∈ cs.head?, isStart c = true := by
  cases cs with
  | nil => simp [isName]
  | cons c cs =>
    have hrest : cs.all isContinue = true := List.all_eq_true.mpr (List.forall_mem_cons.mp hchars).2
    simp [isName, hrest]

theorem isLegal_iff_head {text : String} (hchars : ∀ c ∈ text.toList, isContinue c = true)
    (hfree : isKeyword text = false) :
    IsLegal text ↔ ∃ c ∈ text.toList.head?, isStart c = true := by
  rw [← isName_iff_head hchars]
  constructor
  · rintro (⟨hword, _⟩ | ⟨keyword, _, _, rfl⟩)
    · exact isName_of_isWord hword
    · have hmark : isContinue '#' = true := hchars '#' (by simp)
      exact absurd hmark (by decide)
  · exact fun hname => isLegal_of_isName hname hfree

def itemSuffixes : List String :=
  ["Client", "Server", "_client", "_server"]

theorem keyword_not_suffixed : ∀ suffix ∈ itemSuffixes, ∀ keyword ∈ reserved,
    suffix.toList.isSuffixOf keyword.toList = false := by
  decide +kernel

theorem isKeyword_append {suffix : String} (h : suffix ∈ itemSuffixes) (text : String) :
    isKeyword (text ++ suffix) = false := by
  refine isKeyword_eq_false_iff.mpr fun hmem => ?_
  have hends : suffix.toList.isSuffixOf (text ++ suffix).toList = true := by
    rw [List.isSuffixOf_iff_suffix, String.toList_append]
    exact List.suffix_append _ _
  rw [keyword_not_suffixed suffix h _ hmem] at hends
  cases hends

theorem isName_itemSuffixes : ∀ suffix ∈ itemSuffixes, isName suffix.toList = true := by
  decide

theorem isLegal_append_iff {text suffix : String} (hchars : ∀ c ∈ text.toList, isContinue c = true)
    (hsuffix : suffix ∈ itemSuffixes) :
    IsLegal (text ++ suffix) ↔ ∀ c ∈ text.toList.head?, isStart c = true := by
  have hname := isName_itemSuffixes suffix hsuffix
  have hall : ∀ c ∈ (text ++ suffix).toList, isContinue c = true := by
    rw [String.toList_append]
    exact List.forall_mem_append.mpr ⟨hchars, mem_isName hname⟩
  rw [isLegal_iff_head hall (isKeyword_append hsuffix text), String.toList_append]
  cases text.toList with
  | nil =>
    -- the suffix is a name of its own
    have hstart := (isName_iff_head (mem_isName hname)).mp hname
    simpa using hstart
  | cons c cs => simp

end GrpcStubs.Identifier

namespace GrpcStubs.Service
open Identifier

theorem head?_ident (service : Service) :
    service.ident.toList.head? = (lead? service.name).map Char.toUpper := by
  rw [ident, escape_upperCamelCase, ← head?_upperCamelCase]
  split
  · rename_i hself
    rw [hself]
    decide
  · rfl

theorem head?_moduleStem (service : Service) :
    service.moduleStem.toList.head? = (lead? service.name).map Char.toLower := by
  rw [moduleStem, head?_snakeCase, head?_ident, Option.map_map]
  exact Option.map_congr fun c _ => toLower_toUpper c

theorem isKeyword_ident (service : Service) : isKeyword service.ident = false := by
  rw [ident, escape_upperCamelCase]
  split
  · decide
  · rename_i hself
    exact isKeyword_eq_false_iff.mpr (upperCamelCase_not_reserved hself)

section
variable {service : Service} (h : isName service.name.toList = true)
include h

theorem isContinue_ident : ∀ c ∈ service.ident.toList, isContinue c = true := by
  rw [ident, escape_upperCamelCase]
  split
  · exact List.all_eq_true.mp (by decide)
  · intro c hc
    exact (mem_upperCamelCase hc).elim (mem_isName h c) id

theorem isContinue_moduleStem : ∀ c ∈ service.moduleStem.toList, isContinue c = true :=
  fun c hc => (mem_snakeCase hc).elim (isContinue_ident h c) id

theorem isLegal_ident_iff :
    IsLegal service.ident ↔ ∃ c ∈ lead? service.name, c.isAlpha = true := by
  rw [isLegal_iff_head (isContinue_ident h) (isKeyword_ident service), head?_ident,
    Option.exists_mem_map]
  refine exists_congr fun c => and_congr_right fun hc => ?_
  rw [isStart_toUpper_lead? hc]

theorem isLegal_ident_append_iff {suffix : String} (hsuffix : suffix ∈ itemSuffixes) :
    IsLegal (service.ident ++ suffix) ↔ ∀ c ∈ lead? service.name, c.isAlpha = true := by
  rw [isLegal_append_iff (isContinue_ident h) hsuffix, head?_ident, Option.forall_mem_map]
  refine forall₂_congr fun c hc => ?_
  rw [isStart_toUpper_lead? hc]

theorem isLegal_moduleStem_append_iff {suffix : String} (hsuffix : suffix ∈ itemSuffixes) :
    IsLegal (service.moduleStem ++ suffix) ↔ ∀ c ∈ lead? service.name, c.isAlpha = true := by
  rw [isLegal_append_iff (isContinue_moduleStem h) hsuffix, head?_moduleStem, Option.forall_mem_map]
  refine forall₂_congr fun c hc => ?_
  rw [isStart_toLower_lead? hc]

end

end GrpcStubs.Service

namespace GrpcStubs
open Identifier

/-- A name always gives a legal function name. It gives a legal trait name exactly if a letter comes
    after the underscores at its start, and legal type and module names also if nothing does. -/
theorem generatedNames_isLegal_iff (name : String) (h : isName name.toList = true) :
    (∀ method : Method, method.name = name → IsLegal method.ident) ∧
    ∀ service : Service, service.name = name →
      (IsLegal service.ident ↔ ∃ c ∈ lead? name, c.isAlpha = true) ∧
      ∀ item ∈ [service.ident ++ "Client", service.ident ++ "Server", Client.moduleName service,
          Server.moduleName service],
        (IsLegal item ↔ ∀ c ∈ lead? name, c.isAlpha = true) := by
  constructor
  · rintro method rfl
    exact isLegal_escape (isName_snakeCase h)
  · rintro service rfl
    refine ⟨Service.isLegal_ident_iff h, ?_⟩
    rw [List.forall_mem_cons, List.forall_mem_cons, List.forall_mem_cons, List.forall_mem_singleton]
    exact ⟨Service.isLegal_ident_append_iff h (by decide),
      Service.isLegal_ident_append_iff h (by decide),
      Service.isLegal_moduleStem_append_iff h (by decide),
      Service.isLegal_moduleStem_append_iff h (by decide)⟩

/-- Names that become keywords when they are converted. -/
theorem generatedNames_isLegal_iff_keywords :
    let message : Message := .outermost "M" "a.proto"
    let method : Method := { name := "Type", input := message, output := message }
    let service : Service := { name := "_self", methods := [method] }
    isName method.name.toList = true ∧ isName service.name.toList = true ∧
      method.ident = "r#type" ∧ IsLegal method.ident ∧
      service.ident = "Self_" ∧ IsLegal service.ident ∧
      Client.moduleName service = "self__client" ∧ IsLegal (Client.moduleName service) := by
  intro message method service
  have hmethod : isName method.name.toList = true := by decide
  have hservice : isName service.name.toList = true := by decide
  have hlead : lead? "_self" = some 's' := by decide
  have hfunction := (generatedNames_isLegal_iff "Type" hmethod).1 method rfl
  obtain ⟨htrait, hothers⟩ := (generatedNames_isLegal_iff "_self" hservice).2 service rfl
  refine ⟨hmethod, hservice, by decide +kernel, hfunction, by decide +kernel,
    htrait.mpr ⟨'s', hlead, by decide⟩, by decide +kernel, ?_⟩
  refine (hothers _ (by simp)).mpr ?_
  rw [hlead]
  rintro c ⟨⟩
  decide

/-- After the underscore of `_1` comes a digit and after that of `_` nothing. -/
theorem generatedNames_not_legal :
    let digit : Service := { name := "_1" }
    let empty : Service := { name := "_" }
    isName digit.name.toList = true ∧ isName empty.name.toList = true ∧
      digit.ident = "1" ∧ Client.moduleName digit = "1_client" ∧
      (∀ name ∈ [digit.ident, digit.ident ++ "Client", digit.ident ++ "Server",
        Client.moduleName digit, Server.moduleName digit], ¬ IsLegal name) ∧
      empty.ident = "" ∧ ¬ IsLegal empty.ident := by
  decide +kernel

/-- The case conversions are idempotent, and camel case is recovered from its snake case. So modules
    of two services have the same name exactly if the traits do. -/
theorem caseConversions_invert :
    (∀ name, upperCamelCase (snakeCase (upperCamelCase name)) = upperCamelCase name) ∧
    (∀ name, upperCamelCase (upperCamelCase name) = upperCamelCase name) ∧
    (∀ name, snakeCase (snakeCase name) = snakeCase name) ∧
    ∀ service other : Service,
      (Client.moduleName service = Client.moduleName other ↔ service.ident = other.ident) ∧
      (Server.moduleName service = Server.moduleName other ↔ service.ident = other.ident) := by
  refine ⟨upperCamelCase_snakeCase, upperCamelCase_upperCamelCase, snakeCase_snakeCase, ?_⟩
  intro service other
  rw [← Service.moduleStem_eq_iff_ident]
  exact ⟨String.append_left_inj _, String.append_left_inj _⟩

end GrpcStubs
