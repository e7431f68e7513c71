import GrpcStubs.Identifier

set_option autoImplicit false

namespace GrpcStubs.Identifier

-- Letters by their code points: the library has lemmas on ASCII case, but no module short of the
-- whole of it brings them in.
theorem isUpper_iff {c : Char} : c.isUpper = true ↔ 65 ≤ c.toNat ∧ c.toNat ≤ 90 := by
  change decide (65 ≤ c.val ∧ c.val ≤ 90) = true ↔ _
  rw [decide_eq_true_iff, UInt32.le_iff_toNat_le, UInt32.le_iff_toNat_le]
  rfl

theorem isLower_iff {c : Char} : c.isLower = true ↔ 97 ≤ c.toNat ∧ c.toNat ≤ 122 := by
  change (decide (97 ≤ c.val) && decide (c.val ≤ 122)) = true ↔ _
  rw [Bool.and_eq_true, decide_eq_true_iff, decide_eq_true_iff, UInt32.le_iff_toNat_le,
    UInt32.le_iff_toNat_le]
  rfl

theorem isAlpha_iff {c : Char} : c.isAlpha = true ↔ c.isUpper = true ∨ c.isLower = true :=
  Bool.or_eq_true_iff

theorem toNat_toLower (c : Char) :
    c.toLower.toNat = if 65 ≤ c.toNat ∧ c.toNat ≤ 90 then c.toNat + 32 else c.toNat := by
  unfold Char.toLower
  split
  · rename_i h
    have hlow : 65 ≤ c.toNat := UInt32.le_iff_toNat_le.mp h.1
    have hhigh : c.toNat ≤ 90 := UInt32.le_iff_toNat_le.mp h.2
    rw [if_pos ⟨hlow, hhigh⟩]
    change (c.toNat + 32) % 4294967296 = _
    omega
  · rename_i h
    rw [if_neg fun hc => h ⟨UInt32.le_iff_toNat_le.mpr hc.1, UInt32.le_iff_toNat_le.mpr hc.2⟩]

theorem toNat_toUpper (c : Char) :
    c.toUpper.toNat = if 97 ≤ c.toNat ∧ c.toNat ≤ 122 then c.toNat - 32 else c.toNat := by
  unfold Char.toUpper
  split
  · rename_i h
    have hlow : 97 ≤ c.toNat := UInt32.le_iff_toNat_le.mp h.1
    have hhigh : c.toNat ≤ 122 := UInt32.le_iff_toNat_le.mp h.2
    have hshift : (c.val + ('A'.val - 'a'.val)).toNat = (c.toNat + 4294967264) % 4294967296 :=
      UInt32.toNat_add _ _
    rw [if_pos ⟨hlow, hhigh⟩]
    refine hshift.trans ?_
    omega
  · rename_i h
    rw [if_neg fun hc => h ⟨UInt32.le_iff_toNat_le.mpr hc.1, UInt32.le_iff_toNat_le.mpr hc.2⟩]

theorem toLower_eq (c : Char) : c.toLower = c ∨ c.toLower.isLower = true := by
  rw [isLower_iff, ← Char.toNat_inj, toNat_toLower]
  grind

theorem toUpper_eq (c : Char) : c.toUpper = c ∨ c.toUpper.isUpper = true := by
  rw [isUpper_iff, ← Char.toNat_inj, toNat_toUpper]
  grind

theorem mem_snakeChars {c : Char} {afterUnderscore : Bool} {cs : List Char}
    (h : c ∈ snakeChars afterUnderscore cs) : c = '_' ∨ ∃ d ∈ cs, c = d.toLower := by
  induction cs generalizing afterUnderscore with
  | nil => exact absurd h List.not_mem_nil
  | cons d cs ih =>
    have hrest : ∀ after, c ∈ snakeChars after cs → c = '_' ∨ ∃ e ∈ d :: cs, c = e.toLower := by
      intro after hmem
      refine (ih hmem).imp_right ?_
      rintro ⟨e, he, heq⟩
      exact ⟨e, List.mem_cons_of_mem d he, heq⟩
    rw [snakeChars] at h
    split at h
    · rcases List.mem_cons.mp h with rfl | h
      · exact .inl rfl
      · rcases List.mem_cons.mp h with rfl | h
        · exact .inr ⟨d, List.mem_cons_self, rfl⟩
        · exact hrest _ h
    · rcases List.mem_cons.mp h with rfl | h
      · exact .inr ⟨d, List.mem_cons_self, rfl⟩
      · exact hrest _ h

theorem mem_camelChars {c : Char} {raised : Bool} {cs : List Char}
    (h : c ∈ camelChars raised cs) : ∃ d ∈ cs, c = d ∨ c = d.toUpper := by
  induction cs generalizing raised with
  | nil => exact absurd h List.not_mem_nil
  | cons d cs ih =>
    have hrest : ∀ next, c ∈ camelChars next cs → ∃ e ∈ d :: cs, c = e ∨ c = e.toUpper := by
      intro next hmem
      obtain ⟨e, he, heq⟩ := ih hmem
      exact ⟨e, List.mem_cons_of_mem d he, heq⟩
    rw [camelChars] at h
    split at h
    · exact hrest _ h
    · rcases List.mem_cons.mp h with h | h
      · refine ⟨d, List.mem_cons_self, ?_⟩
        split at h
        · exact .inr h
        · exact .inl h
      · exact hrest _ h

theorem mem_escape {c : Char} {name : String} (h : c ∈ (escape name).toList) :
    c ∈ name.toList ∨ c = '_' ∨ c = 'r' ∨ c = '#' := by
  unfold escape at h
  split at h
  · rw [String.toList_append, List.mem_append] at h
    exact h.imp_right fun hc => .inl (by simpa using hc)
  · split at h
    · rw [String.toList_append, List.mem_append] at h
      exact h.symm.imp_right fun hc => .inr (by simpa using hc)
    · exact .inl h

/-- A name as schemas have them: an ASCII letter or underscore followed by letters, digits and
    underscores. -/
def isName : List Char → Bool
  | [] => false
  | c :: cs => isStart c && cs.all isContinue

theorem isContinue_of_isStart {c : Char} (h : isStart c = true) : isContinue c = true := by
  rw [isStart, Bool.or_eq_true] at h
  rw [isContinue, Bool.or_eq_true]
  exact h.imp_right fun halpha => (Bool.or_eq_true _ _).mpr (.inl halpha)

theorem isAlpha_of_isLower {c : Char} (h : c.isLower = true) : c.isAlpha = true :=
  (Bool.or_eq_true _ _).mpr (.inr h)

theorem isContinue_of_isAlpha {c : Char} (h : c.isAlpha = true) : isContinue c = true :=
  isContinue_of_isStart ((Bool.or_eq_true _ _).mpr (.inr h))

theorem isStart_toLower {c : Char} (h : isStart c = true) : isStart c.toLower = true := by
  rcases toLower_eq c with heq | hlower
  · rw [heq]
    exact h
  · exact (Bool.or_eq_true _ _).mpr (.inr (isAlpha_of_isLower hlower))

theorem isContinue_toLower {c : Char} (h : isContinue c = true) : isContinue c.toLower = true := by
  rcases toLower_eq c with heq | hlower
  · rw [heq]
    exact h
  · exact isContinue_of_isAlpha (isAlpha_of_isLower hlower)

theorem mem_snakeCase {c : Char} {name : String} (h : c ∈ (snakeCase name).toList) :
    c ∈ name.toList ∨ isContinue c = true := by
  rw [snakeCase, String.toList_ofList] at h
  rcases mem_snakeChars h with rfl | ⟨d, hd, rfl⟩
  · exact .inr rfl
  · rcases toLower_eq d with heq | hlower
    · exact .inl (heq.symm ▸ hd)
    · exact .inr (isContinue_of_isAlpha (isAlpha_of_isLower hlower))

theorem mem_upperCamelCase {c : Char} {name : String} (h : c ∈ (upperCamelCase name).toList) :
    c ∈ name.toList ∨ isContinue c = true := by
  rw [upperCamelCase, String.toList_ofList] at h
  obtain ⟨d, hd, rfl | rfl⟩ := mem_camelChars h
  · exact .inl hd
  · rcases toUpper_eq d with heq | hupper
    · exact .inl (heq.symm ▸ hd)
    · exact .inr (isContinue_of_isAlpha ((Bool.or_eq_true _ _).mpr (.inl hupper)))

theorem mem_isName {cs : List Char} (h : isName cs = true) : ∀ c ∈ cs, isContinue c = true := by
  cases cs with
  | nil => exact fun c hc => absurd hc List.not_mem_nil
  | cons d cs =>
    rw [isName, Bool.and_eq_true, List.all_eq_true] at h
    exact List.forall_mem_cons.mpr ⟨isContinue_of_isStart h.1, h.2⟩

theorem isName_snakeCase {name : String} (h : isName name.toList = true) :
    isName (snakeCase name).toList = true := by
  rw [snakeCase, String.toList_ofList]
  -- The first character is never preceded by an underscore, so it stays the first.
  have hcontinue : ∀ after cs, (∀ c ∈ cs, isContinue c = true) →
      ∀ c ∈ snakeChars after cs, isContinue c = true := by
    intro after cs hcs c hc
    rcases mem_snakeChars hc with rfl | ⟨d, hd, rfl⟩
    · rfl
    · exact isContinue_toLower (hcs d hd)
  cases hname : name.toList with
  | nil => rw [hname] at h; cases h
  | cons c cs =>
    rw [hname, isName, Bool.and_eq_true, List.all_eq_true] at h
    rw [snakeChars, Bool.not_true, Bool.and_false, if_neg Bool.false_ne_true, isName,
      Bool.and_eq_true, List.all_eq_true]
    exact ⟨isStart_toLower h.1, hcontinue _ cs h.2⟩

theorem isName_of_isWord {cs : List Char} (h : isWord cs = true) : isName cs = true := by
  cases cs with
  | nil => cases h
  | cons c cs =>
    rw [isWord, Bool.and_eq_true] at h
    exact h.1

theorem isWord_of_isName {cs : List Char} (h : isName cs = true) (hne : cs ≠ ['_']) :
    isWord cs = true := by
  cases cs with
  | nil => cases h
  | cons c cs =>
    rw [isWord, Bool.and_eq_true, bne_iff_ne]
    exact ⟨h, hne⟩

/-- The words that the language has a use for or keeps for one, and the underscore. -/
def reserved : List String :=
  ["as", "async", "await", "break", "const", "continue", "crate", "dyn", "else", "enum", "extern",
   "false", "fn", "for", "if", "impl", "in", "let", "loop", "match", "mod", "move", "mut", "pub",
   "ref", "return", "self", "Self", "static", "struct", "super", "trait", "true", "type", "unsafe",
   "use", "where", "while"] ++
  ["abstract", "become", "box", "do", "final", "gen", "macro", "override", "priv", "try", "typeof",
   "unsized", "virtual", "yield"] ++
  ["_"]

theorem reserved_perm : reserved.Perm (rawKeywords ++ plainKeywords) := by
  decide +kernel

theorem isKeyword_eq_false_iff {word : String} : isKeyword word = false ↔ word ∉ reserved := by
  rw [reserved_perm.mem_iff, isKeyword, Bool.or_eq_false_iff, List.mem_append, not_or]
  simp only [List.contains_eq_mem, decide_eq_false_iff_not]

theorem rawKeywords_apart :
    ∀ word ∈ rawKeywords, word ∉ ["crate", "self", "super", "Self", "_"] := by
  decide +kernel

theorem mem_rawKeywords_iff {word : String} :
    word ∈ rawKeywords ↔ word ∈ reserved ∧ word ∉ ["crate", "self", "super", "Self", "_"] := by
  have hplain : plainKeywords ⊆ ["crate", "self", "super", "Self", "_"] := by decide
  rw [reserved_perm.mem_iff, List.mem_append]
  constructor
  · exact fun hraw => ⟨.inl hraw, rawKeywords_apart word hraw⟩
  · exact fun h => h.1.resolve_right fun hmem => h.2 (hplain hmem)

theorem isWritten_of_isWord {cs : List Char} (h : isWord cs = true)
    (hk : isKeyword (.ofList cs) = false) : isWritten cs = true := by
  unfold isWritten
  split
  · rename_i word
    simp [isWord, isContinue] at h
  · rw [h, hk]
    rfl

theorem isWritten_raw : ∀ name ∈ rawKeywords, isWritten ("r#" ++ name).toList = true := by
  decide +kernel

/-- A name that can be declared: a word that is not reserved, or the raw form of a reserved word
    that has one. -/
def IsLegal (text : String) : Prop :=
  (isWord text.toList = true ∧ text ∉ reserved) ∨
    ∃ keyword ∈ reserved, keyword ∉ ["crate", "self", "super", "Self", "_"] ∧ text = "r#" ++ keyword

instance : DecidablePred IsLegal :=
  fun _ => inferInstanceAs (Decidable (_ ∨ _))

theorem IsLegal.isWritten {text : String} (h : IsLegal text) : isWritten text.toList = true := by
  rcases h with ⟨hword, hfree⟩ | ⟨keyword, hkeyword, hraw, rfl⟩
  · refine isWritten_of_isWord hword ?_
    rw [String.ofList_toList]
    exact isKeyword_eq_false_iff.mpr hfree
  · exact isWritten_raw keyword (mem_rawKeywords_iff.mpr ⟨hkeyword, hraw⟩)

theorem isLegal_plain : ∀ name ∈ plainKeywords, IsLegal (name ++ "_") := by
  decide +kernel

/-- A name that is no keyword is legal: the underscore alone counts as one. -/
theorem isLegal_of_isName {name : String} (h : isName name.toList = true)
    (hfree : isKeyword name = false) : IsLegal name := by
  refine .inl ⟨isWord_of_isName h fun heq => ?_, isKeyword_eq_false_iff.mp hfree⟩
  rw [String.toList_inj.mp (heq.trans (String.toList_ofList ..).symm)] at hfree
  exact absurd hfree (by decide)

theorem isLegal_escape {name : String} (h : isName name.toList = true) : IsLegal (escape name) := by
  unfold escape
  split
  · rename_i hplain
    exact isLegal_plain name (List.contains_iff_mem.mp hplain)
  · rename_i hplain
    split
    · rename_i hraw
      obtain ⟨hkeyword, hapart⟩ := mem_rawKeywords_iff.mp (List.contains_iff_mem.mp hraw)
      exact .inr ⟨name, hkeyword, hapart, rfl⟩
    · rename_i hraw
      refine isLegal_of_isName h ?_
      rw [isKeyword, Bool.or_eq_false_iff]
      exact ⟨Bool.eq_false_iff.mpr hraw, Bool.eq_false_iff.mpr hplain⟩

theorem isWritten_escape {name : String} (h : isName name.toList = true) :
    isWritten (escape name).toList = true :=
  (isLegal_escape h).isWritten

end GrpcStubs.Identifier
