import GrpcStubs.Proofs.ModulePath

set_option autoImplicit false

namespace GrpcStubs.Text

def trimmed (text : String) : String :=
  .ofList (trim text.toList)

end GrpcStubs.Text

namespace GrpcStubs.Identifier

/-- An ASCII letter or underscore with letters, digits and underscores behind it, other than the
    underscore alone. -/
structure Word (word : String) : Prop where
  shape : ∃ c cs, word.toList = c :: cs ∧ (c.isAlpha = true ∨ c = '_') ∧
    ∀ d ∈ cs, d.isAlphanum = true ∨ d = '_'
  ne_underscore : word ≠ "_"

/-- An identifier: a word that is not reserved, or the raw form of a word that has one. -/
inductive InPath : String → Prop where
  | plain {word : String} (shape : Word word) (free : word ∉ reserved) :
    InPath word
  | raw {word : String} (shape : Word word) (free : word ∉ ["self", "super", "crate", "Self"]) :
    InPath ("r#" ++ word)

theorem isStart_iff {c : Char} : isStart c = true ↔ c.isAlpha = true ∨ c = '_' := by
  rw [isStart, Bool.or_eq_true, beq_iff_eq, or_comm]

theorem isContinue_iff {c : Char} : isContinue c = true ↔ c.isAlphanum = true ∨ c = '_' := by
  rw [isContinue, Bool.or_eq_true, beq_iff_eq, or_comm]

theorem isWord_iff {word : String} : isWord word.toList = true ↔ Word word := by
  have hunderscore : word.toList = ['_'] ↔ word = "_" := by
    rw [← String.toList_inj]
    rfl
  cases hchars : word.toList with
  | nil =>
    refine iff_of_false (by simp [isWord]) ?_
    rintro ⟨⟨c, cs, hshape, -⟩, -⟩
    rw [hchars] at hshape
    cases hshape
  | cons c cs =>
    rw [isWord, Bool.and_eq_true, Bool.and_eq_true, bne_iff_ne, List.all_eq_true, isStart_iff,
      ← hchars, ne_eq, hunderscore]
    simp only [isContinue_iff]
    constructor
    · rintro ⟨⟨hstart, hcontinue⟩, hne⟩
      exact ⟨⟨c, cs, hchars, hstart, hcontinue⟩, hne⟩
    · rintro ⟨⟨d, ds, hshape, hstart, hcontinue⟩, hne⟩
      obtain ⟨rfl, rfl⟩ := List.cons.inj (hchars.symm.trans hshape)
      exact ⟨⟨hstart, hcontinue⟩, hne⟩

theorem toList_raw (word : String) : ("r#" ++ word).toList = 'r' :: '#' :: word.toList :=
  String.toList_append

theorem isWritten_iff {segment : String} : isWritten segment.toList = true ↔ InPath segment := by
  constructor
  · intro h
    unfold isWritten at h
    split at h
    · rename_i cs hraw
      rw [Bool.and_eq_true, Bool.not_eq_true', List.contains_eq_mem, decide_eq_false_iff_not] at h
      have hsegment : segment = "r#" ++ String.ofList cs := by
        rw [← String.toList_inj, toList_raw, String.toList_ofList, hraw]
      rw [hsegment]
      exact .raw (isWord_iff.mp (by rw [String.toList_ofList]; exact h.1)) h.2
    · rw [Bool.and_eq_true, Bool.not_eq_true', String.ofList_toList] at h
      exact .plain (isWord_iff.mp h.1) (isKeyword_eq_false_iff.mp h.2)
  · intro h
    cases h with
    | plain shape free =>
      refine isWritten_of_isWord (isWord_iff.mpr shape) ?_
      rw [String.ofList_toList]
      exact isKeyword_eq_false_iff.mpr free
    | @raw word shape free =>
      have hkeyword : pathKeywords.contains word = false := by
        rw [List.contains_eq_mem, decide_eq_false_iff_not]
        exact free
      rw [toList_raw, isWritten, isWord_iff.mpr shape, String.ofList_toList, hkeyword]
      rfl

end GrpcStubs.Identifier

namespace GrpcStubs.Path
open Text Identifier

structure AreNames (segments : List String) : Prop where
  nonempty : segments ≠ []
  identifiers : ∀ name ∈ segments, InPath name

/-- The segments of a relative path. It may start with the keyword for the crate or for the module
    itself, then goes up any number of modules and last down by identifiers. -/
structure AreRelative (segments : List String) : Prop where
  nonempty : segments ≠ []
  parts : ∃ start height names, segments = start ++ List.replicate height "super" ++ names ∧
    (start = [] ∨ start = ["crate"] ∨ start = ["self"]) ∧ ∀ name ∈ names, InPath name

/-- The texts that are paths of modules. -/
inductive Spells : String → Path → Prop where
  | absolute {segments : List String} (names : AreNames segments) :
    Spells ("::" ++ "::".intercalate segments) ⟨true, segments⟩
  | relative {segments : List String} (parts : AreRelative segments) :
    Spells ("::".intercalate segments) ⟨false, segments⟩

theorem checkSegments_cons_iff {leading atStart : Bool} {segment : String}
    {rest : List (List Char)} :
    checkSegments leading atStart (segment.toList :: rest) = .ok () ↔
      (leading = true ∧ segment ∈ leadingKeywords atStart ∧ checkSegments true false rest = .ok ()) ∨
        (InPath segment ∧ checkSegments false false rest = .ok ()) := by
  constructor
  · intro h
    have hcases := checkSegments_cons h
    rwa [String.ofList_toList, isWritten_iff] at hcases
  · rintro (⟨rfl, hkeyword, hrest⟩ | ⟨hname, hrest⟩)
    · have hne : segment.toList.isEmpty = false := by
        have hall : ∀ atStart, ∀ keyword ∈ leadingKeywords atStart,
            keyword.toList.isEmpty = false := by decide
        exact hall atStart segment hkeyword
      rw [checkSegments, hne, String.ofList_toList, List.contains_iff_mem.mpr hkeyword]
      exact hrest
    · have hwritten := isWritten_iff.mpr hname
      have hne : segment.toList.isEmpty = false :=
        List.isEmpty_eq_false_iff.mpr (isSegment_of_isWritten hwritten).ne_empty
      have hkeyword : (leadingKeywords atStart).contains segment = false := by
        have hsubset : ∀ atStart, ∀ keyword ∈ leadingKeywords atStart,
            keyword ∈ ["super", "self", "crate"] := by decide
        rw [List.contains_eq_mem, decide_eq_false_iff_not]
        exact fun hmem => ne_keyword_of_isWritten hwritten (hsubset atStart segment hmem)
      rw [checkSegments, hne, String.ofList_toList, hkeyword, Bool.and_false, hwritten]
      exact hrest

theorem checkSegments_names_iff {atStart : Bool} {segments : List String} :
    checkSegments false atStart (segments.map String.toList) = .ok () ↔
      ∀ name ∈ segments, InPath name := by
  induction segments generalizing atStart with
  | nil => exact iff_of_true rfl fun name hname => absurd hname List.not_mem_nil
  | cons segment rest ih =>
    rw [List.map_cons, checkSegments_cons_iff, ih, List.forall_mem_cons]
    simp

theorem checkSegments_supers_iff {segments : List String} :
    checkSegments true false (segments.map String.toList) = .ok () ↔
      ∃ height names, segments = List.replicate height "super" ++ names ∧
        ∀ name ∈ names, InPath name := by
  induction segments with
  | nil => exact iff_of_true rfl ⟨0, [], rfl, fun name hname => absurd hname List.not_mem_nil⟩
  | cons segment rest ih =>
    rw [List.map_cons, checkSegments_cons_iff, ih, checkSegments_names_iff]
    constructor
    · rintro (⟨-, hsuper, height, names, rfl, hnames⟩ | ⟨hname, hrest⟩)
      · obtain rfl : segment = "super" := by simpa [leadingKeywords] using hsuper
        exact ⟨height + 1, names, rfl, hnames⟩
      · exact ⟨0, segment :: rest, rfl, List.forall_mem_cons.mpr ⟨hname, hrest⟩⟩
    · rintro ⟨height, names, hsplit, hnames⟩
      cases height with
      | zero =>
        obtain rfl : segment :: rest = names := hsplit
        exact .inr (List.forall_mem_cons.mp hnames)
      | succ height =>
        obtain ⟨rfl, rfl⟩ := List.cons.inj hsplit
        exact .inl ⟨rfl, List.mem_singleton_self _, height, names, rfl, hnames⟩

theorem checkSegments_relative_iff {segments : List String} (hne : segments ≠ []) :
    checkSegments true true (segments.map String.toList) = .ok () ↔ AreRelative segments := by
  cases segments with
  | nil => exact absurd rfl hne
  | cons segment rest =>
    rw [List.map_cons, checkSegments_cons_iff, checkSegments_supers_iff, checkSegments_names_iff]
    constructor
    · rintro (⟨-, hkeyword, height, names, rfl, hnames⟩ | ⟨hname, hrest⟩)
      · have hkeywords : segment = "crate" ∨ segment = "self" ∨ segment = "super" := by
          simpa [leadingKeywords] using hkeyword
        refine ⟨hne, ?_⟩
        rcases hkeywords with rfl | rfl | rfl
        · exact ⟨["crate"], height, names, rfl, .inr (.inl rfl), hnames⟩
        · exact ⟨["self"], height, names, rfl, .inr (.inr rfl), hnames⟩
        · exact ⟨[], height + 1, names, rfl, .inl rfl, hnames⟩
      · exact ⟨hne, [], 0, segment :: rest, rfl, .inl rfl,
          List.forall_mem_cons.mpr ⟨hname, hrest⟩⟩
    · rintro ⟨-, start, height, names, hsplit, hstart, hnames⟩
      rcases hstart with rfl | rfl | rfl
      · -- Without a start the first segment is the first of the others.
        have hsupers := checkSegments_supers_iff.mpr ⟨height, names, hsplit, hnames⟩
        rw [List.map_cons, checkSegments_cons_iff, checkSegments_supers_iff,
          checkSegments_names_iff] at hsupers
        refine hsupers.imp_left ?_
        rintro ⟨hleading, hsuper, hrest⟩
        obtain rfl : segment = "super" := by simpa [leadingKeywords] using hsuper
        exact ⟨hleading, by decide, hrest⟩
      · obtain ⟨rfl, rfl⟩ := List.cons.inj hsplit
        exact .inl ⟨rfl, by decide, height, names, rfl, hnames⟩
      · obtain ⟨rfl, rfl⟩ := List.cons.inj hsplit
        exact .inl ⟨rfl, by decide, height, names, rfl, hnames⟩

theorem intercalate_splitSegments (text : List Char) :
    [':', ':'].intercalate (splitSegments text) = text := by
  fun_induction splitSegments text with
  | case1 => rfl
  | case2 cs ih =>
    cases hsplit : splitSegments cs with
    | nil => exact absurd hsplit (splitSegments_ne_nil cs)
    | cons first rest =>
      rw [hsplit] at ih
      rw [List.intercalate_cons_cons, ih]
      rfl
  | case3 c cs _ ih => rw [intercalate_consFirst c _ (splitSegments_ne_nil cs), ih]

theorem Spells.render_eq {text : String} {path : Path} (h : Spells text path) :
    path.render = text := by
  cases h with
  | absolute _ => rfl
  | relative _ => exact String.empty_append

theorem map_toList_ofList (rows : List (List Char)) :
    (rows.map String.ofList).map String.toList = rows := by
  rw [List.map_map]
  exact (List.map_congr_left fun row _ => String.toList_ofList).trans (List.map_id _)

theorem AreRelative.isSegment {segments : List String} (h : AreRelative segments) :
    ∀ segment ∈ segments, IsSegment segment := by
  obtain ⟨-, start, height, names, rfl, hstart, hnames⟩ := h
  refine List.forall_mem_append.mpr ⟨List.forall_mem_append.mpr ⟨?_, ?_⟩, ?_⟩
  · rcases hstart with rfl | rfl | rfl
    · exact fun segment hs => absurd hs List.not_mem_nil
    · exact List.forall_mem_singleton.mpr (isSegment_of_all rfl rfl)
    · exact List.forall_mem_singleton.mpr (isSegment_of_all rfl rfl)
  · exact fun segment hs => IsLater.isSegment (.inl (List.eq_of_mem_replicate hs))
  · exact fun name hname => isSegment_of_isWritten (isWritten_iff.mpr (hnames name hname))

theorem ofRelative_intercalate {isGlobal : Bool} {segments : List String} (hne : segments ≠ [])
    (hsegments : ∀ segment ∈ segments, IsSegment segment)
    (hcheck : checkSegments (!isGlobal) true (segments.map String.toList) = .ok ()) :
    ofRelative isGlobal ([':', ':'].intercalate (segments.map String.toList)) =
      .ok ⟨isGlobal, segments⟩ := by
  rw [ofRelative_eq_ok_iff, splitSegments_join hne hsegments, map_ofList_toList]
  exact ⟨hcheck, rfl⟩

theorem intercalate_segments (cs : List Char) :
    "::".intercalate ((splitSegments cs).map String.ofList) = String.ofList cs := by
  rw [← String.toList_inj, String.toList_intercalate, map_toList_ofList]
  exact (intercalate_splitSegments cs).trans String.toList_ofList.symm

theorem spells_of_ofText? {text : String} {path : Path} (h : ofText? text.toList = .ok path) :
    Spells text path := by
  have hne : ∀ cs, (splitSegments cs).map String.ofList ≠ [] := fun cs hnil =>
    splitSegments_ne_nil cs (List.map_eq_nil_iff.mp hnil)
  unfold ofText? at h
  split at h
  · rename_i rest hstart
    obtain ⟨hcheck, rfl⟩ := ofRelative_eq_ok_iff.mp h
    rw [← map_toList_ofList (splitSegments rest), Bool.not_true, checkSegments_names_iff] at hcheck
    have htext : text = "::" ++ "::".intercalate ((splitSegments rest).map String.ofList) := by
      rw [intercalate_segments, ← String.toList_inj, String.toList_append,
        String.toList_ofList (l := rest)]
      exact afterStart_eq_some_iff.mp hstart
    rw [htext]
    exact .absolute ⟨hne rest, hcheck⟩
  · obtain ⟨hcheck, rfl⟩ := ofRelative_eq_ok_iff.mp h
    rw [← map_toList_ofList (splitSegments text.toList), Bool.not_false,
      checkSegments_relative_iff (hne _)] at hcheck
    have hspells := Spells.relative hcheck
    rwa [intercalate_segments, String.ofList_toList] at hspells

theorem Spells.ofText?_eq {text : String} {path : Path} (h : Spells text path) :
    ofText? text.toList = .ok path := by
  cases h with
  | @absolute segments names =>
    have hsegments : ∀ segment ∈ segments, IsSegment segment := fun segment hs =>
      isSegment_of_isWritten (isWritten_iff.mpr (names.identifiers segment hs))
    have htext : ("::" ++ "::".intercalate segments).toList =
        [':', ':'] ++ [':', ':'].intercalate (segments.map String.toList) := by
      rw [String.toList_append, String.toList_intercalate]
      rfl
    rw [ofText?, htext, afterStart_append]
    exact ofRelative_intercalate names.nonempty hsegments
      (checkSegments_names_iff.mpr names.identifiers)
  | @relative segments parts =>
    have htext : ("::".intercalate segments).toList =
        [':', ':'].intercalate (segments.map String.toList) := String.toList_intercalate
    rw [ofText?, htext, afterStart_join parts.nonempty parts.isSegment]
    exact ofRelative_intercalate parts.nonempty parts.isSegment
      ((checkSegments_relative_iff parts.nonempty).mpr parts)

theorem ofText?_eq_ok_iff {text : String} {path : Path} :
    ofText? text.toList = .ok path ↔ Spells text path :=
  ⟨spells_of_ofText?, Spells.ofText?_eq⟩

end GrpcStubs.Path

namespace GrpcStubs.Options
open Text

def NamesModule (text : String) (path : Path) : Prop :=
  (text = "" ∧ path = .current) ∨ Path.Spells text path

theorem trimmed_eq_empty_iff {value : String} : trimmed value = "" ↔ trim value.toList = [] := by
  rw [trimmed, ← String.toList_inj, String.toList_ofList, String.toList_empty]

theorem not_spells_empty (path : Path) : ¬ Path.Spells "" path := by
  rw [← Path.ofText?_eq_ok_iff, String.toList_empty]
  exact fun h => nomatch h

theorem withMessageModule_eq_ok_iff {options configured : Options} {value : String} :
    options.withMessageModule value = .ok configured ↔
      ∃ path, NamesModule (trimmed value) path ∧
        configured = { options with messageModule := path } := by
  have hspells : ∀ path, Path.ofText? (trim value.toList) = .ok path ↔
      Path.Spells (trimmed value) path := by
    intro path
    rw [← Path.ofText?_eq_ok_iff, trimmed, String.toList_ofList]
  unfold withMessageModule NamesModule
  dsimp only
  by_cases hempty : trim value.toList = []
  · rw [hempty, List.isEmpty_nil, if_pos rfl, Except.ok.injEq, trimmed_eq_empty_iff.mpr hempty]
    constructor
    · rintro rfl
      exact ⟨.current, .inl ⟨rfl, rfl⟩, rfl⟩
    · rintro ⟨path, ⟨-, rfl⟩ | hpath, rfl⟩
      · rfl
      · exact absurd hpath (not_spells_empty path)
  · rw [if_neg (by simpa using hempty)]
    simp only [trimmed_eq_empty_iff, hempty, false_and, false_or, ← hspells]
    cases Path.ofText? (trim value.toList) with
    | ok path => simp [eq_comm]
    | error fault => simp

theorem withMessageModule_eq_error_iff {options : Options} {value : String}
    {fault : Parameter.Fault} :
    options.withMessageModule value = .error fault ↔ trimmed value ≠ "" ∧
      ∃ reason, Path.ofText? (trimmed value).toList = .error reason ∧
        fault = .notModulePath (trimmed value) reason := by
  rw [ne_eq, trimmed_eq_empty_iff, trimmed, String.toList_ofList]
  unfold withMessageModule
  dsimp only
  by_cases hempty : trim value.toList = []
  · simp [hempty]
  · rw [if_neg (by simpa using hempty)]
    cases Path.ofText? (trim value.toList) with
    | ok path => simp
    | error reason => simp [hempty, eq_comm]

/-- A module is accepted just if its text without blanks at the ends is empty or spells a path. The
    text is kept, and nothing else is changed. -/
theorem withMessageModule_exact (options : Options) (value : String) :
    ((∃ configured, options.withMessageModule value = .ok configured) ↔
      trimmed value = "" ∨ ∃ path, Path.Spells (trimmed value) path) ∧
    (∀ configured, options.withMessageModule value = .ok configured →
      configured = { options with messageModule := configured.messageModule } ∧
        configured.messageModule.render =
          if trimmed value = "" then "self" else trimmed value) ∧
    (∀ fault, options.withMessageModule value = .error fault →
      ∃ reason, fault.toError = .invalidParameters
        (Parameter.Fault.message (.notModulePath (trimmed value) reason))) := by
  refine ⟨?_, ?_, ?_⟩
  · constructor
    · rintro ⟨configured, h⟩
      obtain ⟨path, ⟨hempty, -⟩ | hpath, -⟩ := withMessageModule_eq_ok_iff.mp h
      · exact .inl hempty
      · exact .inr ⟨path, hpath⟩
    · rintro (hempty | ⟨path, hpath⟩)
      · exact ⟨_, withMessageModule_eq_ok_iff.mpr ⟨.current, .inl ⟨hempty, rfl⟩, rfl⟩⟩
      · exact ⟨_, withMessageModule_eq_ok_iff.mpr ⟨path, .inr hpath, rfl⟩⟩
  · intro configured h
    obtain ⟨path, ⟨hempty, rfl⟩ | hpath, rfl⟩ := withMessageModule_eq_ok_iff.mp h
    · rw [if_pos hempty]
      exact ⟨rfl, rfl⟩
    · have hne : trimmed value ≠ "" := by
        intro hempty
        rw [hempty] at hpath
        exact not_spells_empty path hpath
      rw [if_neg hne]
      exact ⟨rfl, hpath.render_eq⟩
  · intro fault h
    obtain ⟨-, reason, -, rfl⟩ := withMessageModule_eq_error_iff.mp h
    exact ⟨reason, rfl⟩

end GrpcStubs.Options
