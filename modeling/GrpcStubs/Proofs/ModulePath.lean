import GrpcStubs.Path.Type
import GrpcStubs.Proofs.Lines
import GrpcStubs.Proofs.Names

set_option autoImplicit false

namespace GrpcStubs.Path
open Text

structure IsSegment (segment : String) : Prop where
  ne_empty : segment.toList ≠ []
  chars : ∀ c ∈ segment.toList, Identifier.isContinue c = true ∨ c = '#'

theorem IsSegment.not_mem {segment : String} (h : IsSegment segment) {c : Char}
    (hc : Identifier.isContinue c = false) (hne : c ≠ '#') : c ∉ segment.toList := by
  intro hmem
  rcases h.chars c hmem with hcontinue | hhash
  · rw [hc] at hcontinue
    cases hcontinue
  · exact hne hhash

theorem isSegment_of_all {segment : String} (hne : segment.toList.isEmpty = false)
    (h : segment.toList.all (fun c => Identifier.isContinue c || c == '#') = true) :
    IsSegment segment := by
  rw [List.all_eq_true] at h
  exact ⟨by simpa using hne, fun c hc => by simpa using h c hc⟩

theorem isSegment_of_isWritten {segment : String}
    (h : Identifier.isWritten segment.toList = true) : IsSegment segment := by
  refine ⟨?_, ?_⟩
  · intro hnil
    rw [hnil] at h
    cases h
  · unfold Identifier.isWritten at h
    split at h
    · rename_i word hword
      rw [Bool.and_eq_true] at h
      have hchars := Identifier.mem_isName (Identifier.isName_of_isWord h.1)
      intro c hc
      rw [hword, List.mem_cons, List.mem_cons] at hc
      rcases hc with rfl | rfl | hc
      · exact .inl rfl
      · exact .inr rfl
      · exact .inl (hchars c hc)
    · rw [Bool.and_eq_true] at h
      exact fun c hc => .inl (Identifier.mem_isName (Identifier.isName_of_isWord h.1) c hc)

theorem ne_keyword_of_isWritten {segment : String} (h : Identifier.isWritten segment.toList = true) :
    segment ∉ ["super", "self", "crate"] := by
  intro hmem
  have hillegal : ∀ keyword ∈ ["super", "self", "crate"],
      Identifier.isWritten keyword.toList = false := by decide
  rw [hillegal segment hmem] at h
  cases h

def IsLater (segment : String) : Prop :=
  segment = "super" ∨ Identifier.isWritten segment.toList = true

theorem IsLater.isSegment {segment : String} (h : IsLater segment) : IsSegment segment := by
  rcases h with rfl | h
  · exact isSegment_of_all rfl rfl
  · exact isSegment_of_isWritten h

theorem IsLater.ne_keyword {segment : String} (h : IsLater segment) :
    segment ≠ "crate" ∧ segment ≠ "self" := by
  constructor
  all_goals
    rintro rfl
    rcases h with h | h
    · exact absurd h (by decide)
    · exact absurd h (by decide)

theorem checkSegments_cons {leading atStart : Bool} {segment : List Char}
    {rest : List (List Char)} (h : checkSegments leading atStart (segment :: rest) = .ok ()) :
    (leading = true ∧ String.ofList segment ∈ leadingKeywords atStart ∧
        checkSegments true false rest = .ok ()) ∨
      (Identifier.isWritten segment = true ∧ checkSegments false false rest = .ok ()) := by
  rw [checkSegments] at h
  split at h
  · cases h
  · split at h
    · rename_i hkeyword
      rw [Bool.and_eq_true, List.contains_iff_mem] at hkeyword
      exact .inl ⟨hkeyword.1, hkeyword.2, h⟩
    · split at h
      · exact .inr ⟨‹_›, h⟩
      · cases h

theorem isLater_of_checkSegments {leading : Bool} {segments : List (List Char)}
    (h : checkSegments leading false segments = .ok ()) :
    ∀ segment ∈ segments, IsLater (.ofList segment) := by
  induction segments generalizing leading with
  | nil => exact fun segment hs => absurd hs List.not_mem_nil
  | cons first rest ih =>
    rcases checkSegments_cons h with ⟨_, hkeyword, hrest⟩ | ⟨hwritten, hrest⟩
    · exact List.forall_mem_cons.mpr ⟨.inl (by simpa [leadingKeywords] using hkeyword), ih hrest⟩
    · refine List.forall_mem_cons.mpr ⟨.inr ?_, ih hrest⟩
      rw [String.toList_ofList]
      exact hwritten

def IsModule (path : Path) : Prop :=
  ∃ text, ofText? text = .ok path

theorem splitSegments_ne_nil (text : List Char) : splitSegments text ≠ [] := by
  fun_cases splitSegments text with
  | case1 => simp
  | case2 => simp
  | case3 c cs _ => cases splitSegments cs <;> simp [consFirst]

theorem ofRelative_eq_ok_iff {isGlobal : Bool} {cs : List Char} {path : Path} :
    ofRelative isGlobal cs = .ok path ↔
      checkSegments (!isGlobal) true (splitSegments cs) = .ok () ∧
        path = ⟨isGlobal, (splitSegments cs).map String.ofList⟩ := by
  unfold ofRelative
  cases cs with
  | nil => exact iff_of_false (by simp) (by simp [splitSegments, checkSegments])
  | cons c cs =>
    rw [List.isEmpty_cons, if_neg Bool.false_ne_true]
    dsimp only
    split
    · rename_i hcheck
      rw [hcheck, Except.ok.injEq]
      exact ⟨fun h => ⟨rfl, h.symm⟩, fun h => h.2.symm⟩
    · rename_i hcheck
      exact iff_of_false (by simp) (by simp [hcheck])

theorem IsModule.segments_eq {path : Path} (h : path.IsModule) :
    ∃ first rest, path.segments = first :: rest ∧
      (path.isGlobal = false ∧ first ∈ leadingKeywords true ∨
        Identifier.isWritten first.toList = true) ∧ ∀ segment ∈ rest, IsLater segment := by
  obtain ⟨text, htext⟩ := h
  obtain ⟨isGlobal, cs, hglobal, hsegments, hcheck⟩ : ∃ isGlobal cs, path.isGlobal = isGlobal ∧
      path.segments = (splitSegments cs).map String.ofList ∧
        checkSegments (!isGlobal) true (splitSegments cs) = .ok () := by
    unfold ofText? at htext
    split at htext
    · obtain ⟨hcheck, rfl⟩ := ofRelative_eq_ok_iff.mp htext
      exact ⟨_, _, rfl, rfl, hcheck⟩
    · obtain ⟨hcheck, rfl⟩ := ofRelative_eq_ok_iff.mp htext
      exact ⟨_, _, rfl, rfl, hcheck⟩
  cases hsplit : splitSegments cs with
  | nil => exact absurd hsplit (splitSegments_ne_nil cs)
  | cons first rest =>
    rw [hsplit] at hcheck hsegments
    refine ⟨.ofList first, rest.map String.ofList, hsegments, ?_⟩
    rcases checkSegments_cons hcheck with ⟨hleading, hkeyword, hrest⟩ | ⟨hwritten, hrest⟩
    · refine ⟨.inl ⟨?_, hkeyword⟩, List.forall_mem_map.mpr (isLater_of_checkSegments hrest)⟩
      rw [hglobal]
      simpa using hleading
    · refine ⟨.inr ?_, List.forall_mem_map.mpr (isLater_of_checkSegments hrest)⟩
      rw [String.toList_ofList]
      exact hwritten

theorem IsModule.isSegment {path : Path} (h : path.IsModule) :
    ∀ segment ∈ path.segments, IsSegment segment := by
  obtain ⟨first, rest, hsegments, hfirst, hrest⟩ := h.segments_eq
  rw [hsegments]
  refine List.forall_mem_cons.mpr ⟨?_, fun segment hs => (hrest segment hs).isSegment⟩
  rcases hfirst with ⟨_, hkeyword⟩ | hwritten
  · have hkeywords : first = "crate" ∨ first = "self" ∨ first = "super" := by
      simpa [leadingKeywords] using hkeyword
    rcases hkeywords with rfl | rfl | rfl <;> exact isSegment_of_all rfl rfl
  · exact isSegment_of_isWritten hwritten

theorem isModule_of_withMessageModule {options configured : Options} {value : String}
    (h : options.withMessageModule value = .ok configured) : configured.messageModule.IsModule := by
  unfold Options.withMessageModule at h
  dsimp only at h
  split at h
  · cases h
    exact ⟨['s', 'e', 'l', 'f'], rfl⟩
  · split at h
    · rename_i path hpath
      cases h
      exact ⟨_, hpath⟩
    · cases h

theorem splitSegments_cons {c : Char} (h : c ≠ ':') (cs : List Char) :
    splitSegments (c :: cs) = consFirst c (splitSegments cs) := by
  rw [splitSegments]
  intro rest hc
  exact absurd hc h

theorem splitSegments_of_not_mem {segment : List Char} (h : ':' ∉ segment) :
    splitSegments segment = [segment] := by
  induction segment with
  | nil => rfl
  | cons c cs ih =>
    rw [List.mem_cons, not_or] at h
    rw [splitSegments_cons (fun hc => h.1 hc.symm), ih h.2]
    rfl

theorem splitSegments_append {segment : List Char} (h : ':' ∉ segment) (rest : List Char) :
    splitSegments (segment ++ ':' :: ':' :: rest) = segment :: splitSegments rest := by
  induction segment with
  | nil => rfl
  | cons c cs ih =>
    rw [List.mem_cons, not_or] at h
    rw [List.cons_append, splitSegments_cons (fun hc => h.1 hc.symm), ih h.2]
    rfl

theorem splitSegments_intercalate {segments : List (List Char)} (hne : segments ≠ [])
    (h : ∀ segment ∈ segments, ':' ∉ segment) :
    splitSegments ([':', ':'].intercalate segments) = segments := by
  induction segments with
  | nil => exact absurd rfl hne
  | cons first rest ih =>
    obtain ⟨hfirst, hrest⟩ := List.forall_mem_cons.mp h
    cases rest with
    | nil =>
      rw [List.intercalate_singleton]
      exact splitSegments_of_not_mem hfirst
    | cons next rest =>
      have hcons : [':', ':'].intercalate (first :: next :: rest) =
          first ++ ':' :: ':' :: [':', ':'].intercalate (next :: rest) := by
        rw [List.intercalate_cons_cons, List.append_assoc]
        rfl
      rw [hcons, splitSegments_append hfirst, ih (List.cons_ne_nil _ _) hrest]

theorem toList_render (path : Path) :
    path.render.toList = (if path.isGlobal then [':', ':'] else []) ++
      [':', ':'].intercalate (path.segments.map String.toList) := by
  rw [render, String.toList_append, String.toList_intercalate]
  cases path.isGlobal <;> rfl

def ofSpelling (text : String) : Path :=
  match afterStart [':', ':'] text.toList with
  | some rest => ⟨true, (splitSegments rest).map String.ofList⟩
  | none => ⟨false, (splitSegments text.toList).map String.ofList⟩

theorem afterStart_relative {first : List Char} (hne : first ≠ []) (h : ':' ∉ first)
    (rest : List (List Char)) :
    afterStart [':', ':'] ([':', ':'].intercalate (first :: rest)) = none := by
  cases first with
  | nil => exact absurd rfl hne
  | cons c cs =>
    rw [List.mem_cons, not_or] at h
    cases rest with
    | nil => exact if_neg h.1
    | cons next rest => exact if_neg h.1

theorem map_ofList_toList (segments : List String) :
    (segments.map String.toList).map String.ofList = segments := by
  rw [List.map_map]
  exact (List.map_congr_left fun segment _ => String.ofList_toList).trans (List.map_id _)

theorem splitSegments_join {segments : List String} (hne : segments ≠ [])
    (h : ∀ segment ∈ segments, IsSegment segment) :
    splitSegments ([':', ':'].intercalate (segments.map String.toList)) =
      segments.map String.toList := by
  refine splitSegments_intercalate (by simpa using hne) (List.forall_mem_map.mpr fun segment hs => ?_)
  exact (h segment hs).not_mem rfl (by decide)

theorem afterStart_join {segments : List String} (hne : segments ≠ [])
    (h : ∀ segment ∈ segments, IsSegment segment) :
    afterStart [':', ':'] ([':', ':'].intercalate (segments.map String.toList)) = none := by
  cases segments with
  | nil => exact absurd rfl hne
  | cons first rest =>
    have hfirst := h first List.mem_cons_self
    exact afterStart_relative hfirst.ne_empty (hfirst.not_mem rfl (by decide)) _

theorem ofSpelling_render {path : Path} (hne : path.segments ≠ [])
    (h : ∀ segment ∈ path.segments, IsSegment segment) : ofSpelling path.render = path := by
  obtain ⟨isGlobal, segments⟩ := path
  have hback := map_ofList_toList segments
  have htext := toList_render ⟨isGlobal, segments⟩
  cases isGlobal with
  | true =>
    rw [if_pos rfl] at htext
    rw [ofSpelling, htext, afterStart_append]
    dsimp only
    rw [splitSegments_join hne h, hback]
  | false =>
    rw [if_neg Bool.false_ne_true, List.nil_append] at htext
    rw [ofSpelling, htext, afterStart_join hne h]
    dsimp only
    rw [splitSegments_join hne h, hback]

theorem mem_intercalate {c : Char} {separator : List Char} {rows : List (List Char)}
    (h : c ∈ separator.intercalate rows) : c ∈ separator ∨ ∃ row ∈ rows, c ∈ row := by
  induction rows with
  | nil => exact absurd h List.not_mem_nil
  | cons first rest ih =>
    cases rest with
    | nil =>
      rw [List.intercalate_singleton] at h
      exact .inr ⟨first, List.mem_cons_self, h⟩
    | cons next rest =>
      rw [List.intercalate_cons_cons, List.mem_append, List.mem_append] at h
      rcases h with (h | h) | h
      · exact .inr ⟨first, List.mem_cons_self, h⟩
      · exact .inl h
      · refine (ih h).imp_right ?_
        rintro ⟨row, hrow, hc⟩
        exact ⟨row, List.mem_cons_of_mem first hrow, hc⟩

theorem mem_render {c : Char} {path : Path} (h : c ∈ path.render.toList) :
    c = ':' ∨ ∃ segment ∈ path.segments, c ∈ segment.toList := by
  rw [toList_render, List.mem_append] at h
  rcases h with h | h
  · split at h
    · exact .inl (by simpa using h)
    · exact absurd h List.not_mem_nil
  · rcases mem_intercalate h with h | ⟨row, hrow, hc⟩
    · exact .inl (by simpa using h)
    · obtain ⟨segment, hs, rfl⟩ := List.mem_map.mp hrow
      exact .inr ⟨segment, hs, hc⟩

def startsAtCrate : List String → Bool
  | "crate" :: _ :: _ => true
  | _ => false

/-- A path that means the same wherever it is read, as far as `descend` can tell. -/
def isAnchored (path : Path) : Bool :=
  path.isGlobal || startsAtCrate path.segments

def withoutSelf (path : Path) : List String :=
  match path.segments with
  | "self" :: rest => rest
  | segments => segments

theorem descend_eq (path : Path) (depth : Nat) (below : List String) :
    path.descend depth below =
      if path.isAnchored then ⟨path.isGlobal, path.segments ++ below⟩
      else upward depth (path.withoutSelf ++ below) := by
  obtain ⟨isGlobal, segments⟩ := path
  cases isGlobal with
  | true => rfl
  | false =>
    unfold descend
    split
    · rename_i h; cases h
    · rename_i h; cases h; rfl
    · rename_i h; cases h; rfl
    · rename_i h; cases h; rfl
    · rename_i hcrate hself
      have hstarts : startsAtCrate segments = false := by
        unfold startsAtCrate
        split
        · exact absurd rfl (hcrate _ _)
        · rfl
      have hwithout : withoutSelf ⟨false, segments⟩ = segments := by
        unfold withoutSelf
        split
        · rename_i h; exact absurd h (hself _)
        · rfl
      rw [isAnchored, hstarts, hwithout]
      rfl

theorem mem_withoutSelf {path : Path} {segment : String} (h : segment ∈ path.withoutSelf) :
    segment ∈ path.segments := by
  unfold withoutSelf at h
  split at h
  · rename_i heq
    rw [heq]
    exact List.mem_cons_of_mem _ h
  · exact h

theorem mem_descend {path : Path} {depth : Nat} {below : List String} {segment : String}
    (h : segment ∈ (path.descend depth below).segments) :
    segment ∈ path.segments ∨ segment = "super" ∨ segment ∈ below := by
  rw [descend_eq] at h
  split at h
  · exact (List.mem_append.mp h).imp_right .inr
  · rcases List.mem_append.mp h with h | h
    · exact .inr (.inl (List.eq_of_mem_replicate h))
    · exact (List.mem_append.mp h).imp mem_withoutSelf .inr

end GrpcStubs.Path
