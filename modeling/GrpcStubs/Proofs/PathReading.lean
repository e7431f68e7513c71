import GrpcStubs.Proofs.ModulePath
import GrpcStubs.Proofs.Nesting

set_option autoImplicit false

namespace GrpcStubs.Path
open Text

/-- A place in the tree of modules: below the crates, or in the crate of the reader. -/
inductive Place where
  | outside (names : List String)
  | inside (names : List String)
deriving DecidableEq

namespace Place

/-- The module around a module. The root of a crate has none. -/
def parent : Place → Option Place
  | .outside _ => none
  | .inside names => if names.isEmpty then none else some (.inside names.dropLast)

def enter (place : Place) (name : String) : Place :=
  match place with
  | .outside names => .outside (names ++ [name])
  | .inside names => .inside (names ++ [name])

end Place

/-- The name that an identifier stands for: a raw one for what follows its mark. -/
def plainName (segment : String) : String :=
  match afterStart ['r', '#'] segment.toList with
  | some word => .ofList word
  | none => segment

/-- Read segments from a place. `leading` holds as long as only keywords came before. -/
def readFrom (place : Place) (leading : Bool) : List String → Option Place
  | [] => some place
  | segment :: rest =>
    if segment = "super" then
      if leading then place.parent.bind fun around => readFrom around true rest else none
    else if Identifier.isWritten segment.toList then
      readFrom (place.enter (plainName segment)) false rest
    else none

def read (here : List String) (path : Path) : Option Place :=
  match path.isGlobal, path.segments with
  | true, segments => readFrom (.outside []) false segments
  | false, "crate" :: rest => readFrom (.inside []) true rest
  | false, "self" :: rest => readFrom (.inside here) true rest
  | false, segments => readFrom (.inside here) true segments

/-- Read the text of a path in the module `here`; there is no place if the text is no legal path. -/
def readText (here : List String) (text : String) : Option Place :=
  (ofSpelling text).read here

def extend (path : Path) (below : List String) : Path :=
  if path = .current then ⟨false, below⟩ else ⟨path.isGlobal, path.segments ++ below⟩

def crateRoot : Path :=
  ⟨false, ["crate"]⟩

theorem read_relative (here : List String) {segments : List String}
    (h : ∀ segment ∈ segments, segment ≠ "crate" ∧ segment ≠ "self") :
    read here ⟨false, segments⟩ = readFrom (.inside here) true segments := by
  unfold read
  split
  · rename_i hglobal
    cases hglobal
  · rename_i hsegments
    cases hsegments
    exact absurd rfl (h "crate" List.mem_cons_self).1
  · rename_i hsegments
    cases hsegments
    exact absurd rfl (h "self" List.mem_cons_self).2
  · rfl

theorem readFrom_super (names : List String) (name : String) (rest : List String) :
    readFrom (.inside (names ++ [name])) true ("super" :: rest) =
      readFrom (.inside names) true rest := by
  rw [readFrom, if_pos rfl, if_pos rfl, Place.parent, if_neg (by simp), List.dropLast_concat]
  rfl

theorem readFrom_upward (root below rest : List String) :
    readFrom (.inside (root ++ below)) true (List.replicate below.length "super" ++ rest) =
      readFrom (.inside root) true rest := by
  -- The keyword removes the last level, so the induction takes levels off at the end.
  induction hlength : below.length generalizing below with
  | zero =>
    rw [List.eq_nil_of_length_eq_zero hlength, List.append_nil]
    rfl
  | succ n ih =>
    obtain rfl | ⟨front, last, rfl⟩ := List.eq_nil_or_concat below
    · cases hlength
    · have hfront : front.length = n := by simpa using hlength
      rw [List.concat_eq_append, List.replicate_succ, List.cons_append, ← List.append_assoc,
        readFrom_super, ih front hfront]

theorem readFrom_written (place : Place) (leading : Bool) {segments : List String}
    (h : ∀ segment ∈ segments, Identifier.isWritten segment.toList = true) :
    (readFrom place leading segments).isSome = true := by
  induction segments generalizing place leading with
  | nil => rfl
  | cons segment rest ih =>
    obtain ⟨hsegment, hrest⟩ := List.forall_mem_cons.mp h
    have hne : segment ≠ "super" := by
      rintro rfl
      exact absurd hsegment (by decide)
    rw [readFrom, if_neg hne, if_pos hsegment]
    exact ih _ _ hrest

theorem readFrom_crate (place : Place) (rest : List String) :
    readFrom place true ("crate" :: rest) = none := by
  rw [readFrom, if_neg (by decide), if_neg (by decide)]

theorem read_upward (root below : List String) {segments : List String}
    (h : ∀ segment ∈ segments, segment ≠ "crate" ∧ segment ≠ "self") :
    read (root ++ below) (upward below.length segments) = readFrom (.inside root) true segments := by
  have hkeywords : ∀ segment ∈ List.replicate below.length "super" ++ segments,
      segment ≠ "crate" ∧ segment ≠ "self" := by
    refine List.forall_mem_append.mpr ⟨fun segment hs => ?_, h⟩
    rw [List.eq_of_mem_replicate hs]
    decide
  rw [upward, read_relative _ hkeywords, readFrom_upward]

theorem isLater_of_isWritten {below : List String}
    (h : ∀ segment ∈ below, Identifier.isWritten segment.toList = true) :
    ∀ segment ∈ below, IsLater segment :=
  fun segment hs => .inr (h segment hs)

/-- A relative path other than the keyword for the crate alone goes on with segments that may stand
    anywhere in a relative path. -/
theorem isLater_withoutSelf {path : Path} (h : path.IsModule) (hanchored : path.isAnchored = false)
    (hcrate : path ≠ crateRoot) : ∀ segment ∈ path.withoutSelf, IsLater segment := by
  obtain ⟨isGlobal, segments⟩ := path
  obtain ⟨first, rest, rfl, hfirst, hrest⟩ := h.segments_eq
  cases isGlobal with
  | true => cases hanchored
  | false =>
    by_cases hself : first = "self"
    · subst hself
      exact hrest
    · have hwithout : withoutSelf ⟨false, first :: rest⟩ = first :: rest := by
        unfold withoutSelf
        split
        · rename_i heq
          cases heq
          exact absurd rfl hself
        · rfl
      rw [hwithout]
      refine List.forall_mem_cons.mpr ⟨?_, hrest⟩
      rcases hfirst with ⟨_, hkeyword⟩ | hwritten
      · have hkeywords : first = "crate" ∨ first = "self" ∨ first = "super" := by
          simpa [leadingKeywords] using hkeyword
        rcases hkeywords with rfl | rfl | rfl
        · cases rest with
          | nil => exact absurd rfl hcrate
          | cons next rest => cases hanchored
        · exact absurd rfl hself
        · exact .inl rfl
      · exact .inr hwritten

theorem read_extend {path : Path} (h : path.IsModule) (hanchored : path.isAnchored = false)
    (hcrate : path ≠ crateRoot) (root : List String) {below : List String}
    (hbelow : ∀ segment ∈ below, IsLater segment) :
    read root (path.extend below) = readFrom (.inside root) true (path.withoutSelf ++ below) := by
  have hkeywords : ∀ segment ∈ path.withoutSelf ++ below, segment ≠ "crate" ∧ segment ≠ "self" :=
    fun segment hs => (List.forall_mem_append.mpr
      ⟨isLater_withoutSelf h hanchored hcrate, hbelow⟩ segment hs).ne_keyword
  have hglobal : path.isGlobal = false := (Bool.or_eq_false_iff.mp hanchored).1
  obtain ⟨isGlobal, segments⟩ := path
  cases hglobal
  rw [extend]
  split
  · rename_i hcurrent
    cases hcurrent
    exact read_relative root hkeywords
  · unfold withoutSelf at hkeywords ⊢
    split
    · rename_i heq
      cases heq
      rfl
    · rename_i hself
      split at hkeywords
      · rename_i heq
        exact absurd heq (hself _)
      · exact read_relative root hkeywords

theorem read_anchored {path : Path} (h : path.isAnchored = true) (here root : List String)
    (depth : Nat) (below : List String) :
    read here (path.descend depth below) = read root (path.extend below) := by
  have hextend : path.extend below = ⟨path.isGlobal, path.segments ++ below⟩ := by
    refine if_neg ?_
    rintro rfl
    cases h
  rw [descend_eq, if_pos h, hextend]
  obtain ⟨isGlobal, segments⟩ := path
  cases isGlobal with
  | true => rfl
  | false =>
    rw [isAnchored, Bool.false_or] at h
    unfold startsAtCrate at h
    split at h
    · rename_i heq
      cases heq
      rfl
    · cases h

theorem read_crateRoot (root : List String) {below : List String}
    (h : ∀ segment ∈ below, Identifier.isWritten segment.toList = true) :
    (read root (crateRoot.extend below)).isSome = true :=
  readFrom_written (.inside []) true h

/-- Below the root, the keyword for the crate stands behind others and cannot be read. -/
theorem read_descend_crateRoot (root : List String) {levels : List String} (hne : levels ≠ [])
    (below : List String) :
    read (root ++ levels) (crateRoot.descend levels.length below) = none := by
  cases levels with
  | nil => exact absurd rfl hne
  | cons name names =>
    have hread : read (root ++ name :: names) (crateRoot.descend (name :: names).length below) =
        readFrom (.inside (root ++ name :: names)) true
          (List.replicate (name :: names).length "super" ++ "crate" :: below) := rfl
    rw [hread, readFrom_upward, readFrom_crate]

theorem read_descend {path : Path} (h : path.IsModule) (root levels : List String)
    {below : List String} (hbelow : ∀ segment ∈ below, Identifier.isWritten segment.toList = true)
    (hcrate : path ≠ crateRoot ∨ levels = []) :
    read (root ++ levels) (path.descend levels.length below) = read root (path.extend below) := by
  cases hanchored : path.isAnchored with
  | true => exact read_anchored hanchored _ _ _ _
  | false =>
    have hlater := isLater_of_isWritten hbelow
    by_cases hroot : path = crateRoot
    · -- Without levels in between nothing is put before the keyword.
      obtain rfl := hcrate.resolve_left (fun hne => hne hroot)
      subst hroot
      rw [List.append_nil]
      rfl
    · have hwithout := isLater_withoutSelf h hanchored hroot
      rw [read_extend h hanchored hroot root hlater, descend_eq, hanchored,
        if_neg Bool.false_ne_true, read_upward]
      exact fun segment hs => (List.forall_mem_append.mpr ⟨hwithout, hlater⟩ segment hs).ne_keyword

end GrpcStubs.Path

namespace GrpcStubs
open GrpcStubs.Path

theorem isWritten_writtenNames {message : Message}
    (h : ∀ name ∈ message.name :: message.enclosing, Identifier.isName name.toList = true) :
    ∀ segment ∈ message.writtenNames, Identifier.isWritten segment.toList = true :=
  Message.forall_mem_writtenNames h (fun _ => Identifier.isName_snakeCase)
    fun _ => Identifier.isWritten_escape

theorem readText_descend {path : Path} (h : path.IsModule) (here : List String) (depth : Nat)
    {below : List String} (hne : below ≠ [])
    (hbelow : ∀ segment ∈ below, Identifier.isWritten segment.toList = true) :
    readText here (path.descend depth below).render = read here (path.descend depth below) := by
  have hsegments : ∀ segment ∈ (path.descend depth below).segments, IsSegment segment := by
    intro segment hs
    rcases mem_descend hs with hs | hsuper | hs
    · exact h.isSegment segment hs
    · exact IsLater.isSegment (.inl hsuper)
    · exact isSegment_of_isWritten (hbelow segment hs)
  have hdescend : (path.descend depth below).segments ≠ [] := by
    rw [descend_eq]
    split
    · exact List.append_ne_nil_of_right_ne_nil _ hne
    · exact List.append_ne_nil_of_right_ne_nil _ (List.append_ne_nil_of_right_ne_nil _ hne)
  rw [readText, ofSpelling_render hdescend hsegments]

theorem readText_extend {path : Path} (h : path.IsModule) (here : List String)
    {below : List String} (hne : below ≠ [])
    (hbelow : ∀ segment ∈ below, Identifier.isWritten segment.toList = true) :
    readText here (path.extend below).render = read here (path.extend below) := by
  have hwritten : ∀ segment ∈ below, IsSegment segment :=
    fun segment hs => isSegment_of_isWritten (hbelow segment hs)
  rw [readText, ofSpelling_render]
  · unfold extend
    split
    · exact hne
    · exact List.append_ne_nil_of_right_ne_nil _ hne
  · unfold extend
    split
    · exact hwritten
    · exact List.forall_mem_append.mpr ⟨h.isSegment, hwritten⟩

/-- The path of a local message type, read `levels` below the root of the file, denotes what the
    configured module followed by the message denotes at the root, unless the module is the keyword
    for the crate alone and there are levels in between. Then the path cannot be read. -/
theorem typePath_denotes_iff {options configured : Options} {value : String}
    (hvalue : options.withMessageModule value = .ok configured) {file : String} {message : Message}
    (hlocal : Context.isLocal ⟨configured, file⟩ message.file = true)
    (hnames : ∀ name ∈ message.name :: message.enclosing, Identifier.isName name.toList = true)
    (root levels : List String) :
    ∃ path, Context.typePath ⟨configured, file⟩ levels.length message = .ok path ∧
      (readText (root ++ levels) path.render =
          readText root (configured.messageModule.extend message.writtenNames).render ↔
        ¬ (configured.messageModule = crateRoot ∧ levels ≠ [])) ∧
      (configured.messageModule = crateRoot ∧ levels ≠ [] →
        readText (root ++ levels) path.render = none) := by
  have hmodule := isModule_of_withMessageModule hvalue
  have hwritten := isWritten_writtenNames hnames
  have hne := message.writtenNames_ne_nil
  refine ⟨configured.messageModule.descend levels.length message.writtenNames, ?_, ?_⟩
  · rw [Context.typePath, if_pos hlocal, message.localSegments_eq]
  · rw [readText_descend hmodule _ _ hne hwritten, readText_extend hmodule _ hne hwritten]
    have hillegal : configured.messageModule = crateRoot ∧ levels ≠ [] →
        read (root ++ levels)
          (configured.messageModule.descend levels.length message.writtenNames) = none := by
      rintro ⟨hcrate, hlevels⟩
      rw [hcrate]
      exact read_descend_crateRoot root hlevels _
    refine ⟨⟨fun heq hbare => ?_, fun hbare => ?_⟩, hillegal⟩
    · have hsome := read_crateRoot root hwritten
      rw [← hbare.1, ← heq, hillegal hbare] at hsome
      cases hsome
    · refine read_descend hmodule root levels hwritten ?_
      by_cases hcrate : configured.messageModule = crateRoot
      · exact .inr (Decidable.not_not.mp fun hlevels => hbare ⟨hcrate, hlevels⟩)
      · exact .inl hcrate

theorem typePath_denotes_iff_super :
    let configured : Options := { messageModule := ⟨false, ["super", "r#mod"]⟩ }
    let message : Message := ((Message.outermost "Outer" "a.proto").inside "type").inside "Self"
    ({} : Options).withMessageModule " super::r#mod " = .ok configured ∧
      ∃ path, Context.typePath ⟨configured, "a.proto"⟩ 2 message = .ok path ∧
        (readText ["root", "file", "one", "two"] path.render =
            readText ["root", "file"] (configured.messageModule.extend message.writtenNames).render ↔
          ¬ (configured.messageModule = crateRoot ∧ ["one", "two"] ≠ [])) ∧
        (configured.messageModule = crateRoot ∧ ["one", "two"] ≠ [] →
          readText ["root", "file", "one", "two"] path.render = none) := by
  intro configured message
  have hvalue : ({} : Options).withMessageModule " super::r#mod " = .ok configured := rfl
  exact ⟨hvalue, typePath_denotes_iff hvalue rfl (by decide) ["root", "file"] ["one", "two"]⟩

/-- With the keyword for the crate alone, the path of a message type cannot be read one level below
    the root, where the message is in the crate. -/
theorem typePath_crate_not_legal :
    ∃ configured path, ({} : Options).withMessageModule "crate" = .ok configured ∧
      Context.typePath ⟨configured, "a.proto"⟩ 1 (.outermost "Req" "a.proto") = .ok path ∧
      path.render = "super::crate::Req" ∧ readText ["file", "stub"] path.render = none ∧
      readText ["file"] "crate::Req" = some (.inside ["Req"]) :=
  ⟨{ messageModule := crateRoot }, ⟨false, ["super", "crate", "Req"]⟩, rfl, rfl, by decide, by decide,
    by decide⟩

end GrpcStubs
