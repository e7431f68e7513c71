import GrpcStubs.Proofs.Blanks
import GrpcStubs.Proofs.PathGrammar
import GrpcStubs.Proofs.Sequencing

set_option autoImplicit false

namespace GrpcStubs.Options
open Text

/-- A part of a parameter string, with its key and its value. The key can be missing. -/
structure Segment extends Parameter where
  text : List Char

/-- Key and value are what stands on the two sides of the first equals sign, without the blanks
    around it. -/
structure Segment.IsRead (segment : Segment) : Prop where
  sides : ∃ before after, Cuts '=' segment.text before after ∧
    segment.key = .ofList (trim before) ∧ segment.value = .ofList (trim after)

structure AreSegments (text : String) (segments : List Segment) : Prop where
  split : ∃ parts, IsSplit ',' text.toList parts ∧
    segments.map Segment.text = parts.filter fun part => !part.isEmpty
  read : ∀ segment ∈ segments, segment.IsRead

inductive IsSwitch : String → Bool → Prop where
  | bare : IsSwitch "" true
  | on : IsSwitch "true" true
  | off : IsSwitch "false" false

structure Loads (texts : Texts) (path : String) (crates : CrateMap) : Prop where
  nonempty : path ≠ ""
  parsed : ∃ content, texts path = .ok content ∧ CrateMap.parse content = .ok crates

/-- The keys, and which values each of them can have. -/
inductive IsValid (texts : Texts) : String → String → Prop where
  | messageModule {value : String} {path : Path} (named : NamesModule (trimmed value) path) :
    IsValid texts "message_module_path" value
  | crates {path : String} {crates : CrateMap} (loads : Loads texts path crates) :
    IsValid texts "crate_mapping" path
  | buildClient {value : String} {on : Bool} (switch : IsSwitch value on) :
    IsValid texts "build_client" value
  | buildServer {value : String} {on : Bool} (switch : IsSwitch value on) :
    IsValid texts "build_server" value

inductive IsRefused (texts : Texts) : String → String → Error → Prop where
  | messageModule {value : String} {reason : Path.Fault} (nonempty : trimmed value ≠ "")
    (unread : Path.ofText? (trimmed value).toList = .error reason) :
    IsRefused texts "message_module_path" value
      (Parameter.Fault.notModulePath (trimmed value) reason).toError
  | noFile : IsRefused texts "crate_mapping" "" Parameter.Fault.noMappingFile.toError
  | unreadable {path reason : String} (nonempty : path ≠ "") (unread : texts path = .error reason) :
    IsRefused texts "crate_mapping" path (.unreadableFile path reason)
  | malformed {path content : String} {error : Error} (nonempty : path ≠ "")
    (read : texts path = .ok content) (unparsed : CrateMap.parse content = .error error) :
    IsRefused texts "crate_mapping" path error
  | notBoolean {key value : String} (switch : key = "build_client" ∨ key = "build_server")
    (neither : ∀ on, ¬ IsSwitch value on) :
    IsRefused texts key value (Parameter.Fault.notBoolean key value).toError
  | unknown {key value : String}
    (unknown : key ∉ ["message_module_path", "crate_mapping", "build_client", "build_server"]) :
    IsRefused texts key value (Parameter.Fault.unknown key).toError

/-- What the last segment with a key sets, or the default if there is no such segment. -/
def LastSets {α : Type} (segments : List Segment) (key : String) (sets : String → α → Prop)
    (default value : α) : Prop :=
  match (segments.filter fun segment => segment.key == key).getLast? with
  | some segment => sets segment.value value
  | none => value = default

/-- Every option has its last value. -/
structure AreSet (texts : Texts) (segments : List Segment) (default options : Options) : Prop where
  messageModule : LastSets segments "message_module_path"
    (fun value => NamesModule (trimmed value)) default.messageModule options.messageModule
  crates : LastSets segments "crate_mapping" (Loads texts) default.crates options.crates
  buildClient : LastSets segments "build_client" IsSwitch default.buildClient options.buildClient
  buildServer : LastSets segments "build_server" IsSwitch default.buildServer options.buildServer
  crateFiles : options.crateFiles = default.crateFiles

inductive Fails (texts : Texts) (segments : List Segment) : Error → Prop where
  | noKey {before after : List Segment} {segment : Segment}
    (split : segments = before ++ segment :: after) (keyed : ∀ other ∈ before, other.key ≠ "")
    (missing : segment.key = "") :
    Fails texts segments (Parameter.Fault.noKey (.ofList segment.text)).toError
  | invalid {before after : List Segment} {segment : Segment} {error : Error}
    (keyed : ∀ other ∈ segments, other.key ≠ "") (split : segments = before ++ segment :: after)
    (valid : ∀ other ∈ before, IsValid texts other.key other.value)
    (refused : IsRefused texts segment.key segment.value error) : Fails texts segments error

/-- The segments of each key are the same and in the same order. -/
def Reordered (segments others : List Segment) : Prop :=
  ∀ key, segments.filter (fun segment => segment.key == key) =
    others.filter fun segment => segment.key == key

section Reading

def Segment.ofText (text : List Char) : Segment :=
  let (before, after) := (splitFirst '=' text).getD (text, [])
  ⟨⟨.ofList (trim before), .ofList (trim after)⟩, text⟩

theorem Segment.isRead_iff {segment : Segment} :
    segment.IsRead ↔ segment = .ofText segment.text := by
  obtain ⟨⟨key, value⟩, text⟩ := segment
  cases hsides : (splitFirst '=' text).getD (text, []) with
  | mk front back =>
    rw [ofText, hsides]
    constructor
    · rintro ⟨before, after, hcuts, rfl, rfl⟩
      rw [cuts_iff, hsides] at hcuts
      cases hcuts
      rfl
    · intro h
      cases h
      exact ⟨front, back, cuts_iff.mpr hsides, rfl, rfl⟩

theorem areSegments_iff {text : String} {segments : List Segment} :
    AreSegments text segments ↔ segments = (Parameter.segments text).map Segment.ofText := by
  constructor
  · rintro ⟨⟨parts, hsplit, hparts⟩, hread⟩
    rw [← isSplit_iff.mp hsplit] at hparts
    rw [Parameter.segments, ← hparts, List.map_map]
    refine (List.map_id segments).symm.trans (List.map_congr_left fun segment hs => ?_)
    exact Segment.isRead_iff.mp (hread segment hs)
  · rintro rfl
    refine ⟨⟨_, isSplit_iff.mpr rfl, ?_⟩, List.forall_mem_map.mpr fun part _ => ?_⟩
    · rw [List.map_map]
      exact List.map_id _
    · exact Segment.isRead_iff.mpr rfl

theorem ofSegment_text {segment : Segment} (h : segment.IsRead) :
    Parameter.ofSegment segment.text =
      if segment.key = "" then .error (.noKey (.ofList segment.text)) else .ok segment.toParameter := by
  obtain ⟨before, after, hcuts, hkey, hvalue⟩ := h
  have hblank : allBlank before = true ↔ segment.key = "" := by
    rw [hkey, ← trim_eq_nil_iff, ← String.toList_inj, String.toList_ofList, String.toList_empty]
  rw [Parameter.ofSegment, cuts_iff.mp hcuts]
  dsimp only
  by_cases hempty : segment.key = ""
  · rw [if_pos (hblank.mpr hempty), if_pos hempty]
  · rw [if_neg fun hall => hempty (hblank.mp hall), if_neg hempty, ← hkey, ← hvalue]

variable {text : String} {segments : List Segment}

theorem AreSegments.parseAll_eq (h : AreSegments text segments) :
    Parameter.parseAll text =
      segments.mapM fun segment => Parameter.ofSegment segment.text := by
  obtain ⟨parts, hsplit, hparts⟩ := h.split
  rw [← isSplit_iff.mp hsplit] at hparts
  rw [Parameter.parseAll, Parameter.segments, ← hparts, List.mapM_map]
  rfl

theorem AreSegments.parseAll_of_keyed (h : AreSegments text segments)
    (hkeyed : ∀ segment ∈ segments, segment.key ≠ "") :
    Parameter.parseAll text = .ok (segments.map Segment.toParameter) := by
  rw [h.parseAll_eq, mapM_eq_ok_iff, List.forall₂_map_right_iff]
  refine List.forall₂_same.mpr fun segment hs => ?_
  rw [ofSegment_text (h.read segment hs), if_neg (hkeyed segment hs)]

theorem AreSegments.parseAll_of_missing {before after : List Segment} {segment : Segment}
    (h : AreSegments text segments) (hsplit : segments = before ++ segment :: after)
    (hkeyed : ∀ other ∈ before, other.key ≠ "") (hmissing : segment.key = "") :
    Parameter.parseAll text = .error (.noKey (.ofList segment.text)) := by
  have hread : ∀ other ∈ before ++ segment :: after, other.IsRead := hsplit ▸ h.read
  rw [h.parseAll_eq, mapM_eq_error_iff]
  refine ⟨before, segment, after, hsplit, fun other ho => ⟨other.toParameter, ?_⟩, ?_⟩
  · exact (ofSegment_text (hread other (List.mem_append_left _ ho))).trans (if_neg (hkeyed other ho))
  · exact (ofSegment_text (hread segment (by simp))).trans (if_pos hmissing)

end Reading

section Setting
variable {texts : Texts} {key value : String}

theorem switch_of_isSwitch {on : Bool} (h : IsSwitch value on) (key : String) :
    Parameter.switch ⟨key, value⟩ = .ok on := by
  cases h <;> rfl

theorem switch_of_neither (h : ∀ on, ¬ IsSwitch value on) (key : String) :
    Parameter.switch ⟨key, value⟩ = .error (.notBoolean key value) := by
  have hon : ¬ (value = "" ∨ value = "true") := by
    rintro (rfl | rfl)
    · exact h true .bare
    · exact h true .on
  have hoff : value ≠ "false" := by
    rintro rfl
    exact h false .off
  rw [Parameter.switch, if_neg hon, if_neg hoff]

theorem withMappingFile_of_nonempty (h : value ≠ "") (texts : Texts) (options : Options) :
    options.withMappingFile texts value =
      (CrateMap.load texts value).map fun crates => { options with crates := crates } := by
  have hempty : value.isEmpty = false := by
    rw [Bool.eq_false_iff, ne_eq, String.isEmpty_iff]
    exact h
  rw [withMappingFile, hempty]
  cases CrateMap.load texts value <;> rfl

theorem valid_or_refused (texts : Texts) (key value : String) :
    IsValid texts key value ∨ ∃ error, IsRefused texts key value error := by
  have hswitch : (∃ on, IsSwitch value on) ∨ ∀ on, ¬ IsSwitch value on := by
    rw [← not_exists]
    exact Classical.em _
  by_cases hmodule : key = "message_module_path"
  · subst hmodule
    by_cases hempty : trimmed value = ""
    · exact .inl (.messageModule (.inl ⟨hempty, rfl⟩))
    · cases hpath : Path.ofText? (trimmed value).toList with
      | ok path => exact .inl (.messageModule (.inr (Path.ofText?_eq_ok_iff.mp hpath)))
      | error reason => exact .inr ⟨_, .messageModule hempty hpath⟩
  by_cases hcrates : key = "crate_mapping"
  · subst hcrates
    by_cases hempty : value = ""
    · subst hempty
      exact .inr ⟨_, .noFile⟩
    · cases hread : texts value with
      | error reason => exact .inr ⟨_, .unreadable hempty hread⟩
      | ok content =>
        cases hparse : CrateMap.parse content with
        | error error => exact .inr ⟨_, .malformed hempty hread hparse⟩
        | ok crates => exact .inl (.crates ⟨hempty, content, hread, hparse⟩)
  by_cases hclient : key = "build_client"
  · subst hclient
    rcases hswitch with ⟨on, hon⟩ | hneither
    · exact .inl (.buildClient hon)
    · exact .inr ⟨_, .notBoolean (.inl rfl) hneither⟩
  by_cases hserver : key = "build_server"
  · subst hserver
    rcases hswitch with ⟨on, hon⟩ | hneither
    · exact .inl (.buildServer hon)
    · exact .inr ⟨_, .notBoolean (.inr rfl) hneither⟩
  · exact .inr ⟨_, .unknown (by simp [hmodule, hcrates, hclient, hserver])⟩

theorem apply_of_unknown
    (h : key ∉ ["message_module_path", "crate_mapping", "build_client", "build_server"])
    (texts : Texts) (options : Options) (value : String) :
    options.apply texts ⟨key, value⟩ = .error (Parameter.Fault.unknown key).toError := by
  simp only [List.mem_cons, List.not_mem_nil, or_false, not_or] at h
  unfold apply
  split
  · rename_i hkey
    exact absurd hkey h.1
  · rename_i hkey
    exact absurd hkey h.2.1
  · rename_i hkey
    exact absurd hkey h.2.2.1
  · rename_i hkey
    exact absurd hkey h.2.2.2
  · rfl

theorem apply_of_refused {error : Error} (h : IsRefused texts key value error)
    (options : Options) : options.apply texts ⟨key, value⟩ = .error error := by
  cases h with
  | messageModule nonempty unread =>
    refine mapError_eq_error_iff.mpr ⟨_, ?_, rfl⟩
    exact withMessageModule_eq_error_iff.mpr ⟨nonempty, _, unread, rfl⟩
  | noFile => rfl
  | unreadable nonempty unread =>
    change options.withMappingFile texts value = _
    rw [withMappingFile_of_nonempty nonempty, CrateMap.load, unread]
    rfl
  | malformed nonempty read unparsed =>
    change options.withMappingFile texts value = _
    rw [withMappingFile_of_nonempty nonempty, CrateMap.load, read]
    exact map_eq_error_iff.mpr unparsed
  | notBoolean switch neither =>
    rcases switch with rfl | rfl
    · rw [apply, switch_of_neither neither]
      rfl
    · rw [apply, switch_of_neither neither]
      rfl
  | unknown unknown => exact apply_of_unknown unknown texts options value

end Setting

section Last
variable {α : Type} {segments others : List Segment} {key : String} {sets : String → α → Prop}
  {first second third : α}

theorem lastSets_append (h : LastSets segments key sets first second)
    (hothers : LastSets others key sets second third) :
    LastSets (segments ++ others) key sets first third := by
  unfold LastSets at *
  rw [List.filter_append, List.getLast?_append]
  cases hlast : (others.filter fun segment => segment.key == key).getLast? with
  | some segment =>
    rw [hlast] at hothers
    exact hothers
  | none =>
    rw [hlast] at hothers
    rw [Option.none_or, show third = second from hothers]
    exact h

theorem lastSets_of_eq {segment : Segment} (hkey : segment.key = key)
    (h : sets segment.value second) : LastSets [segment] key sets first second := by
  rw [LastSets, List.filter_cons_of_pos (by simpa using hkey)]
  exact h

theorem lastSets_of_ne {segment : Segment} (hkey : segment.key ≠ key) :
    LastSets [segment] key sets first first := by
  rw [LastSets, List.filter_cons_of_neg (by simpa using hkey)]
  rfl

theorem LastSets.unique (h : LastSets segments key sets first second)
    (hother : LastSets segments key sets first third)
    (hunique : ∀ {text a b}, sets text a → sets text b → a = b) : second = third := by
  unfold LastSets at h hother
  split at h
  · rename_i segment hlast
    rw [hlast] at hother
    exact hunique h hother
  · rename_i hlast
    rw [hlast] at hother
    exact h.trans hother.symm

theorem Reordered.lastSets (h : Reordered segments others)
    (hlast : LastSets segments key sets first second) :
    LastSets others key sets first second := by
  rwa [LastSets, ← h key]

end Last

section Run
variable {texts : Texts} {segments others : List Segment} {start middle options : Options}

theorem AreSet.append (h : AreSet texts segments start middle)
    (hothers : AreSet texts others middle options) :
    AreSet texts (segments ++ others) start options where
  messageModule := lastSets_append h.messageModule hothers.messageModule
  crates := lastSets_append h.crates hothers.crates
  buildClient := lastSets_append h.buildClient hothers.buildClient
  buildServer := lastSets_append h.buildServer hothers.buildServer
  crateFiles := hothers.crateFiles.trans h.crateFiles

theorem apply_of_valid {segment : Segment} (h : IsValid texts segment.key segment.value)
    (start : Options) : ∃ options, start.apply texts segment.toParameter = .ok options ∧
      AreSet texts [segment] start options := by
  obtain ⟨⟨key, value⟩, text⟩ := segment
  cases h with
  | @messageModule _ path named =>
    refine ⟨{ start with messageModule := path }, ?_, ?_⟩
    · exact mapError_eq_ok_iff.mpr (withMessageModule_eq_ok_iff.mpr ⟨path, named, rfl⟩)
    · exact ⟨lastSets_of_eq rfl named, lastSets_of_ne (by simp), lastSets_of_ne (by simp),
        lastSets_of_ne (by simp), rfl⟩
  | @crates _ crates loads =>
    obtain ⟨content, hread, hparse⟩ := loads.parsed
    refine ⟨{ start with crates := crates }, ?_, ?_⟩
    · change start.withMappingFile texts value = _
      rw [withMappingFile_of_nonempty loads.nonempty, CrateMap.load, hread]
      exact map_eq_ok_iff.mpr ⟨crates, hparse, rfl⟩
    · exact ⟨lastSets_of_ne (by simp), lastSets_of_eq rfl loads, lastSets_of_ne (by simp),
        lastSets_of_ne (by simp), rfl⟩
  | @buildClient _ on switch =>
    refine ⟨{ start with buildClient := on }, ?_, ?_⟩
    · rw [apply, switch_of_isSwitch switch]
      rfl
    · exact ⟨lastSets_of_ne (by simp), lastSets_of_ne (by simp), lastSets_of_eq rfl switch,
        lastSets_of_ne (by simp), rfl⟩
  | @buildServer _ on switch =>
    refine ⟨{ start with buildServer := on }, ?_, ?_⟩
    · rw [apply, switch_of_isSwitch switch]
      rfl
    · exact ⟨lastSets_of_ne (by simp), lastSets_of_ne (by simp), lastSets_of_ne (by simp),
        lastSets_of_eq rfl switch, rfl⟩

theorem foldlM_of_valid (h : ∀ segment ∈ segments, IsValid texts segment.key segment.value)
    (start : Options) :
    ∃ options, (segments.map Segment.toParameter).foldlM (apply texts) start = .ok options ∧
      AreSet texts segments start options := by
  induction segments generalizing start with
  | nil => exact ⟨start, rfl, rfl, rfl, rfl, rfl, rfl⟩
  | cons segment segments ih =>
    rw [List.forall_mem_cons] at h
    obtain ⟨middle, happly, hfirst⟩ := apply_of_valid h.1 start
    obtain ⟨options, hrun, hrest⟩ := ih h.2 middle
    refine ⟨options, ?_, hfirst.append hrest⟩
    rw [List.map_cons, List.foldlM_cons, happly]
    exact hrun

theorem foldlM_of_refused {before after : List Segment} {segment : Segment} {error : Error}
    (hvalid : ∀ other ∈ before, IsValid texts other.key other.value)
    (hrefused : IsRefused texts segment.key segment.value error) (start : Options) :
    ((before ++ segment :: after).map Segment.toParameter).foldlM (apply texts) start =
      .error error := by
  obtain ⟨middle, hrun, -⟩ := foldlM_of_valid hvalid start
  rw [List.map_append, List.foldlM_append, hrun, List.map_cons]
  change (middle.apply texts segment.toParameter >>= _) = _
  rw [apply_of_refused hrefused middle]
  rfl

theorem namesModule_unique {text : String} {path other : Path} (h : NamesModule text path)
    (hother : NamesModule text other) : path = other := by
  rcases h with ⟨rfl, rfl⟩ | h
  · rcases hother with ⟨-, rfl⟩ | hother
    · rfl
    · exact absurd hother (not_spells_empty other)
  · rcases hother with ⟨rfl, -⟩ | hother
    · exact absurd h (not_spells_empty path)
    · rw [← Path.ofText?_eq_ok_iff] at h hother
      exact Except.ok.inj (h.symm.trans hother)

theorem Loads.unique {path : String} {crates other : CrateMap} (h : Loads texts path crates)
    (hother : Loads texts path other) : crates = other := by
  obtain ⟨content, hread, hparse⟩ := h.parsed
  obtain ⟨content', hread', hparse'⟩ := hother.parsed
  obtain rfl : content = content' := Except.ok.inj (hread.symm.trans hread')
  exact Except.ok.inj (hparse.symm.trans hparse')

theorem IsSwitch.unique {value : String} {on other : Bool} (h : IsSwitch value on)
    (hother : IsSwitch value other) : on = other := by
  have hswitch := switch_of_isSwitch h ""
  rw [switch_of_isSwitch hother ""] at hswitch
  exact (Except.ok.inj hswitch).symm

theorem AreSet.unique {other : Options} (h : AreSet texts segments start options)
    (hother : AreSet texts segments start other) : options = other := by
  obtain ⟨messageModule, crates, crateFiles, buildClient, buildServer⟩ := options
  obtain ⟨otherModule, otherCrates, otherFiles, otherClient, otherServer⟩ := other
  obtain rfl : messageModule = otherModule :=
    h.messageModule.unique hother.messageModule namesModule_unique
  obtain rfl : crates = otherCrates := h.crates.unique hother.crates Loads.unique
  obtain rfl : buildClient = otherClient :=
    h.buildClient.unique hother.buildClient IsSwitch.unique
  obtain rfl : buildServer = otherServer :=
    h.buildServer.unique hother.buildServer IsSwitch.unique
  obtain rfl : crateFiles = otherFiles := h.crateFiles.trans hother.crateFiles.symm
  rfl

theorem reordered_swap {segment other : Segment} (before after : List Segment)
    (h : segment.key ≠ other.key) :
    Reordered (before ++ segment :: other :: after) (before ++ other :: segment :: after) := by
  intro key
  by_cases hkey : segment.key = key
  · have hother : other.key ≠ key := fun hother => h (hkey.trans hother.symm)
    simp [hkey, hother]
  · by_cases hother : other.key = key
    · simp [hkey, hother]
    · simp [hkey, hother]

theorem Reordered.areSet (h : Reordered segments others)
    (hset : AreSet texts segments start options) : AreSet texts others start options where
  messageModule := h.lastSets hset.messageModule
  crates := h.lastSets hset.crates
  buildClient := h.lastSets hset.buildClient
  buildServer := h.lastSets hset.buildServer
  crateFiles := hset.crateFiles

theorem Reordered.mem {segment : Segment} (h : Reordered segments others)
    (hmem : segment ∈ others) : segment ∈ segments := by
  have hkeyed : segment ∈ others.filter fun other => other.key == segment.key :=
    List.mem_filter.mpr ⟨hmem, by simp⟩
  rw [← h segment.key] at hkeyed
  exact List.mem_of_mem_filter hkeyed

end Run

section Parse
variable {texts : Texts} {text : String} {segments : List Segment}

theorem IsValid.key_ne {key value : String} (h : IsValid texts key value) : key ≠ "" := by
  cases h <;> simp

theorem AreSegments.parse_of_keyed (h : AreSegments text segments)
    (hkeyed : ∀ segment ∈ segments, segment.key ≠ "") :
    parse texts text = (segments.map Segment.toParameter).foldlM (apply texts) {} := by
  rw [parse, h.parseAll_of_keyed hkeyed]
  rfl

theorem AreSegments.parse_of_valid (h : AreSegments text segments)
    (hvalid : ∀ segment ∈ segments, IsValid texts segment.key segment.value) :
    ∃ options, parse texts text = .ok options ∧ AreSet texts segments {} options := by
  rw [h.parse_of_keyed fun segment hs => (hvalid segment hs).key_ne]
  exact foldlM_of_valid hvalid {}

theorem AreSegments.parse_of_fails {error : Error} (h : AreSegments text segments)
    (hfails : Fails texts segments error) : parse texts text = .error error := by
  cases hfails with
  | noKey split keyed missing =>
    rw [parse, h.parseAll_of_missing split keyed missing]
    rfl
  | invalid keyed split valid refused =>
    rw [h.parse_of_keyed keyed, split]
    exact foldlM_of_refused valid refused {}

theorem valid_or_fails (texts : Texts) (segments : List Segment) :
    (∀ segment ∈ segments, IsValid texts segment.key segment.value) ∨
      ∃ error, Fails texts segments error := by
  rcases forall_or_first (fun segment => segment.key ≠ "") segments with
    hkeyed | ⟨before, segment, after, hsplit, hbefore, hmissing⟩
  · rcases forall_or_first (fun segment => IsValid texts segment.key segment.value) segments with
      hvalid | ⟨before, segment, after, hsplit, hbefore, hinvalid⟩
    · exact .inl hvalid
    · obtain ⟨error, hrefused⟩ :=
        (valid_or_refused texts segment.key segment.value).resolve_left hinvalid
      exact .inr ⟨error, .invalid hkeyed hsplit hbefore hrefused⟩
  · exact .inr ⟨_, .noKey hsplit hbefore (not_not.mp hmissing)⟩

theorem AreSegments.parse_eq_error_iff (h : AreSegments text segments) {error : Error} :
    parse texts text = .error error ↔ Fails texts segments error := by
  constructor
  · intro hparse
    rcases valid_or_fails texts segments with hvalid | ⟨found, hfails⟩
    · obtain ⟨options, hok, -⟩ := h.parse_of_valid hvalid
      rw [hok] at hparse
      cases hparse
    · obtain rfl : found = error := Except.error.inj ((h.parse_of_fails hfails).symm.trans hparse)
      exact hfails
  · exact h.parse_of_fails

theorem AreSegments.valid_of_parse {options : Options} (h : AreSegments text segments)
    (hparse : parse texts text = .ok options) :
    ∀ segment ∈ segments, IsValid texts segment.key segment.value := by
  rcases valid_or_fails texts segments with hvalid | ⟨error, hfails⟩
  · exact hvalid
  · rw [h.parse_of_fails hfails] at hparse
    cases hparse

theorem AreSegments.areSet_of_parse {options : Options} (h : AreSegments text segments)
    (hparse : parse texts text = .ok options) : AreSet texts segments {} options := by
  obtain ⟨found, hfound, hset⟩ := h.parse_of_valid (h.valid_of_parse hparse)
  obtain rfl : found = options := Except.ok.inj (hfound.symm.trans hparse)
  exact hset

theorem AreSegments.parse_of_reordered {other : String} {others : List Segment} {options : Options}
    (h : AreSegments text segments) (hothers : AreSegments other others)
    (hreordered : Reordered segments others) (hparse : parse texts text = .ok options) :
    parse texts other = .ok options := by
  have hvalid := h.valid_of_parse hparse
  -- The other string is read too, and the same last segments determine its options.
  obtain ⟨found, hfound, hset⟩ :=
    hothers.parse_of_valid fun segment hs => hvalid segment (hreordered.mem hs)
  obtain rfl : found = options := hset.unique (hreordered.areSet (h.areSet_of_parse hparse))
  exact hfound

theorem parse_meaning (texts : Texts) (text : String) :
    ∃ segments, (∀ found, AreSegments text found ↔ found = segments) ∧
      ((∃ options, parse texts text = .ok options) ↔
        ∀ segment ∈ segments, IsValid texts segment.key segment.value) ∧
      (∀ options, parse texts text = .ok options → AreSet texts segments {} options) ∧
      (∀ error, parse texts text = .error error ↔ Fails texts segments error) ∧
      ∀ other others options, AreSegments other others → Reordered segments others →
        parse texts text = .ok options → parse texts other = .ok options := by
  have h : AreSegments text ((Parameter.segments text).map Segment.ofText) :=
    areSegments_iff.mpr rfl
  refine ⟨_, fun _ => areSegments_iff, ?_, fun _ => h.areSet_of_parse,
    fun _ => h.parse_eq_error_iff, fun _ _ _ => h.parse_of_reordered⟩
  constructor
  · rintro ⟨options, hparse⟩
    exact h.valid_of_parse hparse
  · intro hvalid
    obtain ⟨options, hparse, -⟩ := h.parse_of_valid hvalid
    exact ⟨options, hparse⟩

/-- The segment between one that is overridden and the one that overrides it moves to the front. -/
theorem parse_meaning_swapped :
    parse (fun _ => .error "") "build_client,,build_server, build_client = false" =
      .ok { buildClient := false } ∧
    parse (fun _ => .error "") "build_server,build_client, build_client = false" =
      .ok { buildClient := false } := by
  let bare : Segment := .ofText "build_client".toList
  let server : Segment := .ofText "build_server".toList
  let off : Segment := .ofText " build_client = false".toList
  have hsegments : AreSegments "build_client,,build_server, build_client = false"
      [bare, server, off] := areSegments_iff.mpr rfl
  have hothers : AreSegments "build_server,build_client, build_client = false"
      [server, bare, off] := areSegments_iff.mpr rfl
  have hne : bare.key ≠ server.key := by decide
  have hparse : parse (fun _ => .error "") "build_client,,build_server, build_client = false" =
      .ok { buildClient := false } := rfl
  obtain ⟨segments, hunique, -, -, -, hreordered⟩ :=
    parse_meaning (fun _ => .error "") "build_client,,build_server, build_client = false"
  obtain rfl := (hunique _).mp hsegments
  exact ⟨hparse, hreordered _ _ _ hothers (reordered_swap [] [off] hne) hparse⟩

end Parse

end GrpcStubs.Options
