import GrpcStubs.CrateMap
import GrpcStubs.Proofs.Blanks
import GrpcStubs.Proofs.Lines
import GrpcStubs.Proofs.Sequencing
import Mathlib.Data.List.Dedup

set_option autoImplicit false

namespace GrpcStubs.CrateMap
open Text

/-- A line that writes a count: ASCII digits after at most one plus sign. -/
def IsCount (line : String) (n : Nat) : Prop :=
  ∃ sign digits, line.toList = sign ++ digits ∧ (sign = [] ∨ sign = ['+']) ∧ digits ≠ [] ∧
    (∀ d ∈ digits, d.isDigit = true) ∧ Nat.ofDigitChars 10 digits 0 = n ∧ n < UInt64.size

theorem parseDigits_eq_some_iff {digits : List Char} {n : Nat} :
    parseDigits digits = some n ↔ digits ≠ [] ∧ (∀ d ∈ digits, d.isDigit = true) ∧
      Nat.ofDigitChars 10 digits 0 = n ∧ n < UInt64.size := by
  have hvalue : decimalValue digits = Nat.ofDigitChars 10 digits 0 := rfl
  rw [parseDigits, hvalue]
  constructor
  · intro h
    split at h
    · cases h
    · rename_i hbad
      obtain rfl := Option.some.inj h
      simpa [and_assoc] using hbad
  · rintro ⟨hne, hdigits, rfl, hlt⟩
    rw [if_neg (by simpa [hne] using ⟨hdigits, hlt⟩)]

theorem parseCount_eq_some_iff {line : String} {n : Nat} :
    parseCount line.toList = some n ↔ IsCount line n := by
  unfold IsCount
  constructor
  · intro h
    unfold parseCount at h
    split at h
    · rename_i digits heq
      exact ⟨['+'], digits, heq, .inr rfl, parseDigits_eq_some_iff.mp h⟩
    · exact ⟨[], _, rfl, .inl rfl, parseDigits_eq_some_iff.mp h⟩
  · rintro ⟨sign, digits, hline, hsign | hsign, hdigits⟩
    · rw [hline, hsign, List.nil_append, parseCount]
      · exact parseDigits_eq_some_iff.mpr hdigits
      · rintro rest rfl
        exact absurd (hdigits.2.1 '+' List.mem_cons_self) (by decide)
    · rw [hline, hsign, List.singleton_append, parseCount]
      exact parseDigits_eq_some_iff.mpr hdigits

theorem isCount_repr {n : Nat} (h : n < UInt64.size) : IsCount (toString n) n := by
  refine ⟨[], Nat.toDigits 10 n, Nat.toList_repr, .inl rfl, Nat.toDigits_ne_nil, ?_, ?_, h⟩
  · exact fun d => Nat.isDigit_of_mem_toDigits (by decide) (by decide)
  · exact Nat.ofDigitChars_toDigits (by decide) (by decide)

/-- The lines of groups: for each a crate, the number of its files and the files. -/
inductive Lists : List Group → List String → Prop where
  | nil : Lists [] []
  | cons {group : Group} {count : String} {groups : List Group} {lines : List String}
    (counts : IsCount count group.files.length) (rest : Lists groups lines) :
    Lists (group :: groups) (group.crate :: count :: (group.files ++ lines))

inductive Incomplete : List String → String → Prop where
  | missingCount (crate : String) :
    Incomplete [crate] ("missing file count for crate `" ++ crate ++ "`")
  | badCount {crate line : String} {rest : List String} (bad : ∀ n, ¬ IsCount line n) :
    Incomplete (crate :: line :: rest)
      ("couldn't parse number of import paths for crate `" ++ crate ++ "`: `" ++ line ++ "`")
  | missingFiles {crate line : String} {rest : List String} {n : Nat} (counts : IsCount line n)
    (short : rest.length < n) :
    Incomplete (crate :: line :: rest)
      ("crate `" ++ crate ++ "` lists " ++ toString n ++ " files but only " ++
        toString rest.length ++ " are present")

def BreaksOff (lines : List String) (detail : String) : Prop :=
  ∃ complete before rest, lines = before ++ rest ∧ Lists complete before ∧ Incomplete rest detail

theorem groups_of_count {crate line : String} {rest : List String} {n : Nat}
    (h : IsCount line n) (hlength : n ≤ rest.length) :
    groups (crate :: line :: rest) = (groups (rest.drop n)).map (⟨crate, rest.take n⟩ :: ·) := by
  rw [groups, parseCount_eq_some_iff.mpr h]
  exact if_neg (Nat.not_lt.mpr hlength)

theorem groups_append {complete : List Group} {before : List String} (h : Lists complete before)
    (rest : List String) : groups (before ++ rest) = (groups rest).map (complete ++ ·) := by
  induction h with
  | nil =>
    rw [List.nil_append]
    cases groups rest <;> rfl
  | @cons group count others lines counts _ ih =>
    rw [List.cons_append, List.cons_append, List.append_assoc,
      groups_of_count counts (by simp), List.drop_left, List.take_left, ih]
    cases groups rest <;> rfl

theorem groups_of_incomplete {lines : List String} {detail : String} (h : Incomplete lines detail) :
    ∃ fault, groups lines = .error fault ∧ fault.message = detail := by
  cases h with
  | missingCount crate => exact ⟨.missingCount crate, by rw [groups], rfl⟩
  | @badCount crate line rest bad =>
    have hnone : parseCount line.toList = none :=
      Option.eq_none_iff_forall_ne_some.mpr fun n hn => bad n (parseCount_eq_some_iff.mp hn)
    exact ⟨.badCount crate line, by rw [groups, hnone], rfl⟩
  | @missingFiles crate line rest n counts short =>
    refine ⟨.missingFiles crate n rest.length, ?_, rfl⟩
    rw [groups, parseCount_eq_some_iff.mpr counts]
    exact if_pos short

theorem lists_or_breaksOff (lines : List String) :
    (∃ found, Lists found lines) ∨ ∃ detail, BreaksOff lines detail := by
  -- The cases are those of the reader: in the last one the lines after a complete group decide.
  induction lines using groups.induct with
  | case1 => exact .inl ⟨[], .nil⟩
  | case2 crate => exact .inr ⟨_, [], [], _, rfl, .nil, .missingCount crate⟩
  | case3 crate line rest hnone =>
    refine .inr ⟨_, [], [], _, rfl, .nil, .badCount fun n hn => ?_⟩
    rw [parseCount_eq_some_iff.mpr hn] at hnone
    cases hnone
  | case4 crate line rest count hcount hshort =>
    exact .inr ⟨_, [], [], _, rfl, .nil, .missingFiles (parseCount_eq_some_iff.mp hcount) hshort⟩
  | case5 crate line rest count hcount hlong ih =>
    have hcounts : IsCount line (rest.take count).length := by
      rw [List.length_take_of_le (Nat.not_lt.mp hlong)]
      exact parseCount_eq_some_iff.mp hcount
    have hlists : ∀ {found : List Group} {lines : List String}, Lists found lines →
        Lists (⟨crate, rest.take count⟩ :: found) (crate :: line :: (rest.take count ++ lines)) :=
      fun h => .cons hcounts h
    rcases ih with ⟨found, hfound⟩ | ⟨detail, complete, before, after, hsplit, hcomplete, hafter⟩
    · have hall := hlists hfound
      rw [List.take_append_drop] at hall
      exact .inl ⟨_, hall⟩
    · refine .inr ⟨detail, _, _, after, ?_, hlists hcomplete, hafter⟩
      rw [List.cons_append, List.cons_append, List.append_assoc, ← hsplit, List.take_append_drop]

theorem groups_of_lists {found : List Group} {lines : List String} (h : Lists found lines) :
    groups lines = .ok found := by
  have happend := groups_append h []
  rw [List.append_nil] at happend
  rw [happend, groups]
  exact congrArg Except.ok (List.append_nil found)

theorem groups_of_breaksOff {lines : List String} {detail : String} (h : BreaksOff lines detail) :
    ∃ fault, groups lines = .error fault ∧ fault.message = detail := by
  obtain ⟨complete, before, rest, rfl, hcomplete, hrest⟩ := h
  obtain ⟨fault, hfault, hmessage⟩ := groups_of_incomplete hrest
  exact ⟨fault, by rw [groups_append hcomplete, hfault]; rfl, hmessage⟩

theorem Lists.unique {found other : List Group} {lines : List String} (hfound : Lists found lines)
    (hother : Lists other lines) : found = other :=
  Except.ok.inj ((groups_of_lists hfound).symm.trans (groups_of_lists hother))

/-- The map that gives each file the crate of the first group that lists it, and no other file a
    crate. -/
structure FirstWins (listed : List Group) (crates : CrateMap) : Prop where
  get?_eq : ∀ file, crates.get? file =
    (listed.find? fun group => group.files.contains file).map Group.crate
  size_eq : crates.size = (listed.flatMap Group.files).dedup.length

theorem get?_insertGroup (crates : CrateMap) (group : Group) (file : String) :
    (crates.insertGroup group).get? file =
      if file ∈ group.files then some ((crates.get? file).getD group.crate)
      else crates.get? file := by
  unfold insertGroup
  induction group.files generalizing crates with
  | nil => simp
  | cons first files ih =>
    rw [List.foldl_cons, ih, get?_insert]
    by_cases hfirst : file = first
    · simp [hfirst]
    · simp [hfirst]

theorem get?_foldl (listed : List Group) (crates : CrateMap) (file : String) :
    (listed.foldl insertGroup crates).get? file =
      (crates.get? file).or
        ((listed.find? fun group => group.files.contains file).map Group.crate) := by
  induction listed generalizing crates with
  | nil => simp
  | cons group listed ih =>
    rw [List.foldl_cons, ih, get?_insertGroup, List.find?_cons]
    by_cases hfile : file ∈ group.files
    · have hcontains : group.files.contains file = true := List.contains_iff_mem.mpr hfile
      rw [if_pos hfile, hcontains]
      cases crates.get? file <;> rfl
    · have hcontains : group.files.contains file = false := by simpa using hfile
      rw [if_neg hfile, hcontains]

theorem firstWins_ofGroups (listed : List Group) : FirstWins listed (ofGroups listed) := by
  have hget : ∀ file, (ofGroups listed).get? file =
      (listed.find? fun group => group.files.contains file).map Group.crate := by
    intro file
    rw [ofGroups, get?_foldl]
    rfl
  refine ⟨hget, ?_⟩
  have hmem : ∀ file, file ∈ (ofGroups listed).entries.map Prod.fst ↔
      file ∈ (listed.flatMap Group.files).dedup := by
    intro file
    rw [← not_iff_not, ← get?_eq_none_iff, hget, Option.map_eq_none_iff, List.find?_eq_none,
      List.mem_dedup, List.mem_flatMap]
    simp
  have hperm := (List.perm_ext_iff_of_nodup (ofGroups listed).nodup (List.nodup_dedup _)).mpr hmem
  rw [size, ← hperm.length_eq, List.length_map]

def trimmedLines (text : String) : List String :=
  (((splitAt '\n' text.toList).map trim).filter fun line => !line.isEmpty).map String.ofList

theorem trim_dropReturn (line : List Char) : trim (dropReturn line) = trim line := by
  unfold dropReturn
  cases hend : beforeEnd ['\r'] line with
  | none => rfl
  | some front =>
    have hblank : ∀ c ∈ ['\r'], isBlank c = true := List.forall_mem_singleton.mpr rfl
    rw [beforeEnd_eq_some_iff.mp hend, Option.getD_some]
    exact (trim_append (fun c hc => absurd hc List.not_mem_nil) hblank front).symm

theorem filter_trim_closeLines (pieces : List (List Char)) :
    ((closeLines pieces).map trim).filter (fun line => !line.isEmpty) =
      (pieces.map trim).filter fun line => !line.isEmpty := by
  induction pieces with
  | nil => rfl
  | cons piece rest ih =>
    cases rest with
    | nil =>
      rw [closeLines]
      split
      · rename_i hempty
        rw [List.isEmpty_iff.mp hempty]
        rfl
      · rfl
    | cons next rest =>
      rw [closeLines, List.map_cons, List.map_cons, List.filter_cons, List.filter_cons, ih,
        trim_dropReturn]

theorem contentLines_eq (text : String) : contentLines text = trimmedLines text := by
  rw [contentLines, lines, filter_trim_closeLines, trimmedLines]

structure IsName (name : String) : Prop where
  nonempty : name ≠ ""
  trimmed : trim name.toList = name.toList
  oneLine : '\n' ∉ name.toList

def IsSpace (cs : List Char) : Prop :=
  ∀ c ∈ cs, isBlank c = true ∧ c ≠ '\n'

instance (cs : List Char) : Decidable (IsSpace cs) :=
  decidable_of_iff (cs.all fun c => isBlank c && c != '\n') (by simp [IsSpace])

/-- Rows of a text in which the given lines stand, with blanks around them and blank rows among
    them. A carriage return at the end of a row is such a blank. -/
inductive Stand : List String → List (List Char) → Prop where
  | nil : Stand [] []
  | blank {row : List Char} {lines : List String} {rows : List (List Char)} (space : IsSpace row)
    (rest : Stand lines rows) : Stand lines (row :: rows)
  | line {front back : List Char} {line : String} {lines : List String} {rows : List (List Char)}
    (before : IsSpace front) (after : IsSpace back) (rest : Stand lines rows) :
    Stand (line :: lines) ((front ++ line.toList ++ back) :: rows)

def textOf (rows : List (List Char)) : String :=
  .ofList (['\n'].intercalate rows)

theorem IsSpace.blank {cs : List Char} (h : IsSpace cs) : ∀ c ∈ cs, isBlank c = true :=
  fun c hc => (h c hc).1

theorem IsSpace.oneLine {cs : List Char} (h : IsSpace cs) : '\n' ∉ cs :=
  fun hmem => (h _ hmem).2 rfl

theorem Stand.oneLine {lines : List String} {rows : List (List Char)} (h : Stand lines rows)
    (hnames : ∀ line ∈ lines, IsName line) : ∀ row ∈ rows, '\n' ∉ row := by
  induction h with
  | nil => exact fun row hrow => absurd hrow List.not_mem_nil
  | blank space _ ih => exact List.forall_mem_cons.mpr ⟨space.oneLine, ih hnames⟩
  | line before after _ ih =>
    rw [List.forall_mem_cons] at hnames
    refine List.forall_mem_cons.mpr ⟨?_, ih hnames.2⟩
    simp only [List.mem_append, not_or]
    exact ⟨⟨before.oneLine, hnames.1.oneLine⟩, after.oneLine⟩

theorem Stand.filter_trim {lines : List String} {rows : List (List Char)} (h : Stand lines rows)
    (hnames : ∀ line ∈ lines, IsName line) :
    ((rows.map trim).filter fun row => !row.isEmpty).map String.ofList = lines := by
  induction h with
  | nil => rfl
  | @blank row lines rows space _ ih =>
    rw [List.map_cons, trim_of_blank space.blank, List.filter_cons_of_neg (by simp), ih hnames]
  | @line front back line lines rows before after _ ih =>
    rw [List.forall_mem_cons] at hnames
    have hrow : trim (front ++ line.toList ++ back) = line.toList := by
      rw [trim_append before.blank after.blank, hnames.1.trimmed]
    have hne : (!line.toList.isEmpty) = true := by
      simpa using hnames.1.nonempty
    rw [List.map_cons, hrow, List.filter_cons, if_pos hne, List.map_cons, String.ofList_toList,
      ih hnames.2]

theorem Stand.trimmedLines_eq {lines : List String} {rows : List (List Char)}
    (h : Stand lines rows) (hnames : ∀ line ∈ lines, IsName line) :
    trimmedLines (textOf rows) = lines := by
  rw [trimmedLines, textOf, String.toList_ofList]
  cases rows with
  | nil =>
    cases h
    rfl
  | cons row rows =>
    rw [splitAt_intercalate (List.cons_ne_nil row rows) (h.oneLine hnames)]
    exact h.filter_trim hnames

structure Group.IsWritable (group : Group) : Prop where
  crate : IsName group.crate
  files : ∀ file ∈ group.files, IsName file
  countable : group.files.length < UInt64.size

/-- Writable groups are those of some lines, such as those with the counts in decimal. -/
theorem exists_lists {listed : List Group} (h : ∀ group ∈ listed, group.IsWritable) :
    ∃ lines, Lists listed lines := by
  induction listed with
  | nil => exact ⟨[], .nil⟩
  | cons group listed ih =>
    rw [List.forall_mem_cons] at h
    obtain ⟨lines, hlines⟩ := ih h.2
    exact ⟨_, .cons (isCount_repr h.1.countable) hlines⟩

theorem IsCount.isName {line : String} {n : Nat} (h : IsCount line n) : IsName line := by
  obtain ⟨sign, digits, hline, hsign, hne, hdigits, -⟩ := h
  have hchars : ∀ c ∈ line.toList, isBlank c = false := by
    rw [hline]
    refine List.forall_mem_append.mpr ⟨?_, fun c hc => isBlank_of_isDigit (hdigits c hc)⟩
    rcases hsign with rfl | rfl
    · exact fun c hc => absurd hc List.not_mem_nil
    · exact List.forall_mem_singleton.mpr rfl
  refine ⟨?_, trim_of_not_blank hchars, fun hmem => absurd (hchars _ hmem) (by decide)⟩
  rintro rfl
  exact hne (List.append_eq_nil_iff.mp hline.symm).2

theorem Lists.isName {listed : List Group} {lines : List String} (h : Lists listed lines)
    (hwritable : ∀ group ∈ listed, group.IsWritable) : ∀ line ∈ lines, IsName line := by
  induction h with
  | nil => exact fun line hline => absurd hline List.not_mem_nil
  | cons counts _ ih =>
    rw [List.forall_mem_cons] at hwritable
    rw [List.forall_mem_cons, List.forall_mem_cons, List.forall_mem_append]
    exact ⟨hwritable.1.crate, counts.isName, hwritable.1.files, ih hwritable.2⟩

theorem parse_of_lists {text : String} {listed : List Group}
    (h : Lists listed (trimmedLines text)) : parse text = .ok (ofGroups listed) := by
  rw [parse, contentLines_eq, groups_of_lists h]

theorem parse_of_breaksOff {text detail : String} (h : BreaksOff (trimmedLines text) detail) :
    parse text = .error (.malformedMapping detail) := by
  obtain ⟨fault, hfault, rfl⟩ := groups_of_breaksOff h
  rw [parse, contentLines_eq, hfault]

/-- A text is read as a crate map just if its lines are those of groups. The groups are determined,
    and a file belongs to the first that lists it. Any other text is refused for its first group
    that is not complete. Groups that are written out are read back. -/
theorem parse_exact (text : String) :
    ((∃ crates, parse text = .ok crates) ↔ ∃ listed, Lists listed (trimmedLines text)) ∧
    (∀ listed, Lists listed (trimmedLines text) →
      (∀ other, Lists other (trimmedLines text) → other = listed) ∧
        ∃ crates, parse text = .ok crates ∧ FirstWins listed crates) ∧
    (∀ error, parse text = .error error ↔
      ∃ detail, BreaksOff (trimmedLines text) detail ∧ error = .malformedMapping detail) ∧
    (∀ listed, (∀ group ∈ listed, group.IsWritable) →
      (∃ lines, Lists listed lines) ∧
        ∀ lines rows, Lists listed lines → Stand lines rows → text = textOf rows →
          ∃ crates, parse text = .ok crates ∧ FirstWins listed crates) := by
  have hread : ∀ listed, Lists listed (trimmedLines text) →
      ∃ crates, parse text = .ok crates ∧ FirstWins listed crates := fun listed h =>
    ⟨ofGroups listed, parse_of_lists h, firstWins_ofGroups listed⟩
  refine ⟨⟨fun ⟨crates, hcrates⟩ => ?_, fun ⟨listed, h⟩ => ⟨_, parse_of_lists h⟩⟩,
    fun listed h => ⟨fun other hother => hother.unique h, hread listed h⟩,
    fun error => ⟨fun herror => ?_, ?_⟩, fun listed hwritable => ⟨exists_lists hwritable, ?_⟩⟩
  · refine (lists_or_breaksOff (trimmedLines text)).resolve_right ?_
    rintro ⟨detail, h⟩
    cases hcrates.symm.trans (parse_of_breaksOff h)
  · rcases lists_or_breaksOff (trimmedLines text) with ⟨listed, h⟩ | ⟨detail, h⟩
    · cases herror.symm.trans (parse_of_lists h)
    · exact ⟨detail, h, Except.error.inj (herror.symm.trans (parse_of_breaksOff h))⟩
  · rintro ⟨detail, h, rfl⟩
    exact parse_of_breaksOff h
  · rintro lines rows hlists hstand rfl
    refine hread listed ?_
    rw [hstand.trimmedLines_eq (hlists.isName hwritable)]
    exact hlists

/-- Two groups whose names look like counts and which share a file, on rows with blanks. -/
theorem parse_exact_numbers :
    let listed : List Group := [⟨"7", ["12", "b.proto"]⟩, ⟨"0", ["12"]⟩]
    let lines : List String := ["7", "+2", "12", "b.proto", "0", "01", "12"]
    let text := "\r\n 7 \r\n+2\r\n\t12\n\nb.proto\n0\n01\n12"
    ∃ rows, (∀ group ∈ listed, group.IsWritable) ∧ Lists listed lines ∧ Stand lines rows ∧
      text = textOf rows ∧
        ∃ crates, parse text = .ok crates ∧ crates.get? "12" = some "7" ∧ crates.size = 2 := by
  intro listed lines text
  have hwritable : ∀ group ∈ listed, group.IsWritable := by
    have hname : ∀ name ∈ ["7", "0", "12", "b.proto"], IsName name := by
      intro name hname
      simp only [List.mem_cons, List.not_mem_nil, or_false] at hname
      rcases hname with rfl | rfl | rfl | rfl <;> exact ⟨by decide, by decide, by decide⟩
    have hnames : ∀ group ∈ listed, ∀ name ∈ group.crate :: group.files,
        name ∈ ["7", "0", "12", "b.proto"] := by decide
    have hcounts : ∀ group ∈ listed, group.files.length < UInt64.size := by decide
    intro group hgroup
    have hgroupNames := List.forall_mem_cons.mp fun name hmem =>
      hname name (hnames group hgroup name hmem)
    exact ⟨hgroupNames.1, hgroupNames.2, hcounts group hgroup⟩
  have hlists : Lists listed lines :=
    .cons (parseCount_eq_some_iff.mp (by decide)) <|
      .cons (parseCount_eq_some_iff.mp (by decide)) .nil
  obtain ⟨rows, hstand, htext⟩ : ∃ rows, Stand lines rows ∧ text = textOf rows := by
    refine ⟨_, @Stand.blank ['\r'] _ _ (by decide) <|
      @Stand.line [' '] [' ', '\r'] "7" _ _ (by decide) (by decide) <|
      @Stand.line [] ['\r'] "+2" _ _ (by decide) (by decide) <|
      @Stand.line ['\t'] [] "12" _ _ (by decide) (by decide) <|
      @Stand.blank [] _ _ (by decide) <|
      @Stand.line [] [] "b.proto" _ _ (by decide) (by decide) <|
      @Stand.line [] [] "0" _ _ (by decide) (by decide) <|
      @Stand.line [] [] "01" _ _ (by decide) (by decide) <|
      @Stand.line [] [] "12" _ _ (by decide) (by decide) .nil, ?_⟩
    decide
  obtain ⟨crates, hparse, hfirst⟩ :=
    ((parse_exact text).2.2.2 listed hwritable).2 lines rows hlists hstand htext
  refine ⟨rows, hwritable, hlists, hstand, htext, crates, hparse, ?_, ?_⟩
  · rw [hfirst.get?_eq]
    decide
  · rw [hfirst.size_eq]
    decide

end GrpcStubs.CrateMap
