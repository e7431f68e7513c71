import GrpcStubs.Disk
import Mathlib.Logic.Function.Basic

set_option autoImplicit false

namespace GrpcStubs.Disk
open Text

namespace Entry

theorem find?_append (entry : Entry) (front rest : Location) :
    entry.find? (front ++ rest) = (entry.find? front).bind fun inner => inner.find? rest := by
  induction front generalizing entry with
  | nil => rfl
  | cons name names ih =>
    rw [List.cons_append, find?, find?]
    cases entry.entries.lookup name with
    | none => rfl
    | some inner => exact ih inner

theorem find?_of_entries_nil {entry : Entry} (h : entry.entries = []) {location : Location}
    (hne : location ≠ []) : entry.find? location = none := by
  cases location with
  | nil => exact absurd rfl hne
  | cons name names =>
    rw [find?, h]
    rfl

theorem find?_set_above (entry : Entry) (front : Location) {rest : Location} (new : Entry)
    (hne : rest ≠ []) :
    ∃ entries, (entry.set (front ++ rest) new).find? front = some (.directory entries) := by
  induction front generalizing entry with
  | nil =>
    cases rest with
    | nil => exact absurd rfl hne
    | cons name names => exact ⟨_, rfl⟩
  | cons name names ih =>
    rw [List.cons_append, set, find?, entries, lookup_put_self]
    exact ih _

end Entry

def files (disk : Disk) : Location → Option Bytes := fun location =>
  (disk.find? location).bind Entry.content?

/-- The names from the root after some pieces of a path, the last name first. -/
def follow (names : List String) : List String → List String
  | [] => names
  | piece :: pieces =>
    if piece = "" ∨ piece = "." then follow names pieces
    else if piece = ".." then follow names.tail pieces
    else follow (piece :: names) pieces

/-- The location that a path names, whatever is there. -/
def target (disk : Disk) (path : String) : Location :=
  (follow [] (disk.start path.toList ++ pieces path.toList)).reverse

/-- The trail of a walk from the root, through directories, to what is found there. -/
inductive Trail (root : Entry) : List (String × Entry) → Option Entry → Prop where
  | start : Trail root [] (some root)
  | down {trail : List (String × Entry)} {entries : List (String × Entry)} (name : String)
    (above : Trail root trail (some (.directory entries))) :
    Trail root ((name, .directory entries) :: trail) (entries.lookup name)

namespace Trail

def location (trail : List (String × Entry)) : Location :=
  (trail.map (·.1)).reverse

theorem location_cons (name : String) (above : Entry) (trail : List (String × Entry)) :
    location ((name, above) :: trail) = location trail ++ [name] :=
  List.reverse_cons

theorem up {root : Entry} {step : String × Entry} {trail : List (String × Entry)}
    {here : Option Entry} (h : Trail root (step :: trail) here) : Trail root trail (some step.2) := by
  cases h with
  | down name above => exact above

theorem find?_location {root : Entry} {trail : List (String × Entry)} {here : Option Entry}
    (h : Trail root trail here) : root.find? (location trail) = here := by
  induction h with
  | start => rfl
  | @down trail entries name _ ih =>
    rw [location_cons, Entry.find?_append, ih, Option.bind_some, Entry.find?, Entry.entries]
    cases entries.lookup name <;> rfl

theorem location_ne_nil {root : Entry} {trail : List (String × Entry)} {here : Option Entry}
    (h : Trail root trail here) (hroot : here ≠ some root) : location trail ≠ [] := by
  cases h with
  | start => exact absurd rfl hroot
  | down name above => simp [location_cons]

theorem find?_above {root : Entry} {trail : List (String × Entry)} {here : Option Entry}
    (h : Trail root trail here) {front rest : Location} (hsplit : location trail = front ++ rest)
    (hne : rest ≠ []) : ∃ entries, root.find? front = some (.directory entries) := by
  induction h generalizing front rest with
  | start =>
    have hrest := (List.append_eq_nil_iff.mp hsplit.symm).2
    exact absurd hrest hne
  | @down trail entries name above ih =>
    obtain ⟨rest, last, rfl⟩ := (List.eq_nil_or_concat rest).resolve_left hne
    rw [location_cons, List.concat_eq_append, ← List.append_assoc] at hsplit
    obtain ⟨hfront, -⟩ := List.append_inj' hsplit rfl
    cases rest with
    | nil =>
      rw [List.append_nil] at hfront
      exact ⟨entries, hfront ▸ above.find?_location⟩
    | cons first rest => exact ih hfront (List.cons_ne_nil first rest)

end Trail

theorem walk_eq_ok {root : Entry} {trail : List (String × Entry)} {here : Option Entry}
    {pieces : List String} {location : Location} (h : Trail root trail here)
    (hwalk : walk trail here pieces = .ok location) :
    ∃ last found, Trail root last found ∧ location = Trail.location last ∧
      last.map (·.1) = follow (trail.map (·.1)) pieces := by
  induction pieces generalizing trail here with
  | nil =>
    rw [walk] at hwalk
    cases hwalk
    exact ⟨trail, here, h, rfl, rfl⟩
  | cons piece pieces ih =>
    cases here with
    | none => cases hwalk
    | some entry =>
      cases entry with
      | file content => cases hwalk
      | directory entries =>
        unfold walk at hwalk
        dsimp only at hwalk
        rw [follow]
        split at hwalk
        · rename_i hsame
          rw [if_pos hsame]
          exact ih h hwalk
        · rename_i hsame
          rw [if_neg hsame]
          split at hwalk
          · rename_i hup
            rw [if_pos hup]
            cases trail with
            | nil => exact ih h hwalk
            | cons step trail => exact ih h.up hwalk
          · rename_i hup
            rw [if_neg hup]
            split at hwalk
            · cases hwalk
            · exact ih (.down piece h) hwalk

theorem locate_eq_ok {disk : Disk} {path : String} {location : Location}
    (h : disk.locate path = .ok location) :
    location = disk.target path ∧
      ∃ trail found, Trail disk.root trail found ∧ location = Trail.location trail := by
  unfold locate at h
  dsimp only at h
  split at h
  · cases h
  · split at h
    · cases h
    · split at h
      · cases h
      · obtain ⟨trail, found, htrail, rfl, hnames⟩ := walk_eq_ok .start h
        exact ⟨congrArg List.reverse hnames, trail, found, htrail, rfl⟩

/-- Something that holds nothing is put where nothing is held: only the file there changes. -/
theorem files_set {disk : Disk} {trail : List (String × Entry)} {found : Option Entry}
    (htrail : Trail disk.root trail found) (hne : Trail.location trail ≠ [])
    (hfound : ∀ entry ∈ found, entry.entries = []) {new : Entry} (hnew : new.entries = []) :
    (disk.set (Trail.location trail) new).files =
      Function.update disk.files (Trail.location trail) new.content? := by
  funext other
  unfold files find?
  rw [root_set disk new hne]
  by_cases hself : other = Trail.location trail
  · subst hself
    rw [Function.update_self, Entry.find?_set_self]
    rfl
  · rw [Function.update_of_ne hself]
    by_cases hbelow : Trail.location trail <+: other
    · obtain ⟨rest, rfl⟩ := hbelow
      have hrest : rest ≠ [] := fun hnil => hself (by rw [hnil, List.append_nil])
      rw [Entry.find?_append, Entry.find?_append, Entry.find?_set_self, htrail.find?_location,
        Option.bind_some, Entry.find?_of_entries_nil hnew hrest]
      cases found with
      | none => rfl
      | some entry => rw [Option.bind_some, Entry.find?_of_entries_nil (hfound entry rfl) hrest]
    · by_cases habove : other <+: Trail.location trail
      · obtain ⟨rest, hsplit⟩ := habove
        have hrest : rest ≠ [] := fun hnil => hself (by rw [← hsplit, hnil, List.append_nil])
        obtain ⟨entries, hentries⟩ := Entry.find?_set_above disk.root other new hrest
        obtain ⟨old, hold⟩ := htrail.find?_above hsplit.symm hrest
        rw [← hsplit, hentries, hold]
        rfl
      · rw [Entry.find?_set_of_apart _ _ hbelow habove]

theorem target_of_workingDirectory {disk other : Disk}
    (h : disk.workingDirectory = other.workingDirectory) (path : String) :
    disk.target path = other.target path := by
  rw [target, target, start, start, h]

/-- The same files, seen from the same directory. -/
structure SameFiles (disk next : Disk) : Prop where
  files : next.files = disk.files
  workingDirectory : next.workingDirectory = disk.workingDirectory

theorem SameFiles.trans {disk next last : Disk} (h : SameFiles disk next)
    (hlast : SameFiles next last) : SameFiles disk last :=
  ⟨hlast.files.trans h.files, hlast.workingDirectory.trans h.workingDirectory⟩

/-- The same files but for one, which has this content. -/
structure OneFile (disk : Disk) (path : String) (content : Bytes) (next : Disk) : Prop where
  files : next.files = Function.update disk.files (disk.target path) (some content)
  workingDirectory : next.workingDirectory = disk.workingDirectory

theorem set_of_locateFile {disk : Disk} {path : String} {location : Location}
    (h : disk.locateFile path = .ok location) (content : Bytes) :
    OneFile disk path content (disk.set location (.file content)) := by
  unfold locateFile at h
  cases hlocate : disk.locate path with
  | error fault => rw [hlocate] at h; cases h
  | ok found =>
    obtain ⟨htarget, trail, entry, htrail, rfl⟩ := locate_eq_ok hlocate
    have hfind : disk.find? (Trail.location trail) = entry := htrail.find?_location
    simp only [hlocate, bind, Except.bind, hfind] at h
    split at h
    · cases h
    · cases h
      refine ⟨?_, rfl⟩
      rw [← htarget]
      exact files_set htrail (htrail.location_ne_nil (by simp [root])) (by simp [Entry.entries]) rfl
    · cases h
      refine ⟨?_, rfl⟩
      rw [← htarget]
      exact files_set htrail (htrail.location_ne_nil (by simp)) (by simp) rfl

theorem write_cases {disk next : Disk} {path : String} {content : Bytes}
    {result : Except Fault Unit} (h : disk.write path content = (result, next)) :
    result = .ok () ∧ OneFile disk path content next ∨
      ∃ fault, result = .error fault ∧
        (SameFiles disk next ∨ ∃ count, OneFile disk path (content.take count) next) := by
  unfold write nextChange at h
  dsimp only at h
  -- refused before the file is opened, no such place, written, and refused half way
  split at h
  · cases h
    exact .inr ⟨_, rfl, .inl ⟨rfl, rfl⟩⟩
  · cases h
    exact .inr ⟨_, rfl, .inl ⟨rfl, rfl⟩⟩
  · rename_i hlocation
    cases h
    have hset := set_of_locateFile hlocation content
    exact .inl ⟨rfl, hset.files, hset.workingDirectory⟩
  · rename_i count location _ hlocation
    cases h
    have hset := set_of_locateFile hlocation (content.take count)
    exact .inr ⟨_, rfl, .inr ⟨count, hset.files, hset.workingDirectory⟩⟩

theorem set_empty_of_locate {disk : Disk} {path : String} {location : Location}
    (h : disk.locate path = .ok location) (hfree : disk.find? location = none) :
    SameFiles disk (disk.set location .empty) := by
  obtain ⟨-, trail, found, htrail, rfl⟩ := locate_eq_ok h
  have hfind : disk.find? (Trail.location trail) = found := htrail.find?_location
  obtain rfl := hfree.symm.trans hfind
  have hset : (disk.set (Trail.location trail) .empty).files =
      Function.update disk.files (Trail.location trail) Entry.empty.content? :=
    files_set htrail (htrail.location_ne_nil (by simp)) (by simp) rfl
  have hnone : disk.files (Trail.location trail) = Entry.empty.content? := by
    rw [files, hfree]
    rfl
  exact ⟨by rw [hset, ← hnone, Function.update_eq_self], rfl⟩

theorem createDirectory_files {disk next : Disk} {path : String} {result : Except Fault Unit}
    (h : disk.createDirectory path = (result, next)) : SameFiles disk next := by
  unfold createDirectory nextChange at h
  dsimp only at h
  split at h
  · cases h
    exact ⟨rfl, rfl⟩
  · cases h
    exact ⟨rfl, rfl⟩
  · rename_i hlocate
    split at h
    · cases h
      exact ⟨rfl, rfl⟩
    · rename_i hfree
      cases h
      have hset := set_empty_of_locate hlocate hfree
      exact ⟨hset.files, hset.workingDirectory⟩

theorem createNested_files {disk next : Disk} {paths : List String} {result : Except Fault Unit}
    (h : disk.createNested paths = (result, next)) : SameFiles disk next := by
  induction paths generalizing disk next result with
  | nil =>
    cases h
    exact ⟨rfl, rfl⟩
  | cons path around ih =>
    rw [createNested] at h
    split at h
    · cases h
      exact ⟨rfl, rfl⟩
    · split at h
      · rename_i hcreated
        cases h
        exact createDirectory_files hcreated
      · rename_i hmissing
        have hsame := createDirectory_files hmissing
        split at h
        · rename_i houter
          cases h
          exact hsame.trans (ih houter)
        · rename_i houter
          have hsame := hsame.trans (ih houter)
          split at h
          · rename_i hcreated
            cases h
            exact hsame.trans (createDirectory_files hcreated)
          · rename_i hrefused
            cases h
            exact hsame.trans (createDirectory_files hrefused)
      · rename_i hrefused
        cases h
        exact createDirectory_files hrefused

theorem createDirectories_files {disk next : Disk} {path : String} {result : Except Fault Unit}
    (h : disk.createDirectories path = (result, next)) : SameFiles disk next :=
  createNested_files h

end GrpcStubs.Disk
