import GrpcStubs.Error
import GrpcStubs.Text.Blank
import GrpcStubs.Text.Decimal
import GrpcStubs.Text.Split

set_option autoImplicit false

/-!
# Crate maps

A crate map says which crate holds the messages of a schema file. It is read from a text of
groups: a crate, the number of its files, and the files, each on a line of its own. A file belongs
to the first crate that lists it.
-/

namespace GrpcStubs

/-- The text of each file, or the reason why it cannot be read. -/
abbrev Texts := String → Except String String

structure CrateMap where
  entries : List (String × String)
  nodup : (entries.map Prod.fst).Nodup

namespace CrateMap
open Text

def empty : CrateMap :=
  ⟨[], List.nodup_nil⟩

def get? (crates : CrateMap) (file : String) : Option String :=
  crates.entries.lookup file

def size (crates : CrateMap) : Nat :=
  crates.entries.length

/-- A file that has a crate keeps it. -/
def insert (crates : CrateMap) (file crate : String) : CrateMap :=
  if h : file ∈ crates.entries.map Prod.fst then crates
  else ⟨(file, crate) :: crates.entries, List.nodup_cons.mpr ⟨h, crates.nodup⟩⟩

theorem get?_eq_none_iff (crates : CrateMap) (file : String) :
    crates.get? file = none ↔ file ∉ crates.entries.map Prod.fst := by
  rw [get?, List.lookup_eq_none_iff]
  constructor
  · intro h hm
    obtain ⟨entry, he, rfl⟩ := List.mem_map.mp hm
    simpa using h entry he
  · intro h entry he
    have hne : entry.1 ≠ file := fun hf => h (hf ▸ List.mem_map_of_mem he)
    simpa using fun hf : file = entry.1 => hne hf.symm

theorem get?_insert (crates : CrateMap) (file crate other : String) :
    (crates.insert file crate).get? other =
      if other = file then some ((crates.get? file).getD crate) else crates.get? other := by
  unfold insert
  split
  · rename_i h
    by_cases ho : other = file
    · subst ho
      cases hg : crates.get? other with
      | none => exact absurd h ((get?_eq_none_iff crates other).mp hg)
      | some found => simp
    · simp [ho]
  · rename_i h
    by_cases ho : other = file
    · subst ho
      have hg : crates.entries.lookup other = none := (get?_eq_none_iff crates other).mpr h
      simp [get?, hg]
    · have hb : (other == file) = false := by simp [ho]
      simp [get?, List.lookup_cons, hb, ho]

/-- Two maps are the same if they have the same entries, whatever their order. -/
instance : BEq CrateMap where
  beq a b := a.entries.all b.entries.contains && b.entries.all a.entries.contains

structure Group where
  crate : String
  files : List String
deriving DecidableEq, Repr

inductive GroupFault where
  | missingCount (crate : String)
  | badCount (crate line : String)
  | missingFiles (crate : String) (count present : Nat)
deriving DecidableEq, Repr

def GroupFault.message : GroupFault → String
  | .missingCount crate => s!"missing file count for crate `{crate}`"
  | .badCount crate line =>
    s!"couldn't parse number of import paths for crate `{crate}`: `{line}`"
  | .missingFiles crate count present =>
    s!"crate `{crate}` lists {count} files but only {present} are present"

def contentLines (text : String) : List String :=
  (((lines text.toList).map trim).filter fun line => !line.isEmpty).map String.ofList

def groups : List String → Except GroupFault (List Group)
  | [] => .ok []
  | [crate] => .error (.missingCount crate)
  | crate :: line :: rest =>
    match parseCount line.toList with
    | none => .error (.badCount crate line)
    | some count =>
      if rest.length < count then .error (.missingFiles crate count rest.length)
      else (groups (rest.drop count)).map (⟨crate, rest.take count⟩ :: ·)
termination_by lines => lines.length
decreasing_by
  exact Nat.lt_of_le_of_lt (Nat.le_of_eq List.length_drop)
    (Nat.lt_of_le_of_lt (Nat.sub_le _ _) (Nat.lt_add_of_pos_right (Nat.succ_pos 1)))

def insertGroup (crates : CrateMap) (group : Group) : CrateMap :=
  group.files.foldl (fun crates file => crates.insert file group.crate) crates

def ofGroups (groups : List Group) : CrateMap :=
  groups.foldl insertGroup .empty

def parse (text : String) : Except Error CrateMap :=
  match groups (contentLines text) with
  | .ok gs => .ok (ofGroups gs)
  | .error fault => .error (.malformedMapping fault.message)

def load (texts : Texts) (path : String) : Except Error CrateMap :=
  match texts path with
  | .ok text => parse text
  | .error reason => .error (.unreadableFile path reason)

end CrateMap

end GrpcStubs
