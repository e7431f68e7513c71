import GrpcStubs.Bytes

set_option autoImplicit false

namespace GrpcStubs

abbrev Location := List String

namespace Disk

inductive Entry where
  | file (content : Bytes)
  /-- Of entries with one name the first counts. -/
  | directory (entries : List (String × Entry))
deriving Repr

namespace Entry

def empty : Entry := .directory []

def entries : Entry → List (String × Entry)
  | .file _ => []
  | .directory entries => entries

def isDirectory : Entry → Bool
  | .file _ => false
  | .directory _ => true

def content? : Entry → Option Bytes
  | .file content => some content
  | .directory _ => none

def find? : Entry → Location → Option Entry
  | entry, [] => some entry
  | entry, name :: names =>
    match entry.entries.lookup name with
    | some inner => inner.find? names
    | none => none

def put (name : String) (new : Entry) (entries : List (String × Entry)) : List (String × Entry) :=
  (name, new) :: entries.filter fun e => e.1 != name

/-- Put an entry at a location. Directories are made on the way where there are none. -/
def set : Entry → Location → Entry → Entry
  | _, [], new => new
  | entry, name :: names, new =>
    .directory (put name (((entry.entries.lookup name).getD empty).set names new) entry.entries)

theorem lookup_put_self (name : String) (new : Entry) (entries : List (String × Entry)) :
    (put name new entries).lookup name = some new := by
  simp [put]

theorem lookup_put_of_ne {name other : String} (h : other ≠ name) (new : Entry)
    (entries : List (String × Entry)) :
    (put name new entries).lookup other = entries.lookup other := by
  have ho : (other == name) = false := by simp [h]
  rw [put, List.lookup_cons, ho]
  dsimp only
  induction entries with
  | nil => rfl
  | cons e entries ih =>
    by_cases he : e.1 = name
    · have hoe : (other == e.1) = false := by simp [he, h]
      rw [List.filter_cons_of_neg (by simp [he]), ih, List.lookup_cons, hoe]
    · rw [List.filter_cons_of_pos (by simp [he]), List.lookup_cons, List.lookup_cons, ih]

theorem find?_set_self (entry : Entry) (location : Location) (new : Entry) :
    (entry.set location new).find? location = some new := by
  induction location generalizing entry with
  | nil => rfl
  | cons name names ih =>
    rw [set, find?, entries, lookup_put_self]
    exact ih _

theorem find?_set_of_apart (entry : Entry) {location other : Location} (new : Entry)
    (below : ¬location <+: other) (above : ¬other <+: location) :
    (entry.set location new).find? other = entry.find? other := by
  induction location generalizing entry other with
  | nil => exact absurd List.nil_prefix below
  | cons name names ih =>
    cases other with
    | nil => exact absurd List.nil_prefix above
    | cons first rest =>
      rw [set, find?, find?, entries]
      by_cases h : first = name
      · subst h
        rw [List.cons_prefix_cons] at below above
        rw [lookup_put_self]
        dsimp only
        rw [ih _ (fun hp => below ⟨rfl, hp⟩) (fun hp => above ⟨rfl, hp⟩)]
        cases entry.entries.lookup first with
        | some inner => rfl
        | none =>
          cases rest with
          | nil => exact absurd ⟨rfl, List.nil_prefix⟩ above
          | cons next rest => rfl
      · rw [lookup_put_of_ne h]

end Entry

end Disk

end GrpcStubs
