import GrpcStubs.Standalone
import Mathlib.Data.Fintype.Card
import Mathlib.Data.Fintype.EquivFin
import Mathlib.Data.Fintype.Sets
import Mathlib.Logic.Relation

set_option autoImplicit false

namespace GrpcStubs.Standalone
open Relation

/-- A file of the set called `importer` imports `imported`, which need not be in the set. -/
def Imports (files : List Descriptor.File) (importer imported : String) : Prop :=
  ∃ file ∈ files, file.name = importer ∧ imported ∈ file.dependencies

def IsAcyclic (files : List Descriptor.File) : Prop :=
  ∀ name, ¬ TransGen (Imports files) name name

/-- A set is acyclic if its names can be numbered so that every file comes after its imports. -/
theorem isAcyclic_of_rank {files : List Descriptor.File} (rank : String → Nat)
    (h : ∀ file ∈ files, ∀ imported ∈ file.dependencies, rank imported < rank file.name) :
    IsAcyclic files := by
  have hfalls : ∀ importer imported, TransGen (Imports files) importer imported →
      rank imported < rank importer := by
    intro importer imported hchain
    induction hchain with
    | single hstep =>
      obtain ⟨file, hfile, rfl, hmem⟩ := hstep
      exact h file hfile _ hmem
    | tail _ hstep ih =>
      obtain ⟨file, hfile, rfl, hmem⟩ := hstep
      exact (h file hfile _ hmem).trans ih
  intro name hcycle
  exact Nat.lt_irrefl _ (hfalls name name hcycle)

section
variable {files : List Descriptor.File}

theorem Imports.mem_names {importer imported : String} (h : Imports files importer imported) :
    importer ∈ files.map (·.name) := by
  obtain ⟨file, hfile, hname, _⟩ := h
  exact List.mem_map.mpr ⟨file, hfile, hname⟩

theorem contains_dependencies_iff {name : String} :
    (files.flatMap (·.dependencies)).contains name = true ↔
      ∃ importer, Imports files importer name := by
  rw [List.contains_iff_mem, List.mem_flatMap]
  constructor
  · rintro ⟨file, hfile, hmem⟩
    exact ⟨file.name, file, hfile, rfl, hmem⟩
  · rintro ⟨_, file, hfile, _, hmem⟩
    exact ⟨file, hfile, hmem⟩

theorem mem_roots_iff {name : String} :
    name ∈ roots files ↔
      name ∈ files.map (·.name) ∧ ¬ ∃ importer, Imports files importer name := by
  rw [roots, List.mem_filter, Bool.not_eq_true', ← Bool.not_eq_true, contains_dependencies_iff]

theorem roots_eq_filter (files : List Descriptor.File) :
    roots files =
      (files.filter fun file => ∀ other ∈ files, file.name ∉ other.dependencies).map (·.name) := by
  rw [roots, List.filter_map]
  refine congrArg _ (List.filter_congr fun file _ => Bool.eq_iff_iff.mpr ?_)
  simp

theorem IsAcyclic.wellFounded (h : IsAcyclic files) :
    WellFounded fun importer imported : { name // name ∈ files.map (·.name) } =>
      TransGen (Imports files) importer imported := by
  have htrans : IsTrans { name // name ∈ files.map (·.name) } fun importer imported =>
      TransGen (Imports files) importer imported := ⟨fun _ _ _ => TransGen.trans⟩
  have hirrefl : Std.Irrefl fun importer imported : { name // name ∈ files.map (·.name) } =>
      TransGen (Imports files) importer imported := ⟨fun name => h name⟩
  exact Finite.wellFounded_of_trans_of_irrefl _

theorem IsAcyclic.exists_root (h : IsAcyclic files) (name : { name // name ∈ files.map (·.name) }) :
    ∃ root ∈ roots files, ReflTransGen (Imports files) root name := by
  induction name using h.wellFounded.induction with
  | _ name ih =>
    by_cases hroot : name.val ∈ roots files
    · exact ⟨name, hroot, .refl⟩
    · -- some file of the set imports this one: climb to it
      have himported : ∃ importer, Imports files importer name := by
        by_contra hnone
        exact hroot (mem_roots_iff.mpr ⟨name.property, hnone⟩)
      obtain ⟨importer, hstep⟩ := himported
      obtain ⟨root, hmem, hchain⟩ := ih ⟨importer, hstep.mem_names⟩ (.single hstep)
      exact ⟨root, hmem, hchain.tail hstep⟩

end

/-- If nothing is asked for, the files are generated that no file of the set imports, in the order of
    the set, and every other file is imported by one of these through files of the set. -/
theorem roots_reach_all (files : List Descriptor.File) (acyclic : IsAcyclic files) :
    selection [] files = roots files ∧
    roots files =
      (files.filter fun file => ∀ other ∈ files, file.name ∉ other.dependencies).map (·.name) ∧
    (∀ file ∈ files, file.name ∈ roots files ∨
      ∃ root ∈ roots files, TransGen (Imports files) root file.name) ∧
    (files ≠ [] → roots files ≠ []) := by
  have hroot : ∀ file ∈ files, ∃ root ∈ roots files, ReflTransGen (Imports files) root file.name :=
    fun file hfile => acyclic.exists_root ⟨file.name, List.mem_map_of_mem hfile⟩
  refine ⟨rfl, roots_eq_filter files, fun file hfile => ?_, fun hne => ?_⟩
  · obtain ⟨root, hmem, hchain⟩ := hroot file hfile
    rcases reflTransGen_iff_eq_or_transGen.mp hchain with heq | hchain
    · exact .inl (heq ▸ hmem)
    · exact .inr ⟨root, hmem, hchain⟩
  · obtain ⟨file, hfile⟩ := List.exists_mem_of_ne_nil files hne
    obtain ⟨root, hmem, _⟩ := hroot file hfile
    exact List.ne_nil_of_mem hmem

/-- Two files share an import, one of them imports a file that is not in the set, and a third one
    imports both. -/
theorem roots_reach_all_shared :
    let files : List Descriptor.File :=
      [{ name := "base.proto" }, { name := "top.proto", dependencies := ["left.proto", "right.proto"] },
        { name := "left.proto", dependencies := ["base.proto"] },
        { name := "right.proto", dependencies := ["absent.proto", "base.proto"] },
        { name := "alone.proto" }]
    IsAcyclic files ∧ selection [] files = ["top.proto", "alone.proto"] ∧
      ∃ root ∈ roots files, TransGen (Imports files) root "base.proto" := by
  intro files
  have hacyclic : IsAcyclic files :=
    isAcyclic_of_rank (["base.proto", "absent.proto", "left.proto", "right.proto", "top.proto"].idxOf ·)
      (by decide +kernel)
  obtain ⟨hselection, _, hreached, _⟩ := roots_reach_all files hacyclic
  have hnames : roots files = ["top.proto", "alone.proto"] := by decide +kernel
  refine ⟨hacyclic, hselection.trans hnames, ?_⟩
  refine (hreached { name := "base.proto" } List.mem_cons_self).resolve_left ?_
  rw [hnames]
  decide

example : roots [{ name := "a.proto", dependencies := ["b.proto"] },
    { name := "b.proto", dependencies := ["a.proto"] }] = [] := by
  decide

end GrpcStubs.Standalone
