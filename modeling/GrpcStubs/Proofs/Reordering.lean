import GrpcStubs.Proofs.Answer
import GrpcStubs.Proofs.MessageChains
import Mathlib.Data.List.Find
import Mathlib.Data.List.Nodup

set_option autoImplicit false

namespace GrpcStubs

namespace Descriptor

theorem lookup_eq_find? {α : Type} (key : String) (entries : List (String × α)) :
    entries.lookup key = (entries.find? fun entry => key == entry.1).map Prod.snd := by
  induction entries with
  | nil => rfl
  | cons entry entries ih =>
    rw [List.lookup_cons, List.find?_cons, ih]
    cases key == entry.1 <;> rfl

theorem map_entry_chainsOf (files : List File) :
    (chainsOf files).map Chain.entry = files.flatMap fun file => (file.chains 0).map Chain.entry := by
  have hchains : ∀ entry : File × Nat,
      (entry.1.chains entry.2).map Chain.entry = (entry.1.chains 0).map Chain.entry := by
    intro entry
    rw [File.chains, File.chains, List.map_map, List.map_map]
    rfl
  conv_rhs => rw [← List.zipIdx_map_fst 0 files, List.flatMap_map]
  rw [chainsOf, List.map_flatMap]
  exact List.flatMap_congr fun entry _ => hchains entry

theorem Index.find?_of_perm {files others : List File} (reordered : files.Perm others)
    (distinct : ((chainsOf files).map Chain.qualifiedName).Nodup) (typeName : String) :
    (ofFiles others).find? typeName = (ofFiles files).find? typeName := by
  have hentries : (ofFiles files).entries.Perm (ofFiles others).entries := by
    rw [ofFiles_entries, ofFiles_entries, map_entry_chainsOf, map_entry_chainsOf]
    exact (List.reverse_perm _).trans ((reordered.flatMap_right _).trans (List.reverse_perm _).symm)
  have hkeys : ((ofFiles files).entries.map Prod.fst).Nodup := by
    rw [ofFiles_entries, List.map_reverse, List.nodup_reverse, List.map_map]
    exact distinct
  unfold find?
  rw [lookup_eq_find?, lookup_eq_find?, List.find?_eq_find?_of_perm hentries]
  rintro entry ⟨hentry, hname⟩ other ⟨hother, hname'⟩
  rw [beq_iff_eq] at hname hname'
  exact List.inj_on_of_nodup_map hkeys hentry hother (hname.symm.trans hname')

theorem findMessage_congr {index other : Index}
    (h : ∀ typeName, index.find? typeName = other.find? typeName) :
    findMessage index = findMessage other := by
  funext typeName
  rw [findMessage, findMessage, h]

theorem File.resolve_congr {index other : Index}
    (h : ∀ typeName, index.find? typeName = other.find? typeName) (file : File) :
    file.resolve index = file.resolve other := by
  have hmethod : Method.resolve index = Method.resolve other := by
    funext comments method
    rw [Method.resolve, Method.resolve, findMessage_congr h]
  have hservice : Service.resolve index = Service.resolve other := by
    funext file position service
    rw [Service.resolve, Service.resolve, hmethod]
  rw [resolve, resolve, hservice]

end Descriptor

open Template Stub

/-- The code of a service depends on the context only through the halves that are asked for and
    the paths of types. -/
theorem Service.fragments_congr {ctx other : Context}
    (client : ctx.options.buildClient = other.options.buildClient)
    (server : ctx.options.buildServer = other.options.buildServer)
    (types : ∀ depth message, ctx.typePath depth message = other.typePath depth message) :
    Service.fragments ctx = Service.fragments other := by
  have htypes : withTypes ctx = withTypes other := by
    funext method steps
    rw [withTypes, withTypes, typePaths, typePaths, types, types]
  have hmethod : Client.methodSteps ctx = Client.methodSteps other := by
    funext service method
    rw [Client.methodSteps, Client.methodSteps, htypes]
  have htrait : Server.traitSteps ctx = Server.traitSteps other := by
    funext method
    rw [Server.traitSteps, Server.traitSteps, htypes]
  have hroute : Server.routeSteps ctx = Server.routeSteps other := by
    funext service method
    rw [Server.routeSteps, Server.routeSteps, htypes]
  funext service
  rw [Service.fragments, Service.fragments, Service.halves, Service.halves, client, server,
    Client.steps, Client.steps, hmethod, Server.steps, Server.steps, htrait, hroute]

namespace Plugin

theorem output_of_perm {described others : List Descriptor.File}
    (files : (described.map Descriptor.File.name).Nodup)
    (messages : ((Descriptor.chainsOf described).map Descriptor.Chain.qualifiedName).Nodup)
    (reordered : described.Perm others) (options : Options) :
    output options others (.ofFiles others) = output options described (.ofFiles described) := by
  funext name
  have hfind : others.find? (fun file => file.name == name) =
      described.find? fun file => file.name == name := by
    rw [List.find?_eq_find?_of_perm reordered]
    rintro file ⟨hfile, hname⟩ other ⟨hother, hname'⟩
    rw [beq_iff_eq] at hname hname'
    exact List.inj_on_of_nodup_map files hfile hother (hname.trans hname'.symm)
  have hindex := Descriptor.Index.find?_of_perm reordered messages
  simp only [output, hfind, Descriptor.File.resolve_congr hindex]

/-- Which files are generated into the same crate matters, and not their order. -/
theorem output_of_mem_iff {requested permuted : List String}
    (same : ∀ file, file ∈ requested ↔ file ∈ permuted) (options : Options)
    (described : List Descriptor.File) (index : Descriptor.Index) :
    output { options with crateFiles := permuted } described index =
      output { options with crateFiles := requested } described index := by
  have hlocal : ∀ file, permuted.contains file = requested.contains file := by
    intro file
    rw [Bool.eq_iff_iff, List.contains_iff_mem, List.contains_iff_mem, same]
  have hfragments : ∀ file,
      Service.fragments ⟨{ options with crateFiles := permuted }, file⟩ =
        Service.fragments ⟨{ options with crateFiles := requested }, file⟩ := by
    intro file
    refine Service.fragments_congr rfl rfl fun depth message => ?_
    rw [Context.typePath, Context.typePath, Context.isLocal, Context.isLocal, hlocal]
  funext name
  simp only [output, SchemaFile.generate, hfragments]

def outputOf (options : Options) (described : List Descriptor.File) (name : String) :
    Option GeneratedFile :=
  match output options described (.ofFiles described) name with
  | .ok generated => generated
  | .error _ => none

theorem filterMap_of_mapM {options : Options} {described : List Descriptor.File}
    {requested : List String} {generated : List (Option GeneratedFile)}
    (h : requested.mapM (output options described (.ofFiles described)) = .ok generated) :
    generated.filterMap id = requested.filterMap (outputOf options described) := by
  have heach := mapM_eq_ok_iff.mp h
  clear h
  induction heach with
  | nil => rfl
  | @cons name first names rest hname _ ih =>
    have hfirst : outputOf options described name = first := by rw [outputOf, hname]
    rw [List.filterMap_cons, List.filterMap_cons, hfirst, ih]
    rfl

theorem outputs_of_perm_requested {texts : Texts} {described : List Descriptor.File}
    {parameter : String} {requested permuted : List String} (h : requested.Perm permuted) :
    (∃ failure other, outputs texts described requested parameter = .error failure ∧
      outputs texts described permuted parameter = .error other) ∨
    ∃ pick : String → Option GeneratedFile,
      outputs texts described requested parameter = .ok (requested.filterMap pick) ∧
        outputs texts described permuted parameter = .ok (permuted.filterMap pick) := by
  cases hparse : Options.parse texts parameter with
  | error error =>
    exact .inl ⟨_, _, outputs_of_parse_error hparse _ _, outputs_of_parse_error hparse _ _⟩
  | ok parsed =>
    rw [outputs_of_parse_ok hparse, outputs_of_parse_ok hparse,
      output_of_mem_iff (fun file => h.mem_iff) parsed]
    have hall : (∀ name ∈ requested, ∃ generated, output { parsed with crateFiles := requested }
        described (.ofFiles described) name = .ok generated) ↔
        ∀ name ∈ permuted, ∃ generated, output { parsed with crateFiles := requested }
          described (.ofFiles described) name = .ok generated :=
      forall_congr' fun name => imp_congr_left h.mem_iff
    rw [← exists_mapM_eq_ok_iff, ← exists_mapM_eq_ok_iff] at hall
    cases hfirst : requested.mapM (output { parsed with crateFiles := requested } described
        (.ofFiles described)) with
    | ok generated =>
      obtain ⟨others, hothers⟩ := hall.mp ⟨generated, hfirst⟩
      refine .inr ⟨outputOf { parsed with crateFiles := requested } described, ?_, ?_⟩
      · exact congrArg Except.ok (filterMap_of_mapM hfirst)
      · rw [hothers]
        exact congrArg Except.ok (filterMap_of_mapM hothers)
    | error failure =>
      cases hsecond : permuted.mapM (output { parsed with crateFiles := requested } described
          (.ofFiles described)) with
      | ok others =>
        obtain ⟨generated, hgenerated⟩ := hall.mpr ⟨others, hsecond⟩
        rw [hfirst] at hgenerated
        cases hgenerated
      | error other => exact .inl ⟨failure, other, rfl, rfl⟩

/-- The outputs do not depend on the order of the described files, and follow the order of the
    requested ones. -/
theorem outputs_of_reordered (texts : Texts) {described others : List Descriptor.File}
    (files : (described.map Descriptor.File.name).Nodup)
    (messages : ((Descriptor.chainsOf described).map Descriptor.Chain.qualifiedName).Nodup)
    (reordered : described.Perm others) (parameter : String) :
    (∀ requested, outputs texts others requested parameter =
      outputs texts described requested parameter) ∧
    ∀ requested permuted, requested.Perm permuted →
      (∃ failure other, outputs texts described requested parameter = .error failure ∧
        outputs texts described permuted parameter = .error other) ∨
      ∃ pick : String → Option GeneratedFile,
        outputs texts described requested parameter = .ok (requested.filterMap pick) ∧
          outputs texts described permuted parameter = .ok (permuted.filterMap pick) := by
  refine ⟨fun requested => ?_, fun requested permuted h => outputs_of_perm_requested h⟩
  cases hparse : Options.parse texts parameter with
  | error error => rw [outputs_of_parse_error hparse, outputs_of_parse_error hparse]
  | ok parsed =>
    rw [outputs_of_parse_ok hparse, outputs_of_parse_ok hparse,
      output_of_perm files messages reordered]

theorem outputs_of_reordered_pair :
    let search : Descriptor.Service :=
      { name := "Search", methods := [{ name := "Find", input := ".p.Query.Filter", output := ".q.Hit" }] }
    let first : Descriptor.File :=
      { name := "a.proto", package := "p", messages := [.mk "Query" [.mk "Filter" []]]
        services := [search] }
    let second : Descriptor.File := { name := "b.proto", package := "q", messages := [.mk "Hit" []] }
    (([first, second].map Descriptor.File.name).Nodup ∧
      ((Descriptor.chainsOf [first, second]).map Descriptor.Chain.qualifiedName).Nodup ∧
      [first, second].Perm [second, first]) ∧
    ∀ texts requested, outputs texts [second, first] requested "crate_mapping=m" =
      outputs texts [first, second] requested "crate_mapping=m" := by
  intro search first second
  have hfiles : ([first, second].map Descriptor.File.name).Nodup := by decide
  have hmessages :
      ((Descriptor.chainsOf [first, second]).map Descriptor.Chain.qualifiedName).Nodup := by
    decide +kernel
  have hperm : [first, second].Perm [second, first] := .swap second first []
  exact ⟨⟨hfiles, hmessages, hperm⟩, fun texts =>
    (outputs_of_reordered texts hfiles hmessages hperm "crate_mapping=m").1⟩

end Plugin

end GrpcStubs
