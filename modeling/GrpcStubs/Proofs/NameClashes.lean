import GrpcStubs.Proofs.DeclaredNames
import Mathlib.Data.List.Nodup

set_option autoImplicit false

namespace GrpcStubs
open Template Stub Identifier

def Service.camelName (service : Service) : String :=
  upperCamelCase service.name

theorem Service.moduleStem_append_eq_iff {service other : Service} (suffix : String) :
    service.moduleStem ++ suffix = other.moduleStem ++ suffix ↔
      service.camelName = other.camelName := by
  rw [String.append_left_inj, moduleStem_eq_iff, camelName, camelName]

theorem clientModule_ne_serverModule (service other : Service) :
    Client.moduleName service ≠ Server.moduleName other := by
  intro h
  have hlast := congrArg (fun name => name.toList.getLast?) h
  simp [Client.moduleName, Server.moduleName] at hlast

theorem Service.mem_modules {options : Options} {service : Service} {name : String} :
    name ∈ service.modules options ↔
      options.buildClient = true ∧ name = Client.moduleName service ∨
        options.buildServer = true ∧ name = Server.moduleName service := by
  unfold modules Options.ofHalves
  cases options.buildClient <;> cases options.buildServer <;> simp

theorem Service.nodup_modules (options : Options) (service : Service) :
    (service.modules options).Nodup := by
  have hne := clientModule_ne_serverModule service service
  unfold modules Options.ofHalves
  cases options.buildClient <;> cases options.buildServer <;> simp [hne]

theorem Service.disjoint_modules_iff {options : Options}
    (asked : options.buildClient = true ∨ options.buildServer = true) (service other : Service) :
    (service.modules options).Disjoint (other.modules options) ↔
      service.camelName ≠ other.camelName := by
  constructor
  · intro hdisjoint heq
    rcases asked with hclient | hserver
    · refine hdisjoint (mem_modules.mpr (.inl ⟨hclient, rfl⟩)) (mem_modules.mpr (.inl ⟨hclient, ?_⟩))
      exact (moduleStem_append_eq_iff "_client").mpr heq
    · refine hdisjoint (mem_modules.mpr (.inr ⟨hserver, rfl⟩)) (mem_modules.mpr (.inr ⟨hserver, ?_⟩))
      exact (moduleStem_append_eq_iff "_server").mpr heq
  · intro hne name hname hother
    rcases mem_modules.mp hname with ⟨-, rfl⟩ | ⟨-, rfl⟩
    · rcases mem_modules.mp hother with ⟨-, h⟩ | ⟨-, h⟩
      · exact hne ((moduleStem_append_eq_iff "_client").mp h)
      · exact clientModule_ne_serverModule service other h
    · rcases mem_modules.mp hother with ⟨-, h⟩ | ⟨-, h⟩
      · exact clientModule_ne_serverModule other service h.symm
      · exact hne ((moduleStem_append_eq_iff "_server").mp h)

theorem SchemaFile.nodup_modules_iff (options : Options) (file : SchemaFile) :
    (file.modules options).Nodup ↔
      (options.buildClient = false ∧ options.buildServer = false) ∨
        (file.services.map Service.camelName).Nodup := by
  by_cases asked : options.buildClient = true ∨ options.buildServer = true
  · have hsome : ¬ (options.buildClient = false ∧ options.buildServer = false) := by
      rintro ⟨hclient, hserver⟩
      simp [hclient, hserver] at asked
    have hall : (file.modules options).Nodup ↔
        file.services.Pairwise fun service other =>
          (service.modules options).Disjoint (other.modules options) := by
      refine List.nodup_flatMap.trans (and_iff_right fun service _ => ?_)
      exact service.nodup_modules options
    rw [or_iff_right hsome, hall, List.Nodup, List.pairwise_map]
    exact List.Pairwise.iff (Service.disjoint_modules_iff asked)
  · have hnone : options.buildClient = false ∧ options.buildServer = false := by simpa using asked
    have hempty : file.modules options = [] := by
      simp [modules, Service.modules, Options.ofHalves, hnone]
    rw [hempty]
    exact iff_of_true List.nodup_nil (.inl hnone)

/-- An adapter has the name of the trait only if it is the camel case of the service's name: the
    escaped trait name has no suffix of adapters. -/
theorem Server.adapterName_eq_ident_iff (service : Service) (method : Method) :
    adapterName method = service.ident ↔ service.camelName = adapterName method := by
  rw [Service.ident, escape_upperCamelCase, Service.camelName]
  split
  · rename_i hself
    rw [hself]
    have hlast : ∀ name : String, name.toList.getLast? ≠ some 'c' → adapterName method ≠ name := by
      rintro name hname rfl
      simp [adapterName] at hname
    exact iff_of_false (hlast "Self_" (by decide)) (hlast "Self" (by decide)).symm
  · exact eq_comm

structure SchemaFile.NamesDistinct (options : Options) (file : SchemaFile) : Prop where
  modules : (file.modules options).Nodup
  adapters : options.buildServer = true → ∀ service ∈ file.services, ∀ method ∈ service.methods,
    Server.adapterName method ≠ service.ident

theorem SchemaFile.exists_generate {options : Options} {file : SchemaFile}
    (nonempty : file.services ≠ [])
    (free : ∀ service ∈ file.services, clash? Client.commonFunctions service.methods = none)
    (mapped : ∀ service ∈ file.services,
      unmappedOutcome ⟨options, file.name⟩ service.messages = .ok ()) :
    ∃ generated, file.generate options = .ok (some generated) := by
  have heach : ∀ service ∈ file.services, ∃ fragments,
      service.fragments ⟨options, file.name⟩ = .ok fragments := by
    intro service hservice
    have hclient := render_of_outcome_ok
      ((Client.outcome_steps (free service hservice)).trans (mapped service hservice))
    have hserver := render_of_outcome_ok ((Server.outcome_steps
      (clash?_nil_of_none (free service hservice))).trans (mapped service hservice))
    refine exists_mapM_eq_ok_iff.mpr fun half hhalf => ?_
    rcases List.mem_append.mp hhalf with h | h
    · rw [List.mem_singleton.mp (List.mem_ite_nil_right.mp h).2]
      exact hclient
    · rw [List.mem_singleton.mp (List.mem_ite_nil_right.mp h).2]
      exact hserver
  obtain ⟨fragments, hfragments⟩ := exists_mapM_eq_ok_iff.mpr heach
  rw [generate, if_neg (by simpa using nonempty), hfragments]
  exact ⟨_, rfl⟩

/-- Generated code declares the names of its file. They are distinct exactly if the names of the
    services are distinct in camel case, and none of these is the name of one of the service's
    methods with the suffix of adapters. -/
theorem declaredNames_distinct_iff (options : Options) (file : SchemaFile) :
    (∀ generated, file.generate options = .ok (some generated) →
      (∀ service ∈ file.services, OneLineNames ⟨options, file.name⟩ service) →
        file.Declares options generated.content) ∧
    (file.NamesDistinct options ↔
      ((options.buildClient = false ∧ options.buildServer = false) ∨
        (file.services.map Service.camelName).Nodup) ∧
      (options.buildServer = true → ∀ service ∈ file.services, ∀ method ∈ service.methods,
        service.camelName ≠ method.name ++ "Svc")) := by
  refine ⟨fun generated hgenerate hnames => SchemaFile.declares_of_generate hnames hgenerate, ?_⟩
  have hadapter := Server.adapterName_eq_ident_iff
  constructor
  · rintro ⟨hmodules, hadapters⟩
    refine ⟨(file.nodup_modules_iff options).mp hmodules, fun hserver service hs method hm heq => ?_⟩
    exact hadapters hserver service hs method hm ((hadapter service method).mpr heq)
  · rintro ⟨hcamel, hadapters⟩
    refine ⟨(file.nodup_modules_iff options).mpr hcamel, fun hserver service hs method hm heq => ?_⟩
    exact hadapters hserver service hs method hm ((hadapter service method).mp heq)

theorem declaredNames_distinct_iff_self :
    let find : Method :=
      { name := "FindSvc", input := .outermost "M" "a.proto", output := .outermost "M" "a.proto" }
    let file : SchemaFile := ⟨"a.proto", [{ name := "self", methods := [find] }, { name := "find_svc" }]⟩
    ∃ generated, file.generate {} = .ok (some generated) ∧
      (∀ service ∈ file.services, OneLineNames ⟨{}, "a.proto"⟩ service) ∧
      file.Declares {} generated.content ∧ file.NamesDistinct {} := by
  intro find file
  have hnames : ∀ service ∈ file.services, OneLineNames ⟨{}, "a.proto"⟩ service :=
    List.forall_mem_cons.mpr
      ⟨⟨by decide, by decide, by decide, by decide, by decide, ⟨"self".toList, rfl⟩⟩,
        List.forall_mem_singleton.mpr
          ⟨by decide, by decide, by decide, by decide, by decide, ⟨"self".toList, rfl⟩⟩⟩
  have hgenerate : ∃ generated, file.generate {} = .ok (some generated) :=
    SchemaFile.exists_generate (List.cons_ne_nil _ _) (by decide +kernel)
      (List.forall_mem_cons.mpr ⟨rfl, List.forall_mem_singleton.mpr rfl⟩)
  obtain ⟨generated, hgenerated⟩ := hgenerate
  obtain ⟨hdeclares, hdistinct⟩ := declaredNames_distinct_iff {} file
  exact ⟨generated, hgenerated, hnames, hdeclares generated hgenerated hnames,
    hdistinct.mpr ⟨.inr (by decide +kernel), fun _ => by decide +kernel⟩⟩

/-- Two services that share their modules, one of which has a method whose adapter hides the trait. -/
theorem declaredNames_clash :
    let call : Method :=
      { name := "X", input := .outermost "M" "a.proto", output := .outermost "M" "a.proto" }
    let file : SchemaFile := ⟨"a.proto", [{ name := "XSvc", methods := [call] }, { name := "x_svc" }]⟩
    (file.services.map Service.name).Nodup ∧
    (∀ service ∈ file.services, isName service.name.toList = true ∧
      (service.methods.map Method.name).Nodup ∧
      ∀ method ∈ service.methods, isName method.name.toList = true) ∧
    ∃ generated, file.generate {} = .ok (some generated) ∧
      moduleForm.holes generated.content =
        ["x_svc_client", "x_svc_server", "x_svc_client", "x_svc_server"] ∧
      adapterForm.holes generated.content = ["XSvc<T: XSvc"] ∧
      Server.calleeForm.holes generated.content = ["XSvc>::x"] ∧
      ¬ (file.modules {}).Nodup ∧
      ∃ service ∈ file.services, ∃ method ∈ service.methods,
        Server.adapterName method = service.ident := by
  intro call file
  have hnames : ∀ service ∈ file.services, OneLineNames ⟨{}, "a.proto"⟩ service :=
    List.forall_mem_cons.mpr
      ⟨⟨by decide, by decide, by decide, by decide, by decide, ⟨"self".toList, rfl⟩⟩,
        List.forall_mem_singleton.mpr
          ⟨by decide, by decide, by decide, by decide, by decide, ⟨"self".toList, rfl⟩⟩⟩
  have hgenerate : ∃ generated, file.generate {} = .ok (some generated) :=
    SchemaFile.exists_generate (List.cons_ne_nil _ _) (by decide +kernel)
      (List.forall_mem_cons.mpr ⟨rfl, List.forall_mem_singleton.mpr rfl⟩)
  obtain ⟨generated, hgenerated⟩ := hgenerate
  obtain ⟨hmodules, hadapters, hcallees⟩ := SchemaFile.declares_of_generate hnames hgenerated
  refine ⟨by decide, by decide +kernel, generated, hgenerated, ?_, ?_, ?_, by decide +kernel,
    by decide +kernel⟩
  · rw [hmodules]
    decide +kernel
  · rw [hadapters]
    decide +kernel
  · rw [hcallees]
    decide +kernel

end GrpcStubs
