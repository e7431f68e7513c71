import GrpcStubs.Proofs.Answer
import GrpcStubs.Proofs.Casing
import GrpcStubs.Proofs.WireContract

set_option autoImplicit false

namespace GrpcStubs
open Template Stub Identifier
attribute [local irreducible] templateTrace Text.lines DocComment.render

def moduleForm : Form :=
  ⟨"pub mod ".toList, " \x7b".toList⟩

def adapterForm : Form :=
  ⟨"struct ".toList, ">(pub Arc<T>);".toList⟩

def declarationForms : List Form :=
  [moduleForm, adapterForm]

def spelledDeclarationForms : SpelledForms declarationForms := by
  constructor
  unfold declarationForms moduleForm adapterForm
  repeat rw [String.toList_ofList]

theorem isCode_declarationForms : ∀ form ∈ declarationForms, form.isCode = true := by
  rw [spelledDeclarationForms.forms_eq]
  decide +kernel

theorem isCode_moduleForm : moduleForm.isCode = true :=
  isCode_declarationForms moduleForm (by simp [declarationForms])

theorem isCode_adapterForm : adapterForm.isCode = true :=
  isCode_declarationForms adapterForm (by simp [declarationForms])

namespace Client

/-- The forms of declarations, and of the lines in which an adapter calls the trait. -/
def nameForms : List Form :=
  [moduleForm, adapterForm, Server.calleeForm]

def spelledNameForms : SpelledForms nameForms := by
  constructor
  unfold nameForms moduleForm adapterForm Server.calleeForm
  repeat rw [String.toList_ofList]

theorem isCode_nameForms : ∀ form ∈ nameForms, form.isCode = true := by
  rw [nameForms, List.forall_mem_cons, List.forall_mem_cons, List.forall_mem_singleton]
  exact ⟨isCode_moduleForm, isCode_adapterForm, Server.isCode_forms _ (by simp [Server.forms])⟩

theorem nameSurvivors_module :
    nameForms.map (fun form => form.survivors moduleTemplate) =
      [.inline 0 [moduleForm.opening, "client_mod".toList, moduleForm.closing] :: openItems,
        openItems, openItems] := by
  rw [survivors_eq moduleSpelling spelledNameForms]
  decide +kernel

theorem nameSurvivors_method (shape : Shape) :
    nameForms.map (fun form => form.survivors (methodTemplate shape)) = List.replicate 3 [] := by
  rw [survivors_eq (methodSpelling shape) spelledNameForms]
  cases shape <;> decide +kernel

theorem nameHoles_openItems {ctx : Context} {service : Service}
    (hmapped : unmappedOutcome ctx service.messages = .ok ()) : ∀ form ∈ nameForms,
    (openItems.flatMap fun item => form.holesOf (item.trace (moduleMeanings ctx service))) = [] := by
  intro form hform
  have hmethods : ∀ method request response,
      form.holesOf (methodTrace service method request response) = [] := by
    intro method request response
    have hnone := List.map_eq_replicate_iff.mp (nameSurvivors_method method.shape) form hform
    exact Form.holesOf_of_no_survivors hnone (outcome_methodTrace service method request response)
  rw [holesOf_openItems (isCode_nameForms form hform) hmapped hmethods]
  simp

theorem holes_nameForms {ctx : Context} {service : Service} {client : String}
    (hnames : OneLineNames ctx service) (hclient : Step.render (steps ctx service) = .ok client) :
    nameForms.map (fun form => form.holes client) = [[moduleName service], [], []] := by
  have hmodule : (moduleMeanings ctx service).lookup "client_mod" =
      some (.text (moduleName service)) := by simp [moduleMeanings]
  have hone := Form.holesOf_one isCode_moduleForm 0 (by decide) hmodule
  have hopen := nameHoles_openItems (of_render_steps hclient).2
  have hread := fun form hform => holes_eq_survivors (isCode_nameForms form hform) hnames hclient
  have hsurvivors := nameSurvivors_module
  simp only [nameForms, List.map_cons, List.map_nil, List.cons.injEq, List.forall_mem_cons]
    at hopen hread hsurvivors ⊢
  rw [hread.1, hread.2.1, hread.2.2.1, hsurvivors.1, hsurvivors.2.1, hsurvivors.2.2.1,
    List.flatMap_cons, hopen.1, hopen.2.1, hopen.2.2.1, hone]
  exact ⟨rfl, rfl, rfl, trivial⟩

end Client

namespace Server

def adapterBound (service : Service) (method : Method) : String :=
  adapterName method ++ "<T: " ++ service.ident

def adapterCallee (service : Service) (method : Method) : String :=
  service.ident ++ ">::" ++ method.ident

theorem nameSurvivors_module :
    declarationForms.map (fun form => form.survivors moduleTemplate) =
      [.inline 0 [moduleForm.opening, "server_mod".toList, moduleForm.closing] :: openItems,
        openItems] := by
  rw [survivors_eq moduleSpelling spelledDeclarationForms]
  decide +kernel

theorem nameSurvivors_trait (shape : Shape) :
    declarationForms.map (fun form => form.survivors (traitTemplate shape)) =
      List.replicate 2 [] := by
  rw [survivors_eq (traitSpelling shape) spelledDeclarationForms]
  cases shape <;> decide +kernel

theorem nameSurvivors_adapter (shape : Shape) :
    declarationForms.map (fun form => form.survivors (adapterTemplate shape)) =
      List.replicate 2 [] := by
  rw [survivors_eq (adapterSpelling shape) spelledDeclarationForms]
  cases shape <;> decide +kernel

theorem nameSurvivors_route :
    declarationForms.map (fun form => form.survivors routeTemplate) =
      [[.sole 4 "svc_impl"],
        [.inline 4 [adapterForm.opening, "svc_ident".toList, "<T: ".toList, "trait_ident".toList,
          adapterForm.closing], .sole 4 "svc_impl"]] := by
  rw [survivors_eq routeSpelling spelledDeclarationForms]
  decide +kernel

theorem nameHoles_traitTrace (method : Method) (request response : String) :
    ∀ form ∈ declarationForms, form.holesOf (traitTrace method request response) = [] := by
  intro form hform
  have hnone := List.map_eq_replicate_iff.mp (nameSurvivors_trait method.shape) form hform
  exact Form.holesOf_of_no_survivors hnone (outcome_traitTrace method request response)

theorem nameHoles_adapterTrace (service : Service) (method : Method) (request response : String) :
    ∀ form ∈ declarationForms,
      form.holesOf (adapterTrace service method request response) = [] := by
  intro form hform
  have hnone := List.map_eq_replicate_iff.mp (nameSurvivors_adapter method.shape) form hform
  exact Form.holesOf_of_no_survivors hnone (outcome_adapterTrace service method request response)

theorem nameHoles_routeTrace (service : Service) (method : Method) (request response : String) :
    declarationForms.map (fun form => form.holesOf (routeTrace service method request response)) =
      [[], [adapterBound service method]] := by
  have hok := outcome_routeTrace service method request response
  have hadapter : (routeMeanings service method request response).lookup "svc_ident" =
      some (.text (adapterName method)) := by simp [routeMeanings, List.lookup_cons]
  have htrait : (routeMeanings service method request response).lookup "trait_ident" =
      some (.text service.ident) := by simp [routeMeanings, List.lookup_cons]
  have htwo := Form.holesOf_two isCode_adapterForm 4 "<T: " (by decide) (by decide) hadapter htrait
  have hinner := nameHoles_adapterTrace service method request response
  have hsurvivors := nameSurvivors_route
  simp only [declarationForms, List.map_cons, List.map_nil, List.cons.injEq, List.forall_mem_cons]
    at hinner hsurvivors ⊢
  rw [routeTrace] at hok ⊢
  simp only [Form.holesOf_templateTrace _ hok, hsurvivors.1, hsurvivors.2.1, List.flatMap_cons,
    List.flatMap_nil, Item.trace_sole_block 4 (lookup_svc_impl service method request response),
    Form.holesOf_shift, hinner.1, hinner.2.1, htwo]
  exact ⟨rfl, rfl, trivial⟩

theorem holes_nameForms {ctx : Context} {service : Service} {server : String}
    (hnames : OneLineNames ctx service) (hserver : Step.render (steps ctx service) = .ok server) :
    moduleForm.holes server = [moduleName service] ∧
      adapterForm.holes server = service.methods.map (adapterBound service) ∧
      calleeForm.holes server = service.methods.map (adapterCallee service) := by
  have hmapped := (of_render_steps hserver).2
  have hmodule : (moduleMeanings ctx service).lookup "server_mod" =
      some (.text (moduleName service)) := by simp [moduleMeanings]
  have hone := Form.holesOf_one isCode_moduleForm 0 (by decide) hmodule
  have hnone : (service.methods.flatMap fun _ => ([] : List String)) = [] := by simp
  have htrait := nameHoles_traitTrace
  have hroute := nameHoles_routeTrace service
  have hsurvivors := nameSurvivors_module
  have hcallee := holes_forms hnames hserver
  simp only [declarationForms, forms, List.map_cons, List.map_nil, List.cons.injEq,
    List.forall_mem_cons] at htrait hroute hsurvivors hcallee
  refine ⟨?_, ?_, hcallee.2.2.2.1⟩
  · rw [holes_eq_survivors isCode_moduleForm hnames hserver, hsurvivors.1, List.flatMap_cons, hone,
      holesOf_openItems isCode_moduleForm hmapped
        (fun method request response => (htrait method request response).1)
        fun method request response => (hroute method request response).1, hnone]
    rfl
  · rw [holes_eq_survivors isCode_adapterForm hnames hserver, hsurvivors.2.1,
      holesOf_openItems isCode_adapterForm hmapped
        (fun method request response => (htrait method request response).2.1)
        fun method request response => (hroute method request response).2.1, hnone,
      List.map_eq_flatMap]
    rfl

end Server

def IsLaidOut (text : String) : Prop :=
  ∃ pieces, text = .ofList (layOut 0 pieces)

theorem Template.Form.holes_append {form : Form} (hcode : form.isCode = true)
    {first second : String} (hfirst : IsLaidOut first) (hsecond : IsLaidOut second) :
    IsLaidOut (first ++ second) ∧
      form.holes (first ++ second) = form.holes first ++ form.holes second := by
  obtain ⟨pieces, rfl⟩ := hfirst
  obtain ⟨others, rfl⟩ := hsecond
  have hread : ∀ all, form.holes (.ofList (layOut 0 all)) =
      (all.flatMap fun piece => Text.splitAt '\n' (piece.row 0)).filterMap form.hole? := by
    intro all
    rw [Form.holes, String.toList_ofList, splitAt_layOut, List.filterMap_append,
      List.filterMap_cons_none (Form.hole?_nil hcode), List.filterMap_nil, List.append_nil]
  rw [← String.ofList_append, ← layOut_append]
  refine ⟨⟨_, rfl⟩, ?_⟩
  rw [hread, hread, hread, List.flatMap_append, List.filterMap_append]

def Options.ofHalves (options : Options) (client server : List String) : List String :=
  (if options.buildClient then client else []) ++ (if options.buildServer then server else [])

theorem HalfText.holes_eq {form : Form} {asked : Bool} {steps : List Step} {text : String}
    (h : HalfText asked steps text) {holes : List String}
    (hholes : Step.render steps = .ok text → form.holes text = holes)
    (hcode : form.isCode = true) :
    IsLaidOut text ∧ form.holes text = if asked then holes else [] := by
  cases asked with
  | true => exact ⟨⟨_, (of_render_ok h).2⟩, hholes h⟩
  | false =>
    obtain rfl : text = "" := h
    exact ⟨⟨[], rfl⟩, List.filterMap_cons_none (Form.hole?_nil hcode)⟩

theorem Service.HasCode.holes_eq {form : Form} (hcode : form.isCode = true) {ctx : Context}
    {service : Service} {code : String} (h : service.HasCode ctx code)
    {inClient inServer : List String}
    (hclient : ∀ client, Step.render (Client.steps ctx service) = .ok client →
      form.holes client = inClient)
    (hserver : ∀ server, Step.render (Server.steps ctx service) = .ok server →
      form.holes server = inServer) :
    IsLaidOut code ∧ form.holes code = ctx.options.ofHalves inClient inServer := by
  obtain ⟨client, server, hc, hs, rfl⟩ := h.halves
  obtain ⟨hlaid, hholes⟩ := hc.holes_eq (hclient client) hcode
  obtain ⟨hlaid', hholes'⟩ := hs.holes_eq (hserver server) hcode
  obtain ⟨hboth, happend⟩ := Form.holes_append hcode hlaid hlaid'
  refine ⟨hboth, ?_⟩
  rw [happend, hholes, hholes', Options.ofHalves]

theorem holes_join {form : Form} (hcode : form.isCode = true) {ctx : Context}
    {services : List Service} {codes : List String} {holes : Service → List String}
    (h : List.Forall₂ (Service.HasCode ctx) services codes)
    (heach : ∀ service ∈ services, ∀ code, service.HasCode ctx code →
      IsLaidOut code ∧ form.holes code = holes service) :
    IsLaidOut (String.join codes) ∧ form.holes (String.join codes) = services.flatMap holes := by
  induction h with
  | nil => exact ⟨⟨[], rfl⟩, List.filterMap_cons_none (Form.hole?_nil hcode)⟩
  | cons hservice _ ih =>
    obtain ⟨hfirst, hrest⟩ := List.forall_mem_cons.mp heach
    obtain ⟨hlaid, hholes⟩ := hfirst _ hservice
    obtain ⟨hlaid', hholes'⟩ := ih hrest
    obtain ⟨hall, happend⟩ := Form.holes_append hcode hlaid hlaid'
    rw [String.join_cons, List.flatMap_cons]
    refine ⟨hall, ?_⟩
    rw [happend, hholes, hholes']

def Service.modules (options : Options) (service : Service) : List String :=
  options.ofHalves [Client.moduleName service] [Server.moduleName service]

namespace SchemaFile

def modules (options : Options) (file : SchemaFile) : List String :=
  file.services.flatMap (Service.modules options)

def served (options : Options) (file : SchemaFile) (f : Service → Method → String) : List String :=
  file.services.flatMap fun service => options.ofHalves [] (service.methods.map (f service))

/-- The names that a text declares are those of the file. -/
structure Declares (options : Options) (file : SchemaFile) (content : String) : Prop where
  modules : moduleForm.holes content = file.modules options
  adapters : adapterForm.holes content = file.served options Server.adapterBound
  callees : Server.calleeForm.holes content = file.served options Server.adapterCallee

theorem exists_codes {options : Options} {file : SchemaFile} {generated : GeneratedFile}
    (h : file.generate options = .ok (some generated)) :
    ∃ codes, List.Forall₂ (Service.HasCode ⟨options, file.name⟩) file.services codes ∧
      generated.content = String.join codes := by
  have hne : file.services ≠ [] := by
    intro hnil
    rw [generate, hnil] at h
    cases h
  rcases hasCode_or_firstFailure ⟨options, file.name⟩ file.services with ⟨codes, each⟩ | ⟨error, failed⟩
  · rw [generate_of_hasCode hne each] at h
    cases h
    exact ⟨codes, each, rfl⟩
  · rw [generate_of_firstFailure failed] at h
    cases h

theorem declares_of_generate {options : Options} {file : SchemaFile} {generated : GeneratedFile}
    (hnames : ∀ service ∈ file.services, OneLineNames ⟨options, file.name⟩ service)
    (h : file.generate options = .ok (some generated)) :
    file.Declares options generated.content := by
  obtain ⟨codes, each, hcontent⟩ := exists_codes h
  have hclient : ∀ service ∈ file.services, ∀ client,
      Step.render (Client.steps ⟨options, file.name⟩ service) = .ok client → _ :=
    fun service hservice client => Client.holes_nameForms (hnames service hservice)
  have hserver : ∀ service ∈ file.services, ∀ server,
      Step.render (Server.steps ⟨options, file.name⟩ service) = .ok server → _ :=
    fun service hservice server => Server.holes_nameForms (hnames service hservice)
  simp only [Client.nameForms, List.map_cons, List.map_nil, List.cons.injEq] at hclient
  rw [hcontent]
  constructor
  · exact (holes_join isCode_moduleForm each fun service hs code hcode =>
      hcode.holes_eq isCode_moduleForm (fun client hc => (hclient service hs client hc).1)
        fun server hc => (hserver service hs server hc).1).2
  · exact (holes_join isCode_adapterForm each fun service hs code hcode =>
      hcode.holes_eq isCode_adapterForm (fun client hc => (hclient service hs client hc).2.1)
        fun server hc => (hserver service hs server hc).2.1).2
  · have hcallee : Server.calleeForm.isCode = true := Server.isCode_forms _ (by simp [Server.forms])
    exact (holes_join hcallee each fun service hs code hcode =>
      hcode.holes_eq hcallee (fun client hc => (hclient service hs client hc).2.2.1)
        fun server hc => (hserver service hs server hc).2.2).2

end SchemaFile

end GrpcStubs
