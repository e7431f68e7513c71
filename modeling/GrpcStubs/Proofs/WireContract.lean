import GrpcStubs.Proofs.Flatness
import GrpcStubs.Proofs.Outcome
import Mathlib.Data.List.Basic

set_option autoImplicit false

namespace GrpcStubs
open Template Stub
attribute [local irreducible] templateTrace Text.lines DocComment.render

/-- Forms with the characters of their texts, which can be computed with. -/
structure SpelledForms (forms : List Form) where
  spelled : List Form
  forms_eq : forms = spelled

theorem survivors_eq {template : String} (spelling : Spelling template) {forms : List Form}
    (written : SpelledForms forms) :
    forms.map (fun form => form.survivors template) = written.spelled.map fun form =>
      (spelling.rows.map fun row => Item.ofLine (cut spelling.width row)).filter form.mayFit := by
  simp only [Form.survivors, spelling.items_eq, ← written.forms_eq]

theorem of_render_ok {steps : List Step} {text : String} (h : Step.render steps = .ok text) :
    (Step.traceAll steps).outcome = .ok () ∧ text = .ofList (layOut 0 (Step.traceAll steps).pieces) := by
  rw [Step.render_eq] at h
  cases ho : (Step.traceAll steps).outcome with
  | error e => rw [ho] at h; cases h
  | ok u =>
    rw [ho] at h
    cases h
    exact ⟨rfl, rfl⟩

theorem clash?_of_outcome_ok {service : Service} {reserved : List String} {steps : List Step}
    (h : (Step.traceAll (unlessClash service reserved steps)).outcome = .ok ()) :
    clash? reserved service.methods = none := by
  cases hc : clash? reserved service.methods with
  | none => rfl
  | some method =>
    rw [unlessClash, hc, Step.traceAll_singleton, Step.trace] at h
    cases h

def callName (shape : Shape) : String :=
  match shape.clientStreams, shape.serverStreams with
  | false, false => "unary"
  | false, true => "server_streaming"
  | true, false => "client_streaming"
  | true, true => "streaming"

theorem Shape.call_eq (shape : Shape) : shape.call = callName shape := by
  cases shape <;> rfl

namespace Client

def pathForm : Form :=
  ⟨"let path = http::uri::PathAndQuery::from_static(\"".toList, "\");".toList⟩

def callForm : Form :=
  ⟨"self.inner.".toList, "(req, path, codec).await".toList⟩

def functionForm : Form :=
  ⟨"pub async fn ".toList, "(".toList⟩

/-- Holds the names of service and method that a request is marked with. -/
def labelForm : Form :=
  ⟨"req.extensions_mut().insert(GrpcMethod::new(\"".toList, "\"));".toList⟩

def forms : List Form :=
  [pathForm, callForm, functionForm, labelForm]

def spelledForms : SpelledForms forms := by
  constructor
  unfold forms pathForm callForm functionForm labelForm
  repeat rw [String.toList_ofList]

theorem isCode_forms : ∀ form ∈ forms, form.isCode = true := by
  rw [spelledForms.forms_eq]
  decide +kernel

/-- The placeholders of a client that stand for more than a name. -/
def openItems : List Item :=
  [.sole 4 "service_doc", .sole 8 "methods"]

theorem survivors_module : ∀ form ∈ forms, form.survivors moduleTemplate = openItems := by
  have hall : forms.map (fun form => form.survivors moduleTemplate) =
      List.replicate 4 openItems := by
    rw [survivors_eq moduleSpelling spelledForms]
    decide +kernel
  exact fun form hform => (List.map_eq_replicate_iff.mp hall) form hform

theorem survivors_method (shape : Shape) :
    forms.map (fun form => form.survivors (methodTemplate shape)) =
      [[.inline 4 [pathForm.opening, "path".toList, pathForm.closing]],
        [.inline 4 [callForm.opening ++ (callName shape).toList ++ callForm.closing]],
        [.inline 0 [functionForm.opening, "ident".toList, functionForm.closing]],
        [.inline 4 [labelForm.opening, "service_name".toList, "\", \"".toList, "method_name".toList,
          labelForm.closing]]] := by
  rw [survivors_eq (methodSpelling shape) spelledForms]
  cases shape <;> decide +kernel

theorem holesOf_methodSteps {form : Form} (hcode : form.isCode = true) {ctx : Context}
    {method : Method} {request response : String} (service : Service)
    (h : typePaths ctx method = .ok (request, response)) :
    form.holesOf (Step.traceAll (methodSteps ctx service method)) =
      form.holesOf (methodTrace service method request response) := by
  have hstart : methodStart method =
      (Trace.line 0 []).andThen ⟨(headingLines method).map (Piece.mk 0), .ok ()⟩ := rfl
  rw [traceAll_methodSteps service h, Form.holesOf_andThen form _ rfl, hstart,
    Form.holesOf_andThen form _ rfl, Form.holesOf_line, Form.hole?_nil hcode,
    Form.holesOf_comments hcode 0 fun row hrow => (isCommentLine_heading method row hrow).1]
  rfl

theorem holesOf_openItems {form : Form} (hcode : form.isCode = true) {ctx : Context}
    {service : Service} (hmapped : unmappedOutcome ctx service.messages = .ok ())
    {inMethod : Method → List String}
    (hmethod : ∀ method request response,
      form.holesOf (methodTrace service method request response) = inMethod method) :
    (openItems.flatMap fun item => form.holesOf (item.trace (moduleMeanings ctx service))) =
      service.methods.flatMap inMethod := by
  have hmethods : (Step.traceAll (service.methods.flatMap (methodSteps ctx service))).outcome =
      .ok () := (outcome_methods ctx service).trans hmapped
  rw [openItems, List.flatMap_cons, List.flatMap_singleton,
    Item.trace_sole_text 4 (lookup_service_doc ctx service),
    Form.holesOf_comments hcode 4 fun row hrow => (isCommentLine_render _ row hrow).1,
    List.nil_append, Item.trace_sole_block 8 (lookup_methods ctx service), Form.holesOf_shift]
  rw [Form.holesOf_flatMap form hmethods]
  refine List.flatMap_congr fun method hm => ?_
  obtain ⟨⟨request, response⟩, htypes⟩ := typePaths_of_mapped hmapped hm
  rw [holesOf_methodSteps hcode service htypes, hmethod]

theorem of_render_steps {ctx : Context} {service : Service} {client : String}
    (h : Step.render (steps ctx service) = .ok client) :
    clash? commonFunctions service.methods = none ∧
      unmappedOutcome ctx service.messages = .ok () := by
  have houtcome := (of_render_ok h).1
  have hclash : clash? commonFunctions service.methods = none := clash?_of_outcome_ok houtcome
  exact ⟨hclash, (outcome_steps hclash).symm.trans houtcome⟩

theorem holes_eq_survivors {form : Form} (hcode : form.isCode = true) {ctx : Context}
    {service : Service} {client : String} (hnames : OneLineNames ctx service)
    (hclient : Step.render (steps ctx service) = .ok client) :
    form.holes client = (form.survivors moduleTemplate).flatMap fun item =>
      form.holesOf (item.trace (moduleMeanings ctx service)) := by
  obtain ⟨hclash, hmapped⟩ := of_render_steps hclient
  obtain ⟨houtcome, rfl⟩ := of_render_ok hclient
  have hflat := isFlat_steps hnames hclash fun method hmethod => typePaths_of_mapped hmapped hmethod
  rw [Form.holes_layOut (Form.hole?_nil hcode) hflat]
  rw [traceAll_steps hclash] at houtcome ⊢
  exact Form.holesOf_templateTrace form houtcome

theorem holesOf_methodTrace (service : Service) (method : Method) (request response : String) :
    forms.map (fun form => form.holesOf (methodTrace service method request response)) =
      [[service.route method], [callName method.shape], [method.ident],
        [service.fullName ++ "\", \"" ++ method.name]] := by
  have hok := outcome_methodTrace service method request response
  obtain ⟨hpath, hcall, hfunction, hlabel, _⟩ := by
    simpa only [forms, List.map_cons, List.map_nil, List.cons.injEq] using survivors_method method.shape
  have hroute : (methodMeanings service method request response).lookup "path" =
      some (.text (service.route method)) := by simp [methodMeanings, List.lookup_cons]
  have hident : (methodMeanings service method request response).lookup "ident" =
      some (.text method.ident) := by simp [methodMeanings]
  have hservice : (methodMeanings service method request response).lookup "service_name" =
      some (.text service.fullName) := by simp [methodMeanings, List.lookup_cons]
  have hmethod : (methodMeanings service method request response).lookup "method_name" =
      some (.text method.name) := by simp [methodMeanings, List.lookup_cons]
  rw [methodTrace] at hok ⊢
  simp only [forms, List.map_cons, List.map_nil, Form.holesOf_templateTrace _ hok, hpath, hcall,
    hfunction, hlabel, List.flatMap_singleton]
  rw [Form.holesOf_one (isCode_forms pathForm (by simp [forms])) 4 (by decide) hroute,
    Form.holesOf_inline callForm 4 rfl, String.toList_ofList,
    Form.hole?_filled (isCode_forms callForm (by simp [forms])),
    Form.holesOf_one (isCode_forms functionForm (by simp [forms])) 0 (by decide) hident,
    Form.holesOf_two (isCode_forms labelForm (by simp [forms])) 4 "\", \"" (by decide) (by decide)
      hservice hmethod]
  rfl

theorem holes_eq {form : Form} (hform : form ∈ forms) {ctx : Context} {service : Service}
    {client : String} (hnames : OneLineNames ctx service)
    (hclient : Step.render (steps ctx service) = .ok client) {hole : Method → String}
    (hhole : ∀ method request response,
      form.holesOf (methodTrace service method request response) = [hole method]) :
    form.holes client = service.methods.map hole := by
  have hcode := isCode_forms form hform
  rw [holes_eq_survivors hcode hnames hclient, survivors_module form hform, List.map_eq_flatMap]
  exact holesOf_openItems hcode (of_render_steps hclient).2 hhole

theorem holes_forms {ctx : Context} {service : Service} {client : String}
    (hnames : OneLineNames ctx service) (hclient : Step.render (steps ctx service) = .ok client) :
    forms.map (fun form => form.holes client) =
      [service.methods.map service.route, service.methods.map fun method => callName method.shape,
        service.methods.map Method.ident,
        service.methods.map fun method => service.fullName ++ "\", \"" ++ method.name] := by
  have hholes := fun method request response =>
    holesOf_methodTrace service method request response
  simp only [forms, List.map_cons, List.map_nil, List.cons.injEq] at hholes ⊢
  refine ⟨holes_eq (by simp [forms]) hnames hclient fun method request response => ?_,
    holes_eq (by simp [forms]) hnames hclient fun method request response => ?_,
    holes_eq (by simp [forms]) hnames hclient fun method request response => ?_,
    holes_eq (by simp [forms]) hnames hclient fun method request response => ?_, trivial⟩
  · exact (hholes method request response).1
  · exact (hholes method request response).2.1
  · exact (hholes method request response).2.2.1
  · exact (hholes method request response).2.2.2.1

end Client

namespace Server

def routeForm : Form :=
  ⟨"\"".toList, "\" => \x7b".toList⟩

def callForm : Form :=
  ⟨"let res = grpc.".toList, "(method, req).await;".toList⟩

def functionForm : Form :=
  ⟨"async fn ".toList, "(".toList⟩

/-- Holds the trait and the function that an adapter calls. -/
def calleeForm : Form :=
  ⟨"<T as ".toList, "(&inner, request).await".toList⟩

def nameForm : Form :=
  ⟨"pub const SERVICE_NAME: &str = \"".toList, "\";".toList⟩

def forms : List Form :=
  [routeForm, callForm, functionForm, calleeForm, nameForm]

def spelledForms : SpelledForms forms := by
  constructor
  unfold forms routeForm callForm functionForm calleeForm nameForm
  repeat rw [String.toList_ofList]

theorem isCode_forms : ∀ form ∈ forms, form.isCode = true := by
  rw [spelledForms.forms_eq]
  decide +kernel

def openItems : List Item :=
  [.sole 8 "trait_methods", .sole 4 "service_doc", .sole 16 "routes"]

theorem survivors_module :
    forms.map (fun form => form.survivors moduleTemplate) =
      [openItems, openItems, openItems, openItems,
        openItems ++ [.inline 4 [nameForm.opening, "service_name".toList, nameForm.closing]]] := by
  rw [survivors_eq moduleSpelling spelledForms]
  decide +kernel

theorem survivors_trait (shape : Shape) :
    forms.map (fun form => form.survivors (traitTemplate shape)) =
      [[], [], [.inline 0 [functionForm.opening, "ident".toList, functionForm.closing]], [], []] := by
  rw [survivors_eq (traitSpelling shape) spelledForms]
  cases shape <;> decide +kernel

theorem survivors_route :
    forms.map (fun form => form.survivors routeTemplate) =
      [[.inline 0 [routeForm.opening, "path".toList, routeForm.closing], .sole 4 "svc_impl"],
        [.sole 4 "svc_impl", .inline 8 [callForm.opening, "grpc_call".toList, callForm.closing]],
        [.sole 4 "svc_impl"], [.sole 4 "svc_impl"], [.sole 4 "svc_impl"]] := by
  rw [survivors_eq routeSpelling spelledForms]
  decide +kernel

theorem survivors_adapter (shape : Shape) :
    forms.map (fun form => form.survivors (adapterTemplate shape)) =
      [[], [], [], [.inline 12 [calleeForm.opening, "trait_ident".toList, ">::".toList,
        "ident".toList, calleeForm.closing]], []] := by
  rw [survivors_eq (adapterSpelling shape) spelledForms]
  cases shape <;> decide +kernel

theorem holesOf_traitTrace (method : Method) (request response : String) :
    forms.map (fun form => form.holesOf (traitTrace method request response)) =
      [[], [], [method.ident], [], []] := by
  have hok := outcome_traitTrace method request response
  obtain ⟨hroute, hcall, hfunction, hcallee, hname, _⟩ := by
    simpa only [forms, List.map_cons, List.map_nil, List.cons.injEq] using survivors_trait method.shape
  have hident : (traitMeanings method request response).lookup "ident" =
      some (.text method.ident) := by simp [traitMeanings]
  rw [traitTrace] at hok ⊢
  simp only [forms, List.map_cons, List.map_nil, Form.holesOf_templateTrace _ hok, hroute, hcall,
    hfunction, hcallee, hname, List.flatMap_nil, List.flatMap_singleton]
  rw [Form.holesOf_one (isCode_forms functionForm (by simp [forms])) 0 (by decide) hident]

theorem holesOf_adapterTrace (service : Service) (method : Method) (request response : String) :
    forms.map (fun form => form.holesOf (adapterTrace service method request response)) =
      [[], [], [], [service.ident ++ ">::" ++ method.ident], []] := by
  have hok := outcome_adapterTrace service method request response
  obtain ⟨hroute, hcall, hfunction, hcallee, hname, _⟩ := by
    simpa only [forms, List.map_cons, List.map_nil, List.cons.injEq] using survivors_adapter method.shape
  have htrait : (adapterMeanings service method request response).lookup "trait_ident" =
      some (.text service.ident) := by simp [adapterMeanings]
  have hident : (adapterMeanings service method request response).lookup "ident" =
      some (.text method.ident) := by simp [adapterMeanings, List.lookup_cons]
  rw [adapterTrace] at hok ⊢
  simp only [forms, List.map_cons, List.map_nil, Form.holesOf_templateTrace _ hok, hroute, hcall,
    hfunction, hcallee, hname, List.flatMap_nil, List.flatMap_singleton]
  rw [Form.holesOf_two (isCode_forms calleeForm (by simp [forms])) 12 ">::" (by decide) (by decide)
    htrait hident]

theorem holesOf_routeTrace (service : Service) (method : Method) (request response : String) :
    forms.map (fun form => form.holesOf (routeTrace service method request response)) =
      [[service.route method], [callName method.shape], [], [service.ident ++ ">::" ++ method.ident],
        []] := by
  have hok := outcome_routeTrace service method request response
  obtain ⟨hroute, hcall, hfunction, hcallee, hname, _⟩ := by
    simpa only [forms, List.map_cons, List.map_nil, List.cons.injEq] using survivors_route
  obtain ⟨haroute, hacall, hafunction, hacallee, haname, _⟩ := by
    simpa only [forms, List.map_cons, List.map_nil, List.cons.injEq] using
      holesOf_adapterTrace service method request response
  have hpath : (routeMeanings service method request response).lookup "path" =
      some (.text (service.route method)) := by simp [routeMeanings]
  have hkind : (routeMeanings service method request response).lookup "grpc_call" =
      some (.text (callName method.shape)) := by
    simp [routeMeanings, List.lookup_cons, Shape.call_eq]
  rw [routeTrace] at hok ⊢
  simp only [forms, List.map_cons, List.map_nil, Form.holesOf_templateTrace _ hok, hroute, hcall,
    hfunction, hcallee, hname, List.flatMap_cons, List.flatMap_nil,
    Item.trace_sole_block 4 (lookup_svc_impl service method request response), Form.holesOf_shift,
    haroute, hacall, hafunction, hacallee, haname, List.append_nil, List.nil_append]
  rw [Form.holesOf_one (isCode_forms routeForm (by simp [forms])) 0 (by decide) hpath,
    Form.holesOf_one (isCode_forms callForm (by simp [forms])) 8 (by decide) hkind]

theorem holesOf_traitSteps {form : Form} (hcode : form.isCode = true) {ctx : Context}
    {method : Method} {request response : String}
    (h : typePaths ctx method = .ok (request, response)) :
    form.holesOf (Step.traceAll (traitSteps ctx method)) =
      form.holesOf (traitTrace method request response) := by
  rw [traceAll_traitSteps h, Form.holesOf_andThen form _ rfl,
    Form.holesOf_comments hcode 0 fun row hrow => (isCommentLine_heading method row hrow).1,
    List.nil_append]

theorem holesOf_openItems {form : Form} (hcode : form.isCode = true) {ctx : Context}
    {service : Service} (hmapped : unmappedOutcome ctx service.messages = .ok ())
    {inTrait inRoute : Method → List String}
    (htrait : ∀ method request response,
      form.holesOf (traitTrace method request response) = inTrait method)
    (hroute : ∀ method request response,
      form.holesOf (routeTrace service method request response) = inRoute method) :
    (openItems.flatMap fun item => form.holesOf (item.trace (moduleMeanings ctx service))) =
      service.methods.flatMap inTrait ++ service.methods.flatMap inRoute := by
  have htypes := fun method (hmethod : method ∈ service.methods) =>
    typePaths_of_mapped hmapped hmethod
  have htraits : ∀ method ∈ service.methods,
      (Step.traceAll (traitSteps ctx method)).outcome = .ok () := by
    intro method hmethod
    obtain ⟨types, ht⟩ := htypes method hmethod
    rw [outcome_traitSteps, typesOutcome_of_ok ht]
  have hroutes : (Step.traceAll (service.methods.flatMap (routeSteps ctx service))).outcome =
      .ok () := (outcome_routes ctx service).trans hmapped
  have hinTrait : (service.methods.flatMap fun method =>
      form.holesOf (Step.traceAll (traitSteps ctx method))) = service.methods.flatMap inTrait := by
    refine List.flatMap_congr fun method hmethod => ?_
    obtain ⟨⟨request, response⟩, ht⟩ := htypes method hmethod
    rw [holesOf_traitSteps hcode ht, htrait]
  have hinRoute : (service.methods.flatMap fun method =>
      form.holesOf (Step.traceAll (routeSteps ctx service method))) =
        service.methods.flatMap inRoute := by
    refine List.flatMap_congr fun method hmethod => ?_
    obtain ⟨⟨request, response⟩, ht⟩ := htypes method hmethod
    rw [traceAll_routeSteps service ht, hroute]
  rw [openItems, List.flatMap_cons, List.flatMap_cons, List.flatMap_singleton,
    Item.trace_sole_block 8 (lookup_trait_methods ctx service),
    Item.trace_sole_text 4 (lookup_service_doc ctx service),
    Item.trace_sole_block 16 (lookup_routes ctx service), Form.holesOf_shift, Form.holesOf_shift,
    Form.holesOf_comments hcode 4 fun row hrow => (isCommentLine_render _ row hrow).1,
    List.nil_append, Form.holesOf_intercalate hcode htraits, Form.holesOf_flatMap form hroutes,
    hinTrait, hinRoute]

theorem of_render_steps {ctx : Context} {service : Service} {server : String}
    (h : Step.render (steps ctx service) = .ok server) :
    clash? [] service.methods = none ∧ unmappedOutcome ctx service.messages = .ok () := by
  have houtcome := (of_render_ok h).1
  have hclash : clash? [] service.methods = none := clash?_of_outcome_ok houtcome
  exact ⟨hclash, (outcome_steps hclash).symm.trans houtcome⟩

theorem holes_eq_survivors {form : Form} (hcode : form.isCode = true) {ctx : Context}
    {service : Service} {server : String} (hnames : OneLineNames ctx service)
    (hserver : Step.render (steps ctx service) = .ok server) :
    form.holes server = (form.survivors moduleTemplate).flatMap fun item =>
      form.holesOf (item.trace (moduleMeanings ctx service)) := by
  obtain ⟨hclash, hmapped⟩ := of_render_steps hserver
  obtain ⟨houtcome, rfl⟩ := of_render_ok hserver
  have hflat := isFlat_steps hnames hclash fun method hmethod => typePaths_of_mapped hmapped hmethod
  rw [Form.holes_layOut (Form.hole?_nil hcode) hflat]
  rw [traceAll_steps hclash] at houtcome ⊢
  exact Form.holesOf_templateTrace form houtcome

theorem holes_eq {form : Form} (hform : form ∈ forms) {own : List Item}
    (hmodule : form.survivors moduleTemplate = openItems ++ own) {ctx : Context} {service : Service}
    {server : String} (hnames : OneLineNames ctx service)
    (hserver : Step.render (steps ctx service) = .ok server) {inTrait inRoute : Method → List String}
    (htrait : ∀ method request response,
      form.holesOf (traitTrace method request response) = inTrait method)
    (hroute : ∀ method request response,
      form.holesOf (routeTrace service method request response) = inRoute method) :
    form.holes server = service.methods.flatMap inTrait ++ service.methods.flatMap inRoute ++
      own.flatMap fun item => form.holesOf (item.trace (moduleMeanings ctx service)) := by
  have hcode := isCode_forms form hform
  rw [holes_eq_survivors hcode hnames hserver, hmodule, List.flatMap_append,
    holesOf_openItems hcode (of_render_steps hserver).2 htrait hroute]

theorem holes_of_routes {form : Form} (hform : form ∈ forms)
    (hmodule : form.survivors moduleTemplate = openItems) {ctx : Context} {service : Service}
    {server : String} (hnames : OneLineNames ctx service)
    (hserver : Step.render (steps ctx service) = .ok server) {hole : Method → String}
    (htrait : ∀ method request response, form.holesOf (traitTrace method request response) = [])
    (hroute : ∀ method request response,
      form.holesOf (routeTrace service method request response) = [hole method]) :
    form.holes server = service.methods.map hole := by
  have hnone : (service.methods.flatMap fun _ => ([] : List String)) = [] := by simp
  rw [holes_eq hform (hmodule.trans (List.append_nil _).symm) hnames hserver htrait hroute, hnone,
    List.map_eq_flatMap, List.nil_append, List.flatMap_nil, List.append_nil]

theorem holes_forms {ctx : Context} {service : Service} {server : String}
    (hnames : OneLineNames ctx service) (hserver : Step.render (steps ctx service) = .ok server) :
    forms.map (fun form => form.holes server) =
      [service.methods.map service.route, service.methods.map fun method => callName method.shape,
        service.methods.map Method.ident,
        service.methods.map fun method => service.ident ++ ">::" ++ method.ident,
        [service.fullName]] := by
  have htrait := holesOf_traitTrace
  have hroute := holesOf_routeTrace service
  have hmodule := survivors_module
  have hname : (moduleMeanings ctx service).lookup "service_name" = some (.text service.fullName) := by
    simp [moduleMeanings, List.lookup_cons]
  have hnone : (service.methods.flatMap fun _ => ([] : List String)) = [] := by simp
  simp only [forms, List.map_cons, List.map_nil, List.cons.injEq] at htrait hroute hmodule ⊢
  obtain ⟨hroutes, hcalls, hfunctions, hcallees, hconstant, _⟩ := hmodule
  refine ⟨?_, ?_, ?_, ?_, ?_, trivial⟩
  · exact holes_of_routes (by simp [forms]) hroutes hnames hserver
      (fun method request response => (htrait method request response).1)
      fun method request response => (hroute method request response).1
  · exact holes_of_routes (by simp [forms]) hcalls hnames hserver
      (fun method request response => (htrait method request response).2.1)
      fun method request response => (hroute method request response).2.1
  · rw [holes_eq (by simp [forms]) (hfunctions.trans (List.append_nil _).symm) hnames hserver
      (fun method request response => (htrait method request response).2.2.1)
      fun method request response => (hroute method request response).2.2.1, hnone,
      List.map_eq_flatMap, List.flatMap_nil, List.append_nil, List.append_nil]
  · exact holes_of_routes (by simp [forms]) hcallees hnames hserver
      (fun method request response => (htrait method request response).2.2.2.1)
      fun method request response => (hroute method request response).2.2.2.1
  · rw [holes_eq (by simp [forms]) hconstant hnames hserver
      (fun method request response => (htrait method request response).2.2.2.2.1)
      fun method request response => (hroute method request response).2.2.2.2.1, hnone,
      List.flatMap_singleton, Form.holesOf_one (isCode_forms nameForm (by simp [forms])) 4 (by decide)
      hname]
    rfl

end Server

/-- What the halves of a service agree on: for each method in order the path and the kind of its
    calls and the name of its function, and the name of the service. -/
structure WireContract (service : Service) (client server : String) : Prop where
  clientPaths : Client.pathForm.holes client = service.methods.map service.route
  clientCalls : Client.callForm.holes client =
    service.methods.map fun method => callName method.shape
  serverPaths : Server.routeForm.holes server = service.methods.map service.route
  serverCalls : Server.callForm.holes server =
    service.methods.map fun method => callName method.shape
  calls : ∀ method ∈ service.methods, method.shape.call = callName method.shape
  distinctPaths : (service.methods.map service.route).Nodup
  clientFunctions : Client.functionForm.holes client = service.methods.map Method.ident
  traitFunctions : Server.functionForm.holes server = service.methods.map Method.ident
  callees : Server.calleeForm.holes server =
    service.methods.map fun method => service.ident ++ ">::" ++ method.ident
  registered : Server.nameForm.holes server = [service.fullName]
  labels : Client.labelForm.holes client =
    service.methods.map fun method => service.fullName ++ "\", \"" ++ method.name

theorem nodup_of_clash?_eq_none {taken : List String} {methods : List Method}
    (h : clash? taken methods = none) :
    (methods.map Method.ident).Nodup ∧ ∀ method ∈ methods, method.ident ∉ taken := by
  induction methods generalizing taken with
  | nil => exact ⟨List.nodup_nil, fun method hm => absurd hm List.not_mem_nil⟩
  | cons method methods ih =>
    rw [clash?_cons] at h
    split at h
    · cases h
    · rename_i hfree
      obtain ⟨hnodup, htaken⟩ := ih h
      refine ⟨?_, List.forall_mem_cons.mpr ⟨hfree, fun other ho => ?_⟩⟩
      · rw [List.map_cons, List.nodup_cons]
        refine ⟨fun hmem => ?_, hnodup⟩
        obtain ⟨other, ho, heq⟩ := List.mem_map.mp hmem
        exact htaken other ho (heq ▸ List.mem_cons_self)
      · exact fun hmem => htaken other ho (List.mem_cons_of_mem _ hmem)

theorem ident_eq_of_route_eq {service : Service} {method other : Method}
    (h : service.route method = service.route other) : method.ident = other.ident := by
  rw [Service.route_eq, Service.route_eq, String.append_right_inj] at h
  rw [Method.ident, Method.ident, h]

theorem nodup_routes {service : Service} (h : clash? [] service.methods = none) :
    (service.methods.map service.route).Nodup := by
  have hidents := (nodup_of_clash?_eq_none h).1
  rw [List.Nodup, List.pairwise_map] at hidents ⊢
  exact hidents.imp fun hne heq => hne (ident_eq_of_route_eq heq)

/-- The halves of a service agree, whatever its comments hold. In particular this is so where all
    names are identifiers. -/
theorem wireContract_of_render {ctx : Context} {service : Service} {client server : String}
    (hnames : OneLineNames ctx service)
    (hclient : Step.render (Client.steps ctx service) = .ok client)
    (hserver : Step.render (Server.steps ctx service) = .ok server) :
    WireContract service client server := by
  have hclash : clash? [] service.methods = none := clash?_of_outcome_ok (of_render_ok hserver).1
  have hclients := Client.holes_forms hnames hclient
  have hservers := Server.holes_forms hnames hserver
  simp only [Client.forms, Server.forms, List.map_cons, List.map_nil, List.cons.injEq]
    at hclients hservers
  obtain ⟨hpaths, hcalls, hfunctions, hlabels, _⟩ := hclients
  obtain ⟨hroutes, hkinds, htraits, hcallees, hname, _⟩ := hservers
  exact ⟨hpaths, hcalls, hroutes, hkinds, fun method _ => method.shape.call_eq, nodup_routes hclash,
    hfunctions, htraits, hcallees, hname, hlabels⟩

theorem wireContract_of_render_search :
    let find : Method :=
      { name := "Find", input := (Message.outermost "Outer" "a.proto").inside "Query",
        output := .outermost "Hit" "b.proto"
        shape := .serverStreaming, comments := ⟨"\n\"/p.q.Search/Put\" => \x7b", ""⟩ }
    let keyword : Method :=
      { name := "type", input := .outermost "Hit" "b.proto", output := .outermost "Done" "a.proto"
        shape := .clientStreaming, deprecated := true }
    let service : Service := { package := "p.q", name := "Search", methods := [find, keyword] }
    let ctx : Context := ⟨{ crates := CrateMap.empty.insert "b.proto" "hits" }, "a.proto"⟩
    OneLineNames ctx service ∧ ∃ client server,
      Step.render (Client.steps ctx service) = .ok client ∧
        Step.render (Server.steps ctx service) = .ok server ∧ WireContract service client server := by
  intro find keyword service ctx
  have hnames : OneLineNames ctx service :=
    ⟨by decide, by decide, by decide, by decide, by decide, ⟨"self".toList, rfl⟩⟩
  have hclash : clash? Client.commonFunctions service.methods = none := by decide +kernel
  have hmapped : unmappedOutcome ctx service.messages = .ok () := rfl
  obtain ⟨client, hclient⟩ := render_of_outcome_ok ((Client.outcome_steps hclash).trans hmapped)
  obtain ⟨server, hserver⟩ := render_of_outcome_ok
    ((Server.outcome_steps (clash?_nil_of_none hclash)).trans hmapped)
  exact ⟨hnames, client, server, hclient, hserver, wireContract_of_render hnames hclient hserver⟩

end GrpcStubs
