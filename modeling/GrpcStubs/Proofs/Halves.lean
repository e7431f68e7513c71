import GrpcStubs.GeneratedFile
import GrpcStubs.Proofs.CommentLines
import GrpcStubs.Proofs.Skeleton

set_option autoImplicit false

namespace GrpcStubs
open Template Stub
attribute [local irreducible] templateTrace Text.lines DocComment.render

def Context.isUnmapped (ctx : Context) (message : Message) : Bool :=
  !ctx.isLocal message.file && (ctx.options.crates.get? message.file).isNone

/-- The messages of the methods in order, requests before responses. -/
def Service.messages (service : Service) : List Message :=
  service.methods.flatMap fun method => [method.input, method.output]

theorem Context.typePath_of_isUnmapped {ctx : Context} {message : Message} (depth : Nat)
    (h : ctx.isUnmapped message = true) :
    ctx.typePath depth message = .error (.unmappedFile message.file message.name) := by
  rw [Context.isUnmapped, Bool.and_eq_true, Bool.not_eq_true', Option.isNone_iff_eq_none] at h
  rw [Context.typePath, h.1, h.2]
  rfl

theorem Context.typePath_of_not_isUnmapped {ctx : Context} {message : Message} (depth : Nat)
    (h : ctx.isUnmapped message = false) : ∃ path, ctx.typePath depth message = .ok path := by
  unfold Context.typePath
  by_cases hl : ctx.isLocal message.file = true
  · exact ⟨_, if_pos hl⟩
  · rw [if_neg hl]
    cases hc : ctx.options.crates.get? message.file with
    | some crate => exact ⟨_, rfl⟩
    | none => simp [Context.isUnmapped, hl, hc] at h

def typesOutcome (ctx : Context) (method : Method) : Except Error Unit :=
  match typePaths ctx method with
  | .ok _ => .ok ()
  | .error error => .error error

def unmappedOutcome (ctx : Context) (messages : List Message) : Except Error Unit :=
  match messages.find? ctx.isUnmapped with
  | some message => .error (.unmappedFile message.file message.name)
  | none => .ok ()

theorem unmappedOutcome_cons (ctx : Context) (message : Message) (messages : List Message) :
    unmappedOutcome ctx (message :: messages) =
      if ctx.isUnmapped message then .error (.unmappedFile message.file message.name)
      else unmappedOutcome ctx messages := by
  rw [unmappedOutcome, List.find?_cons]
  cases ctx.isUnmapped message <;> rfl

theorem typesOutcome_eq (ctx : Context) (method : Method) :
    typesOutcome ctx method = unmappedOutcome ctx [method.input, method.output] := by
  rw [unmappedOutcome_cons, unmappedOutcome_cons, typesOutcome, typePaths]
  cases hi : ctx.isUnmapped method.input with
  | true =>
    rw [Context.typePath_of_isUnmapped _ hi]
    rfl
  | false =>
    obtain ⟨request, hrequest⟩ := Context.typePath_of_not_isUnmapped moduleDepth hi
    rw [hrequest]
    cases ho : ctx.isUnmapped method.output with
    | true =>
      rw [Context.typePath_of_isUnmapped _ ho]
      rfl
    | false =>
      obtain ⟨response, hresponse⟩ := Context.typePath_of_not_isUnmapped moduleDepth ho
      rw [hresponse]
      rfl

theorem unmappedOutcome_append (ctx : Context) (first second : List Message) :
    unmappedOutcome ctx (first ++ second) =
      (unmappedOutcome ctx first >>= fun _ => unmappedOutcome ctx second) := by
  induction first with
  | nil => rfl
  | cons message messages ih =>
    rw [List.cons_append, unmappedOutcome_cons, unmappedOutcome_cons, ih]
    cases ctx.isUnmapped message <;> rfl

theorem forM_typesOutcome (ctx : Context) (service : Service) :
    (service.methods.forM fun method => typesOutcome ctx method) =
      unmappedOutcome ctx service.messages := by
  unfold Service.messages
  induction service.methods with
  | nil => rfl
  | cons method methods ih =>
    rw [List.flatMap_cons, unmappedOutcome_append, ← typesOutcome_eq, ← ih]
    rfl

theorem isUnmapped_of_outcome {ctx : Context} {messages : List Message}
    (h : unmappedOutcome ctx messages = .ok ()) :
    ∀ message ∈ messages, ctx.isUnmapped message = false := by
  unfold unmappedOutcome at h
  split at h
  · cases h
  · rename_i hfind
    exact fun message hm => by simpa using List.find?_eq_none.mp hfind message hm

theorem typePaths_of_mapped {ctx : Context} {service : Service} {method : Method}
    (h : unmappedOutcome ctx service.messages = .ok ()) (hmethod : method ∈ service.methods) :
    ∃ types, typePaths ctx method = .ok types := by
  have hmem : ∀ message ∈ [method.input, method.output], ctx.isUnmapped message = false :=
    fun message hm => isUnmapped_of_outcome h message (List.mem_flatMap.mpr ⟨method, hmethod, hm⟩)
  obtain ⟨request, hrequest⟩ := Context.typePath_of_not_isUnmapped moduleDepth
    (hmem method.input (by simp))
  obtain ⟨response, hresponse⟩ := Context.typePath_of_not_isUnmapped moduleDepth
    (hmem method.output (by simp))
  exact ⟨_, by rw [typePaths, hrequest, hresponse]; rfl⟩

theorem typesOutcome_of_ok {ctx : Context} {method : Method} {types : String × String}
    (h : typePaths ctx method = .ok types) : typesOutcome ctx method = .ok () := by
  rw [typesOutcome, h]

theorem withTypes_of_ok {ctx : Context} {method : Method} {request response : String}
    (h : typePaths ctx method = .ok (request, response)) (steps : String → String → List Step) :
    withTypes ctx method steps = steps request response := by
  rw [withTypes, h]

theorem withTypes_of_error {ctx : Context} {method : Method} {e : Error}
    (h : typePaths ctx method = .error e) (steps : String → String → List Step) :
    withTypes ctx method steps = [.fail e] := by
  rw [withTypes, h]

theorem outcome_withTypes (ctx : Context) (method : Method) (steps : String → String → List Step)
    (h : ∀ request response, (Step.traceAll (steps request response)).outcome = .ok ()) :
    (Step.traceAll (withTypes ctx method steps)).outcome = typesOutcome ctx method := by
  cases ht : typePaths ctx method with
  | ok types =>
    rw [withTypes_of_ok ht, h, typesOutcome, ht]
  | error e =>
    rw [withTypes_of_error ht, Step.traceAll_singleton, Step.trace, typesOutcome, ht]
    rfl

theorem outcome_of_plain {names : List String} {meanings : Meanings} {source : String}
    (h : BindsText names meanings) (hs : otherItems names source = []) :
    (templateTrace meanings source).outcome = .ok () := by
  rw [outcome_templateTrace names source h, hs]
  rfl

namespace Stub

def headingLines (method : Method) : List Line :=
  Text.lines (DocComment.render method.comments.preferred).toList ++
    Text.lines (deprecation method).toList

def headingMeanings (method : Method) : Meanings :=
  [("doc", .text (DocComment.render method.comments.preferred)),
    ("deprecated", .text (deprecation method))]

theorem lookup_doc (method : Method) : (headingMeanings method).lookup "doc" =
    some (.text (DocComment.render method.comments.preferred)) := by
  simp [headingMeanings]

theorem lookup_deprecated (method : Method) : (headingMeanings method).lookup "deprecated" =
    some (.text (deprecation method)) := by
  simp [headingMeanings, List.lookup_cons]

theorem isCommentLine_heading (method : Method) :
    ∀ row ∈ headingLines method, isCommentLine row = true ∧ '\n' ∉ row :=
  List.forall_mem_append.mpr ⟨isCommentLine_render _, isCommentLine_deprecation method⟩

theorem trace_heading (method : Method) :
    (heading method).trace = ⟨(headingLines method).map (Piece.mk 0), .ok ()⟩ := by
  have hm : (heading method).trace =
      templateTrace (headingMeanings method) (ofLines ["    $doc$", "    $deprecated$"]) := by
    simp only [heading, Step.trace, Binding.meanings, Binding.meaning, headingMeanings]
  rw [hm, templateTrace, heading_items, List.map_cons, List.map_singleton,
    Item.trace_sole_text 0 (lookup_doc method), Item.trace_sole_text 0 (lookup_deprecated method),
    Trace.all, Trace.all, Trace.all, Trace.andThen_done, Trace.andThen_of_ok _ rfl, headingLines,
    List.map_append]

structure HoldsOfComments (P : Trace → Prop) : Prop extends Trace.IsCompositional P where
  comment (text : String) (extra : Nat) :
    P ⟨(Text.lines (DocComment.render text).toList).map (Piece.mk extra), .ok ()⟩
  deprecation (method : Method) :
    P ⟨(Text.lines (Stub.deprecation method).toList).map (Piece.mk 0), .ok ()⟩

namespace HoldsOfComments
variable {P : Trace → Prop}

theorem heading (hP : HoldsOfComments P) (method : Method) :
    P ⟨(headingLines method).map (Piece.mk 0), .ok ()⟩ := by
  rw [headingLines, List.map_append]
  exact hP.andThen (hP.comment _ 0) (hP.deprecation method)

theorem soleComment {meanings : Meanings} {name text : String} (hP : HoldsOfComments P) (extra : Nat)
    (h : meanings.lookup name = some (.text (DocComment.render text))) :
    P ((Item.sole extra name).trace meanings) := by
  rw [Item.trace_sole_text extra h]
  exact hP.comment text extra

theorem soleBlock {meanings : Meanings} {name : String} {body : Trace} (hP : HoldsOfComments P)
    (extra : Nat) (h : meanings.lookup name = some (.block body)) (hbody : P body) :
    P ((Item.sole extra name).trace meanings) := by
  rw [Item.trace_sole_block extra h]
  exact hP.shift extra hbody

end HoldsOfComments

end Stub

namespace Client

def methodMeanings (service : Service) (method : Method) (request response : String) : Meanings :=
  [("ident", .text method.ident), ("request", .text request), ("response", .text response),
    ("codec", .text codec), ("path", .text (service.route method)),
    ("service_name", .text service.fullName), ("method_name", .text method.name)]

theorem bindsText_method (service : Service) (method : Method) (request response : String) :
    BindsText methodNames (methodMeanings service method request response) := by
  simp [BindsText, methodNames, methodMeanings, List.lookup_cons]

def methodStart (method : Method) : Trace :=
  ⟨⟨0, []⟩ :: (headingLines method).map (Piece.mk 0), .ok ()⟩

theorem traceAll_methodStart (method : Method) :
    Step.traceAll [.emptyLine, heading method] = methodStart method := by
  rw [Step.traceAll, Step.traceAll_singleton, trace_heading, Step.trace]
  rfl

def methodTrace (service : Service) (method : Method) (request response : String) : Trace :=
  templateTrace (methodMeanings service method request response) (methodTemplate method.shape)

theorem traceAll_methodTemplate (service : Service) (method : Method) (request response : String) :
    Step.traceAll [.template
      [.text "ident" method.ident, .text "request" request, .text "response" response,
        .text "codec" codec, .text "path" (service.route method),
        .text "service_name" service.fullName, .text "method_name" method.name]
      (methodTemplate method.shape)] = methodTrace service method request response := by
  simp only [Step.traceAll_singleton, Step.trace, Binding.meanings, Binding.meaning, methodTrace,
    methodMeanings]

theorem outcome_methodTrace (service : Service) (method : Method) (request response : String) :
    (methodTrace service method request response).outcome = .ok () :=
  outcome_of_plain (bindsText_method service method request response)
    (otherItems_method method.shape)

theorem traceAll_methodSteps {ctx : Context} {method : Method} {request response : String}
    (service : Service) (h : typePaths ctx method = .ok (request, response)) :
    Step.traceAll (methodSteps ctx service method) =
      (methodStart method).andThen (methodTrace service method request response) := by
  rw [methodSteps, Step.traceAll_append, traceAll_methodStart, withTypes_of_ok h,
    traceAll_methodTemplate]

theorem outcome_methodSteps (ctx : Context) (service : Service) (method : Method) :
    (Step.traceAll (methodSteps ctx service method)).outcome = typesOutcome ctx method := by
  rw [methodSteps, Step.traceAll_append, traceAll_methodStart, Trace.andThen_of_ok _ rfl]
  refine outcome_withTypes ctx method _ fun request response => ?_
  rw [traceAll_methodTemplate, outcome_methodTrace]

theorem outcome_methods (ctx : Context) (service : Service) :
    (Step.traceAll (service.methods.flatMap (methodSteps ctx service))).outcome =
      unmappedOutcome ctx service.messages := by
  rw [Step.traceAll_flatMap, Trace.outcome_all, ← forM_typesOutcome]
  simp only [outcome_methodSteps]

def moduleMeanings (ctx : Context) (service : Service) : Meanings :=
  [("client_mod", .text (moduleName service)), ("client_ident", .text (service.ident ++ "Client")),
    ("service_doc", .text (DocComment.render service.comments.preferred)),
    ("methods", .block (Step.traceAll (service.methods.flatMap (methodSteps ctx service))))]

theorem bindsText_module (ctx : Context) (service : Service) :
    BindsText moduleNames (moduleMeanings ctx service) := by
  simp [BindsText, moduleNames, moduleMeanings, List.lookup_cons]

theorem lookup_service_doc (ctx : Context) (service : Service) :
    (moduleMeanings ctx service).lookup "service_doc" =
      some (.text (DocComment.render service.comments.preferred)) := by
  simp [moduleMeanings, List.lookup_cons]

theorem lookup_methods (ctx : Context) (service : Service) :
    (moduleMeanings ctx service).lookup "methods" =
      some (.block (Step.traceAll (service.methods.flatMap (methodSteps ctx service)))) := by
  simp [moduleMeanings, List.lookup_cons]

theorem traceAll_steps {ctx : Context} {service : Service}
    (h : clash? commonFunctions service.methods = none) :
    Step.traceAll (steps ctx service) = templateTrace (moduleMeanings ctx service) moduleTemplate := by
  rw [steps, unlessClash, h]
  simp only [Step.traceAll_singleton, Step.trace, Binding.meanings, Binding.meaning, moduleMeanings]

theorem otherItems_hold {P : Trace → Prop} {ctx : Context} {service : Service}
    (hP : HoldsOfComments P)
    (h : ∀ method ∈ service.methods, ∃ request response,
      typePaths ctx method = .ok (request, response) ∧
        P (methodTrace service method request response)) :
    ∀ item ∈ otherItems moduleNames moduleTemplate, P (item.trace (moduleMeanings ctx service)) := by
  rw [otherItems_module, List.forall_mem_cons, List.forall_mem_singleton]
  refine ⟨hP.soleComment 4 (lookup_service_doc ctx service),
    hP.soleBlock 8 (lookup_methods ctx service) (hP.flatMap fun method hmethod => ?_)⟩
  obtain ⟨request, response, htypes, htrace⟩ := h method hmethod
  rw [traceAll_methodSteps service htypes]
  exact hP.andThen (hP.andThen hP.emptyLine (hP.heading method)) htrace

theorem outcome_steps {ctx : Context} {service : Service}
    (h : clash? commonFunctions service.methods = none) :
    (Step.traceAll (steps ctx service)).outcome = unmappedOutcome ctx service.messages := by
  rw [traceAll_steps h, outcome_templateTrace moduleNames _ (bindsText_module ctx service),
    otherItems_module, List.map_cons, List.map_singleton,
    Item.trace_sole_text 4 (lookup_service_doc ctx service),
    Item.trace_sole_block 8 (lookup_methods ctx service), ← outcome_methods,
    Trace.all, Trace.all, Trace.all, Trace.andThen_done, Trace.andThen_of_ok _ rfl, Trace.shift]

end Client

namespace Server

def traitMeanings (method : Method) (request response : String) : Meanings :=
  [("ident", .text method.ident), ("request", .text request), ("response", .text response)]

theorem bindsText_trait (method : Method) (request response : String) :
    BindsText traitNames (traitMeanings method request response) := by
  simp [BindsText, traitNames, traitMeanings, List.lookup_cons]

def traitTrace (method : Method) (request response : String) : Trace :=
  templateTrace (traitMeanings method request response) (traitTemplate method.shape)

theorem traceAll_traitTemplate (method : Method) (request response : String) :
    Step.traceAll [.template
      [.text "ident" method.ident, .text "request" request, .text "response" response]
      (traitTemplate method.shape)] = traitTrace method request response := by
  simp only [Step.traceAll_singleton, Step.trace, Binding.meanings, Binding.meaning, traitTrace,
    traitMeanings]

theorem outcome_traitTrace (method : Method) (request response : String) :
    (traitTrace method request response).outcome = .ok () :=
  outcome_of_plain (bindsText_trait method request response) (otherItems_trait method.shape)

theorem traceAll_traitSteps {ctx : Context} {method : Method} {request response : String}
    (h : typePaths ctx method = .ok (request, response)) :
    Step.traceAll (traitSteps ctx method) =
      .andThen ⟨(headingLines method).map (Piece.mk 0), .ok ()⟩ (traitTrace method request response) := by
  rw [traitSteps, Step.traceAll, trace_heading, withTypes_of_ok h, traceAll_traitTemplate]

theorem outcome_traitSteps (ctx : Context) (method : Method) :
    (Step.traceAll (traitSteps ctx method)).outcome = typesOutcome ctx method := by
  rw [traitSteps, Step.traceAll, trace_heading, Trace.andThen_of_ok _ rfl]
  refine outcome_withTypes ctx method _ fun request response => ?_
  rw [traceAll_traitTemplate, outcome_traitTrace]

theorem outcome_traits (ctx : Context) (service : Service) :
    (Step.traceAll (List.intercalate [.emptyLine] (service.methods.map (traitSteps ctx)))).outcome =
      unmappedOutcome ctx service.messages := by
  rw [Step.outcome_intercalate, ← forM_typesOutcome]
  simp only [outcome_traitSteps]

def adapterMeanings (service : Service) (method : Method) (request response : String) : Meanings :=
  [("trait_ident", .text service.ident), ("svc_ident", .text (adapterName method)),
    ("ident", .text method.ident), ("request", .text request), ("response", .text response)]

theorem bindsText_adapter (service : Service) (method : Method) (request response : String) :
    BindsText adapterNames (adapterMeanings service method request response) := by
  simp [BindsText, adapterNames, adapterMeanings, List.lookup_cons]

def adapterTrace (service : Service) (method : Method) (request response : String) : Trace :=
  templateTrace (adapterMeanings service method request response) (adapterTemplate method.shape)

def routeMeanings (service : Service) (method : Method) (request response : String) : Meanings :=
  [("path", .text (service.route method)), ("trait_ident", .text service.ident),
    ("svc_ident", .text (adapterName method)),
    ("svc_impl", .block (adapterTrace service method request response)),
    ("codec", .text codec), ("grpc_call", .text method.shape.call)]

theorem bindsText_route (service : Service) (method : Method) (request response : String) :
    BindsText routeNames (routeMeanings service method request response) := by
  simp [BindsText, routeNames, routeMeanings, List.lookup_cons]

theorem lookup_svc_impl (service : Service) (method : Method) (request response : String) :
    (routeMeanings service method request response).lookup "svc_impl" =
      some (.block (adapterTrace service method request response)) := by
  simp [routeMeanings, List.lookup_cons]

def routeTrace (service : Service) (method : Method) (request response : String) : Trace :=
  templateTrace (routeMeanings service method request response) routeTemplate

theorem traceAll_routeTemplate (service : Service) (method : Method) (request response : String) :
    Step.traceAll [.template
      [.text "path" (service.route method), .text "trait_ident" service.ident,
        .text "svc_ident" (adapterName method),
        .block "svc_impl"
          [.template
            [.text "trait_ident" service.ident, .text "svc_ident" (adapterName method),
              .text "ident" method.ident, .text "request" request, .text "response" response]
            (adapterTemplate method.shape)],
        .text "codec" codec, .text "grpc_call" method.shape.call]
      routeTemplate] = routeTrace service method request response := by
  simp only [Step.traceAll_singleton, Step.trace, Binding.meanings, Binding.meaning, routeTrace,
    routeMeanings, adapterTrace, adapterMeanings]

theorem outcome_adapterTrace (service : Service) (method : Method) (request response : String) :
    (adapterTrace service method request response).outcome = .ok () :=
  outcome_of_plain (bindsText_adapter service method request response)
    (otherItems_adapter method.shape)

theorem outcome_routeTrace (service : Service) (method : Method) (request response : String) :
    (routeTrace service method request response).outcome = .ok () := by
  rw [routeTrace, outcome_templateTrace routeNames _ (bindsText_route service method request response),
    otherItems_route, List.map_singleton,
    Item.trace_sole_block 4 (lookup_svc_impl service method request response), Trace.all, Trace.all,
    Trace.andThen_done, Trace.shift, outcome_adapterTrace]

theorem traceAll_routeSteps {ctx : Context} {method : Method} {request response : String}
    (service : Service) (h : typePaths ctx method = .ok (request, response)) :
    Step.traceAll (routeSteps ctx service method) = routeTrace service method request response := by
  rw [routeSteps, withTypes_of_ok h, traceAll_routeTemplate]

theorem outcome_routeSteps (ctx : Context) (service : Service) (method : Method) :
    (Step.traceAll (routeSteps ctx service method)).outcome = typesOutcome ctx method := by
  refine outcome_withTypes ctx method _ fun request response => ?_
  rw [traceAll_routeTemplate, outcome_routeTrace]

theorem outcome_routes (ctx : Context) (service : Service) :
    (Step.traceAll (service.methods.flatMap (routeSteps ctx service))).outcome =
      unmappedOutcome ctx service.messages := by
  rw [Step.traceAll_flatMap, Trace.outcome_all, ← forM_typesOutcome]
  simp only [outcome_routeSteps]

def moduleMeanings (ctx : Context) (service : Service) : Meanings :=
  [("server_mod", .text (moduleName service)), ("trait_ident", .text service.ident),
    ("server_ident", .text (service.ident ++ "Server")), ("service_name", .text service.fullName),
    ("service_doc", .text (DocComment.render service.comments.preferred)),
    ("trait_methods", .block (Step.traceAll
      (List.intercalate [.emptyLine] (service.methods.map (traitSteps ctx))))),
    ("routes", .block (Step.traceAll (service.methods.flatMap (routeSteps ctx service))))]

theorem bindsText_module (ctx : Context) (service : Service) :
    BindsText moduleNames (moduleMeanings ctx service) := by
  simp [BindsText, moduleNames, moduleMeanings, List.lookup_cons]

theorem lookup_service_doc (ctx : Context) (service : Service) :
    (moduleMeanings ctx service).lookup "service_doc" =
      some (.text (DocComment.render service.comments.preferred)) := by
  simp [moduleMeanings, List.lookup_cons]

theorem lookup_trait_methods (ctx : Context) (service : Service) :
    (moduleMeanings ctx service).lookup "trait_methods" =
      some (.block (Step.traceAll
        (List.intercalate [.emptyLine] (service.methods.map (traitSteps ctx))))) := by
  simp [moduleMeanings, List.lookup_cons]

theorem lookup_routes (ctx : Context) (service : Service) :
    (moduleMeanings ctx service).lookup "routes" =
      some (.block (Step.traceAll (service.methods.flatMap (routeSteps ctx service)))) := by
  simp [moduleMeanings, List.lookup_cons]

theorem traceAll_steps {ctx : Context} {service : Service}
    (h : clash? [] service.methods = none) :
    Step.traceAll (steps ctx service) = templateTrace (moduleMeanings ctx service) moduleTemplate := by
  rw [steps, unlessClash, h]
  simp only [Step.traceAll_singleton, Step.trace, Binding.meanings, Binding.meaning, moduleMeanings]

theorem otherItems_route_hold {P : Trace → Prop} (hP : HoldsOfComments P) {service : Service}
    {method : Method} {request response : String}
    (h : P (adapterTrace service method request response)) :
    ∀ item ∈ otherItems routeNames routeTemplate,
      P (item.trace (routeMeanings service method request response)) := by
  rw [otherItems_route, List.forall_mem_singleton]
  exact hP.soleBlock 4 (lookup_svc_impl service method request response) h

theorem otherItems_hold {P : Trace → Prop} {ctx : Context} {service : Service}
    (hP : HoldsOfComments P)
    (h : ∀ method ∈ service.methods, ∃ request response,
      typePaths ctx method = .ok (request, response) ∧ P (traitTrace method request response) ∧
        P (routeTrace service method request response)) :
    ∀ item ∈ otherItems moduleNames moduleTemplate, P (item.trace (moduleMeanings ctx service)) := by
  rw [otherItems_module, List.forall_mem_cons, List.forall_mem_cons, List.forall_mem_singleton]
  refine ⟨hP.soleBlock 8 (lookup_trait_methods ctx service) (hP.intercalate fun method hmethod => ?_),
    hP.soleComment 4 (lookup_service_doc ctx service),
    hP.soleBlock 16 (lookup_routes ctx service) (hP.flatMap fun method hmethod => ?_)⟩
  · obtain ⟨request, response, htypes, htrait, _⟩ := h method hmethod
    rw [traceAll_traitSteps htypes]
    exact hP.andThen (hP.heading method) htrait
  · obtain ⟨request, response, htypes, _, hroute⟩ := h method hmethod
    rw [traceAll_routeSteps service htypes]
    exact hroute

theorem outcome_steps {ctx : Context} {service : Service} (h : clash? [] service.methods = none) :
    (Step.traceAll (steps ctx service)).outcome = unmappedOutcome ctx service.messages := by
  rw [traceAll_steps h, outcome_templateTrace moduleNames _ (bindsText_module ctx service),
    otherItems_module, List.map_cons, List.map_cons, List.map_singleton,
    Item.trace_sole_block 8 (lookup_trait_methods ctx service),
    Item.trace_sole_text 4 (lookup_service_doc ctx service),
    Item.trace_sole_block 16 (lookup_routes ctx service)]
  rw [Trace.all, Trace.outcome_andThen, Trace.all, Trace.outcome_andThen, Trace.all, Trace.all,
    Trace.andThen_done, Trace.shift, Trace.shift, outcome_traits, outcome_routes]
  -- Trait and routes resolve the same types in the same order, so the routes never fail first.
  cases unmappedOutcome ctx service.messages <;> rfl

end Server

end GrpcStubs
