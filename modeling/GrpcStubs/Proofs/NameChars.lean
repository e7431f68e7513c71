import GrpcStubs.Proofs.Halves
import GrpcStubs.Proofs.ModulePath
import GrpcStubs.Proofs.Nesting

set_option autoImplicit false

namespace GrpcStubs
open Template Stub

def isPathChar (c : Char) : Bool :=
  Identifier.isContinue c || c == '#' || c == '.' || c == '/' || c == ':'

def IsForeign (p : Char → Bool) : Prop :=
  ∀ c, isPathChar c = true → p c = false

def Avoids (p : Char → Bool) (text : String) : Prop :=
  ∀ c ∈ text.toList, p c = false

/-- The names that the code of a service is generated from avoid some characters, and the module of
    the messages is one that can be configured. -/
structure NamesAvoid (p : Char → Bool) (ctx : Context) (service : Service) : Prop where
  package : Avoids p service.package
  name : Avoids p service.name
  methods : ∀ method ∈ service.methods, Avoids p method.name
  messages : ∀ message ∈ service.messages, ∀ name ∈ message.name :: message.enclosing, Avoids p name
  crates : ∀ entry ∈ ctx.options.crates.entries, Avoids p entry.2
  isModule : ctx.options.messageModule.IsModule

def BindsAvoiding (p : Char → Bool) (names : List String) (meanings : Meanings) : Prop :=
  ∀ name ∈ names, ∃ content, meanings.lookup name = some (.text content) ∧ Avoids p content

theorem BindsAvoiding.filledPart {p : Char → Bool} {names : List String} {meanings : Meanings}
    {name : Line} {filled : String} (h : BindsAvoiding p names meanings) (hdollar : p '$' = false)
    (hname : name.isEmpty = true ∨ String.ofList name ∈ names)
    (hfilled : filledPart (inlineOf meanings) name = .ok filled) : Avoids p filled := by
  unfold Template.filledPart at hfilled
  split at hfilled
  · cases hfilled
    unfold Avoids
    rw [String.toList_ofList]
    exact List.forall_mem_singleton.mpr hdollar
  · rename_i hempty
    obtain ⟨content, hlookup, hcontent⟩ := h _ (hname.resolve_left hempty)
    rw [inlineOf, hlookup] at hfilled
    cases hfilled
    exact hcontent

theorem isPathChar_of_isContinue {c : Char} (h : Identifier.isContinue c = true) :
    isPathChar c = true := by
  simp [isPathChar, h]

section
variable {p : Char → Bool}

theorem Avoids.append {first second : String} (hfirst : Avoids p first) (hsecond : Avoids p second) :
    Avoids p (first ++ second) := by
  unfold Avoids
  rw [String.toList_append]
  exact List.forall_mem_append.mpr ⟨hfirst, hsecond⟩

theorem IsForeign.avoids {text : String} (hp : IsForeign p)
    (h : text.toList.all isPathChar = true) : Avoids p text :=
  fun c hc => hp c (List.all_eq_true.mp h c hc)

variable (hp : IsForeign p)
include hp

theorem IsForeign.avoids_snakeCase {name : String} (h : Avoids p name) :
    Avoids p (Identifier.snakeCase name) := by
  intro c hc
  rcases Identifier.mem_snakeCase hc with hmem | hcontinue
  · exact h c hmem
  · exact hp c (isPathChar_of_isContinue hcontinue)

theorem IsForeign.avoids_upperCamelCase {name : String} (h : Avoids p name) :
    Avoids p (Identifier.upperCamelCase name) := by
  intro c hc
  rcases Identifier.mem_upperCamelCase hc with hmem | hcontinue
  · exact h c hmem
  · exact hp c (isPathChar_of_isContinue hcontinue)

theorem IsForeign.avoids_escape {name : String} (h : Avoids p name) :
    Avoids p (Identifier.escape name) := by
  intro c hc
  rcases Identifier.mem_escape hc with hmem | rfl | rfl | rfl
  · exact h c hmem
  · exact hp _ rfl
  · exact hp _ rfl
  · exact hp _ rfl

theorem IsForeign.avoids_segment {segment : String} (h : Path.IsSegment segment) :
    Avoids p segment := by
  intro c hc
  rcases h.chars c hc with hcontinue | rfl
  · exact hp c (isPathChar_of_isContinue hcontinue)
  · exact hp _ rfl

theorem IsForeign.avoids_render {path : Path} (h : ∀ segment ∈ path.segments, Avoids p segment) :
    Avoids p path.render := by
  intro c hc
  rcases Path.mem_render hc with rfl | ⟨segment, hsegment, hmem⟩
  · exact hp _ rfl
  · exact h segment hsegment c hmem

theorem IsForeign.avoids_localSegments {message : Message}
    (h : ∀ name ∈ message.name :: message.enclosing, Avoids p name) :
    ∀ segment ∈ message.localSegments, Avoids p segment := by
  rw [message.localSegments_eq]
  exact Message.forall_mem_writtenNames h (fun _ => hp.avoids_snakeCase) fun _ => hp.avoids_escape

end

theorem mem_entries_of_get? {crates : CrateMap} {file crate : String}
    (h : crates.get? file = some crate) : (file, crate) ∈ crates.entries := by
  obtain ⟨before, after, hentries, _⟩ := List.lookup_eq_some_iff.mp h
  rw [hentries]
  exact List.mem_append_right before List.mem_cons_self

theorem Service.route_eq (service : Service) (method : Method) :
    service.route method = "/" ++ service.fullName ++ "/" ++ method.name :=
  rfl

namespace NamesAvoid
variable {p : Char → Bool} {ctx : Context} {service : Service} {method : Method}

theorem typePath {message : Message} {depth : Nat} {path : Path} (h : NamesAvoid p ctx service)
    (hp : IsForeign p) (hmessage : message ∈ service.messages)
    (hpath : ctx.typePath depth message = .ok path) : Avoids p path.render := by
  have hlocal := hp.avoids_localSegments (h.messages message hmessage)
  refine hp.avoids_render fun segment hs => ?_
  unfold Context.typePath at hpath
  split at hpath
  · cases hpath
    rcases Path.mem_descend hs with hs | rfl | hs
    · exact hp.avoids_segment (h.isModule.isSegment segment hs)
    · exact hp.avoids (by decide)
    · exact hlocal segment hs
  · split at hpath
    · rename_i crate hcrate
      cases hpath
      rcases List.mem_cons.mp hs with rfl | hs
      · exact hp.avoids_escape (h.crates _ (mem_entries_of_get? hcrate))
      · exact hlocal segment hs
    · cases hpath

theorem typePaths {request response : String} (h : NamesAvoid p ctx service) (hp : IsForeign p)
    (hmethod : method ∈ service.methods)
    (htypes : Stub.typePaths ctx method = .ok (request, response)) :
    Avoids p request ∧ Avoids p response := by
  have hmem : ∀ message ∈ [method.input, method.output], message ∈ service.messages :=
    fun message hm => List.mem_flatMap.mpr ⟨method, hmethod, hm⟩
  obtain ⟨hinput, hrest⟩ := List.forall_mem_cons.mp hmem
  have houtput := List.forall_mem_singleton.mp hrest
  unfold Stub.typePaths at htypes
  cases hi : ctx.typePath moduleDepth method.input with
  | error e => rw [hi] at htypes; cases htypes
  | ok input =>
    rw [hi] at htypes
    cases ho : ctx.typePath moduleDepth method.output with
    | error e => rw [ho] at htypes; cases htypes
    | ok output =>
      rw [ho] at htypes
      cases htypes
      exact ⟨h.typePath hp hinput hi, h.typePath hp houtput ho⟩

theorem fullName (h : NamesAvoid p ctx service) (hp : IsForeign p) : Avoids p service.fullName := by
  have hdotted : Avoids p (service.package ++ "." ++ service.name) :=
    (h.package.append (hp.avoids (by decide))).append h.name
  unfold Service.fullName
  split
  · exact h.name
  · exact hdotted

theorem ident (h : NamesAvoid p ctx service) (hp : IsForeign p) : Avoids p service.ident :=
  hp.avoids_escape (hp.avoids_upperCamelCase h.name)

theorem moduleStem (h : NamesAvoid p ctx service) (hp : IsForeign p) : Avoids p service.moduleStem :=
  hp.avoids_snakeCase (h.ident hp)

theorem function (h : NamesAvoid p ctx service) (hp : IsForeign p)
    (hmethod : method ∈ service.methods) : Avoids p method.ident :=
  hp.avoids_escape (hp.avoids_snakeCase (h.methods method hmethod))

theorem route (h : NamesAvoid p ctx service) (hp : IsForeign p) (hmethod : method ∈ service.methods) :
    Avoids p (service.route method) := by
  have hslash : Avoids p "/" := hp.avoids (by decide)
  rw [Service.route_eq]
  exact ((hslash.append (h.fullName hp)).append hslash).append (h.methods method hmethod)

theorem adapterName (h : NamesAvoid p ctx service) (hp : IsForeign p)
    (hmethod : method ∈ service.methods) : Avoids p (Server.adapterName method) :=
  (h.methods method hmethod).append (hp.avoids (by decide))

theorem clientModule (h : NamesAvoid p ctx service) (hp : IsForeign p) :
    BindsAvoiding p Client.moduleNames (Client.moduleMeanings ctx service) := by
  have hmodule : Avoids p (Client.moduleName service) :=
    (h.moduleStem hp).append (hp.avoids (by decide))
  have hident : Avoids p (service.ident ++ "Client") := (h.ident hp).append (hp.avoids (by decide))
  simp [BindsAvoiding, Client.moduleNames, Client.moduleMeanings, List.lookup_cons, hmodule, hident]

theorem clientMethod {request response : String} (h : NamesAvoid p ctx service) (hp : IsForeign p)
    (hmethod : method ∈ service.methods)
    (htypes : Stub.typePaths ctx method = .ok (request, response)) :
    BindsAvoiding p Client.methodNames (Client.methodMeanings service method request response) := by
  obtain ⟨hrequest, hresponse⟩ := h.typePaths hp hmethod htypes
  have hcodec : Avoids p codec := hp.avoids (by decide)
  simp [BindsAvoiding, Client.methodNames, Client.methodMeanings, List.lookup_cons, hrequest,
    hresponse, hcodec, h.function hp hmethod, h.route hp hmethod, h.fullName hp,
    h.methods method hmethod]

theorem serverModule (h : NamesAvoid p ctx service) (hp : IsForeign p) :
    BindsAvoiding p Server.moduleNames (Server.moduleMeanings ctx service) := by
  have hmodule : Avoids p (Server.moduleName service) :=
    (h.moduleStem hp).append (hp.avoids (by decide))
  have hident : Avoids p (service.ident ++ "Server") := (h.ident hp).append (hp.avoids (by decide))
  simp [BindsAvoiding, Server.moduleNames, Server.moduleMeanings, List.lookup_cons, hmodule, hident,
    h.ident hp, h.fullName hp]

theorem serverTrait {request response : String} (h : NamesAvoid p ctx service) (hp : IsForeign p)
    (hmethod : method ∈ service.methods)
    (htypes : Stub.typePaths ctx method = .ok (request, response)) :
    BindsAvoiding p Server.traitNames (Server.traitMeanings method request response) := by
  obtain ⟨hrequest, hresponse⟩ := h.typePaths hp hmethod htypes
  simp [BindsAvoiding, Server.traitNames, Server.traitMeanings, List.lookup_cons, hrequest,
    hresponse, h.function hp hmethod]

theorem serverAdapter {request response : String} (h : NamesAvoid p ctx service) (hp : IsForeign p)
    (hmethod : method ∈ service.methods)
    (htypes : Stub.typePaths ctx method = .ok (request, response)) :
    BindsAvoiding p Server.adapterNames (Server.adapterMeanings service method request response) := by
  obtain ⟨hrequest, hresponse⟩ := h.typePaths hp hmethod htypes
  simp [BindsAvoiding, Server.adapterNames, Server.adapterMeanings, List.lookup_cons, hrequest,
    hresponse, h.adapterName hp hmethod, h.ident hp, h.function hp hmethod]

theorem serverRoute (h : NamesAvoid p ctx service) (hp : IsForeign p)
    (hmethod : method ∈ service.methods) (request response : String) :
    BindsAvoiding p Server.routeNames (Server.routeMeanings service method request response) := by
  have hcodec : Avoids p codec := hp.avoids (by decide)
  have hcall : Avoids p method.shape.call := by
    cases method.shape <;> exact hp.avoids (by decide)
  simp [BindsAvoiding, Server.routeNames, Server.routeMeanings, List.lookup_cons, hcodec, hcall,
    h.adapterName hp hmethod, h.ident hp, h.route hp hmethod]

end NamesAvoid

end GrpcStubs
