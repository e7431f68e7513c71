import GrpcStubs.Proofs.NameClashes
import GrpcStubs.Proofs.TemplateBrackets

set_option autoImplicit false

namespace GrpcStubs
open Template Stub Text
attribute [local irreducible] templateTrace Text.lines DocComment.render

/-- The names that the code of a service is generated from are identifiers, or identifiers with dots
    between them in the case of the package. -/
structure IdentifierNames (ctx : Context) (service : Service) : Prop where
  package : service.package = "" ∨
    ∀ part ∈ splitAt '.' service.package.toList, Identifier.isName part = true
  name : Identifier.isName service.name.toList = true
  methods : ∀ method ∈ service.methods, Identifier.isName method.name.toList = true
  messages : ∀ message ∈ service.messages, ∀ name ∈ message.name :: message.enclosing,
    Identifier.isName name.toList = true
  crates : ∀ entry ∈ ctx.options.crates.entries, Identifier.isName entry.2.toList = true
  isModule : ctx.options.messageModule.IsModule

theorem isPathChar_of_mem_isName {name : List Char} (h : Identifier.isName name = true) :
    ∀ c ∈ name, isPathChar c = true :=
  fun c hc => isPathChar_of_isContinue (Identifier.mem_isName h c hc)

theorem isPathChar_of_dotted {text : List Char}
    (h : ∀ part ∈ splitAt '.' text, Identifier.isName part = true) :
    ∀ c ∈ text, isPathChar c = true := by
  intro c hc
  rcases eq_or_mem_splitAt '.' hc with rfl | ⟨part, hpart, hmem⟩
  · rfl
  · exact isPathChar_of_mem_isName (h part hpart) c hmem

theorem IdentifierNames.avoid {p : Char → Bool} {ctx : Context} {service : Service}
    (h : IdentifierNames ctx service) (hp : IsForeign p) : NamesAvoid p ctx service := by
  have hname : ∀ {name : String}, Identifier.isName name.toList = true → Avoids p name :=
    fun hname c hc => hp c (isPathChar_of_mem_isName hname c hc)
  refine ⟨?_, hname h.name, fun method hm => hname (h.methods method hm),
    fun message hm name hn => hname (h.messages message hm name hn),
    fun entry he => hname (h.crates entry he), h.isModule⟩
  rcases h.package with hempty | hparts
  · rw [hempty]
    exact hp.avoids rfl
  · exact fun c hc => hp c (isPathChar_of_dotted hparts c hc)

theorem isForeign_isBracket : IsForeign isBracket := by
  intro c hc
  cases hbracket : isBracket c with
  | false => rfl
  | true => rcases eq_of_isBracket hbracket with rfl | rfl | rfl | rfl | rfl | rfl <;> cases hc

theorem IdentifierNames.oneLineNames {ctx : Context} {service : Service}
    (h : IdentifierNames ctx service) : OneLineNames ctx service :=
  (h.avoid isForeign_lineFeed).oneLineNames

theorem holdsOfComments_nests : HoldsOfComments Trace.Nests where
  toIsCompositional := Trace.isCompositional_nests
  comment text extra := Trace.nests_lines extra fun row hrow => .inl (isDocLine_render text row hrow)
  deprecation method := by
    refine Trace.nests_lines 0 fun row hrow => .inr ?_
    rw [lines_deprecation] at hrow
    rw [List.mem_singleton.mp (List.mem_ite_nil_right.mp hrow).2, String.toList_ofList]
    decide

theorem nests_of_plain {names : List String} {meanings : Meanings} {source : String}
    (h : BindsAvoiding isBracket names meanings) (hnested : areNested names (items source) = true)
    (hok : (templateTrace meanings source).outcome = .ok ()) (hs : otherItems names source = []) :
    (templateTrace meanings source).Nests :=
  nests_templateTrace h hnested hok (hs ▸ fun _ hitem => absurd hitem List.not_mem_nil)

/-- Single lines that are laid out to modules with nested bodies, once documentation is left out. -/
structure AreModules (names : List String) (bodies : List (List Char)) (pieces : List Piece) :
    Prop where
  flat : ∀ piece ∈ pieces, '\n' ∉ piece.text
  length_eq : names.length = bodies.length
  nested : ∀ body ∈ bodies, Nested body
  code : layOut 0 (codeOnly pieces) = (List.zipWith moduleText names bodies).flatten

def PrintsModules (names : List String) (text : String) : Prop :=
  ∃ pieces bodies, text = .ofList (layOut 0 pieces) ∧ AreModules names bodies pieces

namespace PrintsModules

theorem nil : PrintsModules [] "" := by
  refine ⟨[], [], rfl, ?_, rfl, ?_, rfl⟩
  · exact fun piece hpiece => absurd hpiece List.not_mem_nil
  · exact fun body hbody => absurd hbody List.not_mem_nil

theorem append {names others : List String} {first second : String} (h : PrintsModules names first)
    (h' : PrintsModules others second) : PrintsModules (names ++ others) (first ++ second) := by
  obtain ⟨pieces, bodies, rfl, hpieces⟩ := h
  obtain ⟨rest, more, rfl, hrest⟩ := h'
  refine ⟨pieces ++ rest, bodies ++ more, ?_, ?_, ?_, ?_, ?_⟩
  · rw [layOut_append, String.ofList_append]
  · exact List.forall_mem_append.mpr ⟨hpieces.flat, hrest.flat⟩
  · rw [List.length_append, List.length_append, hpieces.length_eq, hrest.length_eq]
  · exact List.forall_mem_append.mpr ⟨hpieces.nested, hrest.nested⟩
  · rw [codeOnly_append, layOut_append, hpieces.code, hrest.code,
      List.zipWith_append hpieces.length_eq, List.flatten_append]

theorem join {α : Type} {R : α → String → Prop} {names : α → List String} {xs : List α}
    {texts : List String} (h : List.Forall₂ R xs texts)
    (heach : ∀ x ∈ xs, ∀ text, R x text → PrintsModules (names x) text) :
    PrintsModules (xs.flatMap names) (String.join texts) := by
  induction h with
  | nil => exact nil
  | cons hx _ ih =>
    obtain ⟨hfirst, hrest⟩ := List.forall_mem_cons.mp heach
    rw [List.flatMap_cons, String.join_cons]
    exact (hfirst _ hx).append (ih hrest)

end PrintsModules

theorem printsModules_template {names : List String} {meanings : Meanings}
    {source name content : String} {steps : List Step} {text : String}
    (hmodule : isModule names (moduleStart name) (items source) = true) (hname : name.toList ≠ [])
    (hlookup : meanings.lookup name = some (.text content))
    (h : BindsAvoiding isBracket names meanings)
    (hother : ∀ item ∈ otherItems names source, (item.trace meanings).Nests)
    (hsteps : Step.traceAll steps = templateTrace meanings source)
    (hflat : (Step.traceAll steps).IsFlat) (htext : Step.render steps = .ok text) :
    PrintsModules [content] text := by
  obtain ⟨hok, rfl⟩ := of_render_ok htext
  rw [hsteps] at hok hflat ⊢
  obtain ⟨body, hnested, hcode⟩ := layOut_module hmodule hname hlookup h hok hother
  refine ⟨_, [body], rfl, hflat, rfl, List.forall_mem_singleton.mpr hnested, ?_⟩
  rw [hcode]
  exact (List.append_nil _).symm

namespace Client

theorem isModule_moduleTemplate :
    isModule moduleNames (moduleStart "client_mod") (items moduleTemplate) = true := by
  rw [moduleSpelling.items_eq]
  decide +kernel

theorem areNested_method (shape : Shape) :
    areNested methodNames (items (methodTemplate shape)) = true := by
  rw [(methodSpelling shape).items_eq]
  cases shape <;> decide +kernel

theorem printsModules {ctx : Context} {service : Service} {client : String}
    (hnames : IdentifierNames ctx service) (hclient : Step.render (steps ctx service) = .ok client) :
    PrintsModules [moduleName service] client := by
  obtain ⟨hclash, hmapped⟩ := of_render_steps hclient
  have havoid := hnames.avoid isForeign_isBracket
  have hlookup : (moduleMeanings ctx service).lookup "client_mod" =
      some (.text (moduleName service)) := by simp [moduleMeanings]
  have hflat := isFlat_steps hnames.oneLineNames hclash
    fun method hmethod => typePaths_of_mapped hmapped hmethod
  refine printsModules_template isModule_moduleTemplate (by decide) hlookup
    (havoid.clientModule isForeign_isBracket) ?_ (traceAll_steps hclash) hflat hclient
  refine otherItems_hold holdsOfComments_nests fun method hmethod => ?_
  obtain ⟨⟨request, response⟩, htypes⟩ := typePaths_of_mapped hmapped hmethod
  have hbinds := havoid.clientMethod isForeign_isBracket hmethod htypes
  exact ⟨request, response, htypes, nests_of_plain hbinds (areNested_method method.shape)
    (outcome_methodTrace service method request response) (otherItems_method method.shape)⟩

end Client

namespace Server

theorem isModule_moduleTemplate :
    isModule moduleNames (moduleStart "server_mod") (items moduleTemplate) = true := by
  rw [moduleSpelling.items_eq]
  decide +kernel

theorem areNested_trait (shape : Shape) :
    areNested traitNames (items (traitTemplate shape)) = true := by
  rw [(traitSpelling shape).items_eq]
  cases shape <;> decide +kernel

theorem areNested_adapter (shape : Shape) :
    areNested adapterNames (items (adapterTemplate shape)) = true := by
  rw [(adapterSpelling shape).items_eq]
  cases shape <;> decide +kernel

theorem areNested_route : areNested routeNames (items routeTemplate) = true := by
  rw [routeSpelling.items_eq]
  decide +kernel

theorem printsModules {ctx : Context} {service : Service} {server : String}
    (hnames : IdentifierNames ctx service) (hserver : Step.render (steps ctx service) = .ok server) :
    PrintsModules [moduleName service] server := by
  obtain ⟨hclash, hmapped⟩ := of_render_steps hserver
  have havoid := hnames.avoid isForeign_isBracket
  have hlookup : (moduleMeanings ctx service).lookup "server_mod" =
      some (.text (moduleName service)) := by simp [moduleMeanings]
  have hflat := isFlat_steps hnames.oneLineNames hclash
    fun method hmethod => typePaths_of_mapped hmapped hmethod
  refine printsModules_template isModule_moduleTemplate (by decide) hlookup
    (havoid.serverModule isForeign_isBracket) ?_ (traceAll_steps hclash) hflat hserver
  refine otherItems_hold holdsOfComments_nests fun method hmethod => ?_
  obtain ⟨⟨request, response⟩, htypes⟩ := typePaths_of_mapped hmapped hmethod
  have htrait := havoid.serverTrait isForeign_isBracket hmethod htypes
  have hadapter := havoid.serverAdapter isForeign_isBracket hmethod htypes
  have hroute := havoid.serverRoute isForeign_isBracket hmethod request response
  refine ⟨request, response, htypes, ?_, ?_⟩
  · exact nests_of_plain htrait (areNested_trait method.shape)
      (outcome_traitTrace method request response) (otherItems_trait method.shape)
  · refine nests_templateTrace hroute areNested_route
      (outcome_routeTrace service method request response) ?_
    refine otherItems_route_hold holdsOfComments_nests ?_
    exact nests_of_plain hadapter (areNested_adapter method.shape)
      (outcome_adapterTrace service method request response) (otherItems_adapter method.shape)

end Server

theorem HalfText.printsModules {asked : Bool} {steps : List Step} {text name : String}
    (h : HalfText asked steps text)
    (hrender : Step.render steps = .ok text → PrintsModules [name] text) :
    PrintsModules (if asked then [name] else []) text := by
  cases asked with
  | true => exact hrender h
  | false =>
    obtain rfl : text = "" := h
    exact PrintsModules.nil

theorem SchemaFile.printsModules {options : Options} {file : SchemaFile} {generated : GeneratedFile}
    (hnames : ∀ service ∈ file.services, IdentifierNames ⟨options, file.name⟩ service)
    (h : file.generate options = .ok (some generated)) :
    PrintsModules (file.modules options) generated.content := by
  obtain ⟨codes, each, hcontent⟩ := exists_codes h
  rw [hcontent]
  refine PrintsModules.join each fun service hservice code hcode => ?_
  obtain ⟨client, server, hclient, hserver, rfl⟩ := hcode.halves
  have hservice := hnames service hservice
  exact (hclient.printsModules (Client.printsModules hservice)).append
    (hserver.printsModules (Server.printsModules hservice))

theorem outerBlocks_modules {names : List String} {bodies : List (List Char)}
    (hfree : ∀ name ∈ names, Avoids isBracket name) (hlength : names.length = bodies.length)
    (hnested : ∀ body ∈ bodies, Nested body) :
    Nested (List.zipWith moduleText names bodies).flatten ∧
      outerBlocks [] (List.zipWith moduleText names bodies).flatten = some bodies := by
  induction names generalizing bodies with
  | nil =>
    obtain rfl : bodies = [] := List.length_eq_zero_iff.mp hlength.symm
    exact ⟨.nil, rfl⟩
  | cons name names ih =>
    cases bodies with
    | nil => cases hlength
    | cons body bodies =>
      obtain ⟨hname, hnames⟩ := List.forall_mem_cons.mp hfree
      obtain ⟨hbody, hbodies⟩ := List.forall_mem_cons.mp hnested
      obtain ⟨hrest, hblocks⟩ := ih hnames (Nat.succ.inj hlength) hbodies
      rw [List.zipWith_cons_cons, List.flatten_cons]
      refine ⟨(nested_moduleText hname hbody).append hrest, ?_⟩
      rw [outerBlocks_moduleText _ hname hbody, hblocks]
      rfl

theorem SchemaFile.avoids_modules {options : Options} {file : SchemaFile}
    (hnames : ∀ service ∈ file.services, IdentifierNames ⟨options, file.name⟩ service) :
    ∀ name ∈ file.modules options, Avoids isBracket name := by
  intro name hname
  obtain ⟨service, hservice, hmem⟩ := List.mem_flatMap.mp hname
  have hstem := ((hnames service hservice).avoid isForeign_isBracket).moduleStem isForeign_isBracket
  rcases Service.mem_modules.mp hmem with ⟨_, rfl⟩ | ⟨_, rfl⟩
  · exact hstem.append (isForeign_isBracket.avoids (by decide))
  · exact hstem.append (isForeign_isBracket.avoids (by decide))

/-- Without its documentation lines, generated code is properly nested and consists of the modules
    of its file in order. Their bodies are its outermost blocks. -/
theorem generate_moduleBlocks {options : Options} {file : SchemaFile} {generated : GeneratedFile}
    (hnames : ∀ service ∈ file.services, IdentifierNames ⟨options, file.name⟩ service)
    (hgenerate : file.generate options = .ok (some generated)) :
    Nested (withoutDocLines generated.content) ∧
    ∃ bodies, outerBlocks [] (withoutDocLines generated.content) = some bodies ∧
      bodies.length = (file.modules options).length ∧
      withoutDocLines generated.content =
        (List.zipWith moduleText (file.modules options) bodies).flatten := by
  obtain ⟨pieces, bodies, hcontent, hmodules⟩ := SchemaFile.printsModules hnames hgenerate
  have hcode : withoutDocLines generated.content =
      (List.zipWith moduleText (file.modules options) bodies).flatten := by
    rw [hcontent, withoutDocLines_layOut hmodules.flat, hmodules.code]
  obtain ⟨hnested, hblocks⟩ := outerBlocks_modules (SchemaFile.avoids_modules hnames)
    hmodules.length_eq hmodules.nested
  rw [hcode]
  exact ⟨hnested, bodies, hblocks, hmodules.length_eq.symm, rfl⟩

theorem generate_moduleBlocks_commented :
    let find : Method :=
      { name := "Find", input := (Message.outermost "Outer" "a.proto").inside "Query",
        output := .outermost "Hit" "b.proto",
        shape := .streaming, deprecated := true, comments := ⟨"\x7d ) ]\n([\x7b", ""⟩ }
    let search : Service :=
      { package := "p.q", name := "Search", methods := [find], comments := ⟨"", "\r\x7d"⟩ }
    let file : SchemaFile := ⟨"a.proto", [search, { name := "self" }]⟩
    let options : Options := { crates := ⟨[("b.proto", "type")], by decide⟩ }
    (∀ service ∈ file.services, IdentifierNames ⟨options, "a.proto"⟩ service) ∧
    file.modules options = ["search_client", "search_server", "self__client", "self__server"] ∧
    ∃ generated, file.generate options = .ok (some generated) ∧
      Nested (withoutDocLines generated.content) ∧
      ∃ bodies, outerBlocks [] (withoutDocLines generated.content) = some bodies ∧
        bodies.length = 4 ∧ withoutDocLines generated.content =
          (List.zipWith moduleText (file.modules options) bodies).flatten := by
  intro find search file options
  have hnames : ∀ service ∈ file.services, IdentifierNames ⟨options, "a.proto"⟩ service :=
    List.forall_mem_cons.mpr
      ⟨⟨.inr (by decide), by decide, by decide, by decide, by decide, ⟨"self".toList, rfl⟩⟩,
        List.forall_mem_singleton.mpr
          ⟨.inl rfl, by decide, by decide, by decide, by decide, ⟨"self".toList, rfl⟩⟩⟩
  have hmodules : file.modules options =
      ["search_client", "search_server", "self__client", "self__server"] := by
    decide +kernel
  have hgenerate : ∃ generated, file.generate options = .ok (some generated) :=
    SchemaFile.exists_generate (List.cons_ne_nil _ _) (by decide +kernel)
      (List.forall_mem_cons.mpr ⟨rfl, List.forall_mem_singleton.mpr rfl⟩)
  obtain ⟨generated, hgenerated⟩ := hgenerate
  obtain ⟨hnested, bodies, hblocks, hlength, hcode⟩ := generate_moduleBlocks hnames hgenerated
  rw [hmodules] at hlength
  exact ⟨hnames, hmodules, generated, hgenerated, hnested, bodies, hblocks, hlength, hcode⟩

end GrpcStubs
