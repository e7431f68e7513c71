import GrpcStubs.Plugin
import GrpcStubs.Proofs.Sequencing

set_option autoImplicit false

namespace GrpcStubs
open Template

def HalfText (asked : Bool) (steps : List Step) (text : String) : Prop :=
  if asked then Step.render steps = .ok text else text = ""

/-- The code of a service on its own: its client and then its server. -/
structure Service.HasCode (ctx : Context) (service : Service) (code : String) : Prop where
  fragments : ∃ fragments, service.fragments ctx = .ok fragments ∧ code = String.join fragments
  halves : ∃ client server, HalfText ctx.options.buildClient (Client.steps ctx service) client ∧
    HalfText ctx.options.buildServer (Server.steps ctx service) server ∧ code = client ++ server

theorem Service.hasCode_of_fragments {ctx : Context} {service : Service} {fragments : List String}
    (h : service.fragments ctx = .ok fragments) : service.HasCode ctx (String.join fragments) := by
  refine ⟨⟨fragments, h, rfl⟩, ?_⟩
  have hhalves := mapM_eq_ok_iff.mp h
  unfold Service.halves at hhalves
  unfold HalfText
  cases hc : ctx.options.buildClient <;> cases hs : ctx.options.buildServer <;> rw [hc, hs] at hhalves
  · cases hhalves
    exact ⟨"", "", rfl, rfl, rfl⟩
  · rcases hhalves with _ | ⟨hserver, _ | _⟩
    exact ⟨"", _, rfl, hserver, by simp⟩
  · rcases hhalves with _ | ⟨hclient, _ | _⟩
    exact ⟨_, "", hclient, rfl, by simp⟩
  · rcases hhalves with _ | ⟨hclient, _ | ⟨hserver, _ | _⟩⟩
    exact ⟨_, _, hclient, hserver, by simp⟩

theorem join_flatten (fragments : List (List String)) :
    String.join fragments.flatten = String.join (fragments.map String.join) := by
  induction fragments with
  | nil => rfl
  | cons first rest ih =>
    rw [List.flatten_cons, String.join_append, ih, List.map_cons, String.join_cons]

namespace SchemaFile

theorem mapM_fragments_of_hasCode {ctx : Context} {services : List Service} {codes : List String}
    (each : List.Forall₂ (Service.HasCode ctx) services codes) :
    ∃ fragments, services.mapM (Service.fragments ctx) = .ok fragments ∧
      codes = fragments.map String.join := by
  induction each with
  | nil => exact ⟨[], rfl, rfl⟩
  | cons hservice _ ih =>
    obtain ⟨first, hfirst, rfl⟩ := hservice.fragments
    obtain ⟨rest, hrest, rfl⟩ := ih
    exact ⟨first :: rest, by rw [mapM_cons_of_ok hfirst, hrest]; rfl, rfl⟩

theorem generate_of_hasCode {options : Options} {file : SchemaFile} {codes : List String}
    (nonempty : file.services ≠ [])
    (each : List.Forall₂ (Service.HasCode ⟨options, file.name⟩) file.services codes) :
    file.generate options = .ok (some ⟨outputName file.name, String.join codes⟩) := by
  obtain ⟨fragments, hfragments, hcodes⟩ := mapM_fragments_of_hasCode each
  rw [generate, if_neg (by simpa using nonempty), hfragments, hcodes, ← join_flatten]
  rfl

theorem generate_of_firstFailure {options : Options} {file : SchemaFile} {error : Error}
    (failed : FirstFailure (Service.fragments ⟨options, file.name⟩) file.services error) :
    file.generate options = .error error := by
  have hne : file.services ≠ [] := by
    obtain ⟨before, service, after, hsplit, -⟩ := failed
    simp [hsplit]
  rw [generate, if_neg (by simpa using hne), mapM_eq_error_iff.mpr failed]
  rfl

theorem hasCode_or_firstFailure (ctx : Context) (services : List Service) :
    (∃ codes, List.Forall₂ (Service.HasCode ctx) services codes) ∨
      ∃ error, FirstFailure (Service.fragments ctx) services error := by
  cases h : services.mapM (Service.fragments ctx) with
  | error error => exact .inr ⟨error, mapM_eq_error_iff.mp h⟩
  | ok fragments =>
    refine .inl ⟨fragments.map String.join, List.forall₂_map_right_iff.mpr ?_⟩
    exact (mapM_eq_ok_iff.mp h).imp fun _ _ hservice => Service.hasCode_of_fragments hservice

end SchemaFile

def Error.wording : Error → String
  | .unmappedFile file typeName =>
    "unmapped dependency: `" ++ file ++ "` (defining `" ++ typeName ++ "`) is not in the crate mapping"
  | .malformedMapping detail => "malformed crate mapping file: " ++ detail
  | .unreadableFile path reason => "failed to read " ++ path ++ ": " ++ reason
  | .invalidParameters detail => "invalid parameters: " ++ detail
  | .unboundName name => "template references undefined variable `" ++ name ++ "`"
  | .malformedTemplate detail => "malformed template: " ++ detail
  | .nameClash service method ident =>
    "method `" ++ method ++ "` of `" ++ service ++ "` generates `" ++ ident ++
      "`, which is already defined"

theorem Error.message_eq_wording (error : Error) : error.message = error.wording := by
  cases error <;> rfl

def joined : List String → String
  | [] => ""
  | [text] => text
  | text :: next :: texts => text ++ ": " ++ joined (next :: texts)

theorem intercalate_eq_joined (texts : List String) : ": ".intercalate texts = joined texts := by
  fun_induction joined texts with
  | case1 => rfl
  | case2 text => exact String.intercalate_singleton
  | case3 text next texts ih => rw [String.intercalate_cons_cons, ih]

theorem Failure.message_eq_joined (failure : Failure) : failure.message = joined failure.chain :=
  intercalate_eq_joined failure.chain

namespace Descriptor

/-- The texts that are reported of a file that cannot be resolved. -/
inductive Unresolved : Failure → List String → Prop where
  | undefined (service typeName : String) :
    Unresolved ⟨[.readService service], .undefinedMessage typeName⟩
      ["in service `" ++ service ++ "`",
        "message type `" ++ typeName ++ "` is not defined in the request"]
  | manyMethods (service : String) :
    Unresolved ⟨[.readService service, .countMethods], .outOfRange⟩
      ["in service `" ++ service ++ "`", "too many methods",
        "out of range integral type conversion attempted"]
  | manyServices :
    Unresolved ⟨[.countServices], .outOfRange⟩
      ["too many services", "out of range integral type conversion attempted"]

theorem Unresolved.chain_eq {failure : Failure} {texts : List String}
    (h : Unresolved failure texts) : failure.chain = texts := by
  cases h <;> rfl

theorem checkPosition_eq_error {task : Failure.Task} {position : Nat} {failure : Failure}
    (h : checkPosition task position = .error failure) : failure = ⟨[task], .outOfRange⟩ := by
  unfold checkPosition at h
  split at h
  · cases h
  · exact (Except.error.inj h).symm

theorem findMessage_eq_error {index : Index} {typeName : String} {failure : Failure}
    (h : findMessage index typeName = .error failure) :
    failure = ⟨[], .undefinedMessage typeName⟩ := by
  unfold findMessage at h
  split at h
  · cases h
  · exact (Except.error.inj h).symm

theorem Method.resolve_eq_error {index : Index} {comments : Comments} {method : Method}
    {failure : Failure} (h : method.resolve index comments = .error failure) :
    ∃ typeName, failure = ⟨[], .undefinedMessage typeName⟩ := by
  rcases bind_eq_error_iff.mp h with hinput | ⟨input, -, h⟩
  · exact ⟨_, findMessage_eq_error hinput⟩
  · exact ⟨_, findMessage_eq_error (bind_pure_eq_error_iff.mp h)⟩

theorem Service.resolve_eq_error {index : Index} {file : File} {position : Nat} {service : Service}
    {failure : Failure} (h : service.resolve index file position = .error failure) :
    failure = ⟨[.countMethods], .outOfRange⟩ ∨
      ∃ typeName, failure = ⟨[], .undefinedMessage typeName⟩ := by
  obtain ⟨-, ⟨method, i⟩, -, -, -, hmethod⟩ := mapM_eq_error_iff.mp (bind_pure_eq_error_iff.mp h)
  rcases bind_eq_error_iff.mp hmethod with hcount | ⟨-, -, hmethod⟩
  · exact .inl (checkPosition_eq_error hcount)
  · exact .inr (Method.resolve_eq_error hmethod)

theorem File.exists_unresolved {index : Index} {file : File} {failure : Failure}
    (h : file.resolve index = .error failure) : ∃ texts, Unresolved failure texts := by
  -- a service fails where it is counted, or in the course of being read
  obtain ⟨-, ⟨service, i⟩, -, -, -, hservice⟩ := mapM_eq_error_iff.mp (bind_pure_eq_error_iff.mp h)
  rcases bind_eq_error_iff.mp hservice with hcount | ⟨-, -, hservice⟩
  · obtain rfl := checkPosition_eq_error hcount
    exact ⟨_, .manyServices⟩
  · obtain ⟨inner, hinner, rfl⟩ := mapError_eq_error_iff.mp hservice
    rcases Service.resolve_eq_error hinner with rfl | ⟨typeName, rfl⟩
    · exact ⟨_, .manyMethods service.name⟩
    · exact ⟨_, .undefined service.name typeName⟩

end Descriptor

theorem Descriptor.File.resolve_eq_ok {index : Descriptor.Index} {file : Descriptor.File}
    {resolved : SchemaFile} (h : file.resolve index = .ok resolved) :
    resolved.name = file.name ∧ resolved.services.length = file.services.length := by
  obtain ⟨services, hservices, hresolved⟩ := bind_eq_ok_iff.mp h
  obtain rfl := Except.ok.inj hresolved
  have hlength := (mapM_eq_ok_iff.mp hservices).length_eq
  rw [List.length_zipIdx] at hlength
  exact ⟨rfl, hlength.symm⟩

theorem Descriptor.File.resolve_of_empty {index : Descriptor.Index} {file : Descriptor.File}
    (h : file.services = []) : file.resolve index = .ok ⟨file.name, []⟩ := by
  rw [resolve, h]
  rfl

namespace Plugin

def FirstNamed (described : List Descriptor.File) (name : String) (file : Descriptor.File) : Prop :=
  file.name = name ∧ ∃ before after, described = before ++ file :: after ∧
    ∀ other ∈ before, other.name ≠ name

/-- What a requested file yields on its own. -/
inductive Yields (options : Options) (described : List Descriptor.File) (name : String) :
    Option GeneratedFile → Prop where
  | nothing {file : Descriptor.File} (found : FirstNamed described name file)
    (empty : file.services = []) : Yields options described name none
  | code {file : Descriptor.File} {resolved : SchemaFile} {codes : List String}
    (found : FirstNamed described name file) (nonempty : file.services ≠ [])
    (read : file.resolve (.ofFiles described) = .ok resolved)
    (each : List.Forall₂ (Service.HasCode ⟨options, name⟩) resolved.services codes) :
    Yields options described name (some ⟨outputName name, String.join codes⟩)

/-- How a requested file fails on its own, with the texts that are reported of it. -/
inductive Fails (options : Options) (described : List Descriptor.File) (name : String) :
    List String → Prop where
  | absent (missing : ∀ file ∈ described, file.name ≠ name) :
    Fails options described name ["file `" ++ name ++ "` was requested but not provided"]
  | read {file : Descriptor.File} {failure : Failure} {texts : List String}
    (found : FirstNamed described name file)
    (failed : file.resolve (.ofFiles described) = .error failure)
    (reported : Descriptor.Unresolved failure texts) :
    Fails options described name (("failed to read " ++ name) :: texts)
  | generate {file : Descriptor.File} {resolved : SchemaFile} {error : Error}
    (found : FirstNamed described name file)
    (read : file.resolve (.ofFiles described) = .ok resolved)
    (failed : FirstFailure (Service.fragments ⟨options, name⟩) resolved.services error) :
    Fails options described name ["failed to generate services for " ++ name, error.wording]

/-- The answers that a request may have. -/
inductive Answer (texts : Texts) (request : Request) : Response → Prop where
  | badParameter {error : Error}
    (parameter : Options.parse texts request.parameter = .error error) :
    Answer texts request { error := some ("invalid plugin parameter: " ++ error.wording) }
  | failed {parsed : Options} {before after : List String} {name : String} {chain : List String}
    (parameter : Options.parse texts request.parameter = .ok parsed)
    (requested : request.toGenerate = before ++ name :: after)
    (earlier : ∀ other ∈ before, ∃ generated,
      Yields { parsed with crateFiles := request.toGenerate } request.files other generated)
    (first : Fails { parsed with crateFiles := request.toGenerate } request.files name chain) :
    Answer texts request { error := some (joined chain) }
  | generated {parsed : Options} {outputs : List (Option GeneratedFile)}
    (parameter : Options.parse texts request.parameter = .ok parsed)
    (each : List.Forall₂
      (Yields { parsed with crateFiles := request.toGenerate } request.files)
      request.toGenerate outputs) :
    Answer texts request { files := outputs.filterMap id }

theorem firstNamed_iff {described : List Descriptor.File} {name : String} {file : Descriptor.File} :
    FirstNamed described name file ↔
      described.find? (fun file => file.name == name) = some file := by
  rw [List.find?_eq_some_iff_append, FirstNamed]
  simp

theorem output_of_resolved {options : Options} {described : List Descriptor.File} {name : String}
    {file : Descriptor.File} {resolved : SchemaFile} (found : FirstNamed described name file)
    (read : file.resolve (.ofFiles described) = .ok resolved) :
    output options described (.ofFiles described) name =
      (resolved.generate options).mapError fun error => ⟨[.generateFile name], .generation error⟩ := by
  rw [output, firstNamed_iff.mp found]
  dsimp only
  rw [read]
  simp only [Except.mapError, bind, Except.bind]
  cases resolved.generate options <;> rfl

theorem Yields.output_eq {options : Options} {described : List Descriptor.File} {name : String}
    {generated : Option GeneratedFile} (h : Yields options described name generated) :
    output options described (.ofFiles described) name = .ok generated := by
  cases h with
  | nothing found empty =>
    rw [output_of_resolved found (Descriptor.File.resolve_of_empty empty)]
    rfl
  | @code file resolved codes found nonempty read each =>
    obtain ⟨hname, hlength⟩ := Descriptor.File.resolve_eq_ok read
    rw [found.1] at hname
    have hservices : resolved.services ≠ [] := fun hnil =>
      nonempty (List.eq_nil_of_length_eq_zero (by rw [← hlength, hnil]; rfl))
    rw [← hname] at each
    rw [output_of_resolved found read, SchemaFile.generate_of_hasCode hservices each, hname]
    rfl

theorem Fails.output_eq {options : Options} {described : List Descriptor.File} {name : String}
    {chain : List String} (h : Fails options described name chain) :
    ∃ failure : Failure, output options described (.ofFiles described) name = .error failure ∧
      failure.chain = chain := by
  cases h with
  | absent missing =>
    have hfind : described.find? (fun file => file.name == name) = none :=
      List.find?_eq_none.mpr fun file hfile => by simpa using missing file hfile
    exact ⟨⟨[], .fileNotProvided name⟩, by rw [output, hfind], rfl⟩
  | @read file failure texts found failed reported =>
    refine ⟨failure.during (.readFile name), ?_, ?_⟩
    · rw [output, firstNamed_iff.mp found]
      dsimp only
      rw [failed]
      rfl
    · exact congrArg (("failed to read " ++ name) :: ·) reported.chain_eq
  | @generate file resolved error found read failed =>
    obtain ⟨hname, -⟩ := Descriptor.File.resolve_eq_ok read
    rw [found.1] at hname
    rw [← hname] at failed
    refine ⟨⟨[.generateFile name], .generation error⟩, ?_, ?_⟩
    · rw [output_of_resolved found read, SchemaFile.generate_of_firstFailure failed]
      rfl
    · exact congrArg (fun text => ["failed to generate services for " ++ name, text])
        error.message_eq_wording

theorem yields_or_fails (options : Options) (described : List Descriptor.File) (name : String) :
    (∃ generated, Yields options described name generated) ∨
      ∃ chain, Fails options described name chain := by
  cases hfind : described.find? fun file => file.name == name with
  | none =>
    refine .inr ⟨_, .absent fun file hfile => ?_⟩
    simpa using List.find?_eq_none.mp hfind file hfile
  | some file =>
    have found := firstNamed_iff.mpr hfind
    by_cases empty : file.services = []
    · exact .inl ⟨_, .nothing found empty⟩
    · cases read : file.resolve (.ofFiles described) with
      | error failure =>
        obtain ⟨texts, reported⟩ := Descriptor.File.exists_unresolved read
        exact .inr ⟨_, .read found read reported⟩
      | ok resolved =>
        rcases SchemaFile.hasCode_or_firstFailure ⟨options, name⟩ resolved.services with
          ⟨codes, each⟩ | ⟨error, failed⟩
        · exact .inl ⟨_, .code found empty read each⟩
        · exact .inr ⟨_, .generate found read failed⟩

theorem output_eq_ok_iff {options : Options} {described : List Descriptor.File} {name : String}
    {generated : Option GeneratedFile} :
    output options described (.ofFiles described) name = .ok generated ↔
      Yields options described name generated := by
  refine ⟨fun h => ?_, Yields.output_eq⟩
  rcases yields_or_fails options described name with ⟨other, hother⟩ | ⟨chain, hfails⟩
  · obtain rfl := Except.ok.inj (h.symm.trans hother.output_eq)
    exact hother
  · obtain ⟨failure, hfailure, -⟩ := hfails.output_eq
    exact absurd (h.symm.trans hfailure) (by simp)

theorem fails_of_output_eq_error {options : Options} {described : List Descriptor.File}
    {name : String} {failure : Failure}
    (h : output options described (.ofFiles described) name = .error failure) :
    Fails options described name failure.chain := by
  rcases yields_or_fails options described name with ⟨generated, hgenerated⟩ | ⟨chain, hfails⟩
  · exact absurd (h.symm.trans hgenerated.output_eq) (by simp)
  · obtain ⟨other, hother, rfl⟩ := hfails.output_eq
    obtain rfl := Except.error.inj (h.symm.trans hother)
    exact hfails

theorem mapM_output_eq_ok_iff {options : Options} {described : List Descriptor.File}
    {requested : List String} {generated : List (Option GeneratedFile)} :
    requested.mapM (output options described (.ofFiles described)) = .ok generated ↔
      List.Forall₂ (Yields options described) requested generated := by
  simp only [mapM_eq_ok_iff, output_eq_ok_iff]

theorem mapM_output_of_fails {options : Options} {described : List Descriptor.File}
    {requested before after : List String} {name : String} {chain : List String}
    (split : requested = before ++ name :: after)
    (earlier : ∀ other ∈ before, ∃ generated, Yields options described other generated)
    (first : Fails options described name chain) :
    ∃ failure : Failure, requested.mapM (output options described (.ofFiles described)) =
      .error failure ∧ failure.chain = chain := by
  obtain ⟨failure, hfailure, hchain⟩ := first.output_eq
  refine ⟨failure, mapM_eq_error_iff.mpr ⟨before, name, after, split, ?_, hfailure⟩, hchain⟩
  intro other hother
  obtain ⟨generated, hgenerated⟩ := earlier other hother
  exact ⟨generated, hgenerated.output_eq⟩

theorem outputs_of_parse_error {texts : Texts} {parameter : String} {error : Error}
    (h : Options.parse texts parameter = .error error) (described : List Descriptor.File)
    (requested : List String) :
    outputs texts described requested parameter = .error ⟨[.readParameter], .generation error⟩ := by
  rw [outputs, options, h]
  rfl

theorem outputs_of_parse_ok {texts : Texts} {parameter : String} {parsed : Options}
    (h : Options.parse texts parameter = .ok parsed) (described : List Descriptor.File)
    (requested : List String) :
    outputs texts described requested parameter =
      (requested.mapM (output { parsed with crateFiles := requested } described
        (.ofFiles described))).map (·.filterMap id) := by
  rw [outputs, options, h]
  simp only [bind, Except.bind]
  cases requested.mapM (output { parsed with crateFiles := requested } described
    (.ofFiles described)) <;> rfl

theorem respond_of_error {texts : Texts} {request : Request} {failure : Failure}
    (h : outputs texts request.files request.toGenerate request.parameter = .error failure) :
    respond texts request = { error := some failure.message } := by
  rw [respond, h]

theorem respond_of_ok {texts : Texts} {request : Request} {generated : List GeneratedFile}
    (h : outputs texts request.files request.toGenerate request.parameter = .ok generated) :
    respond texts request = { files := generated } := by
  rw [respond, h]

theorem Answer.respond_eq {texts : Texts} {request : Request} {response : Response}
    (h : Answer texts request response) : respond texts request = response := by
  cases h with
  | @badParameter error parameter =>
    rw [respond_of_error (outputs_of_parse_error parameter _ _), Failure.message_eq_joined,
      ← error.message_eq_wording]
    rfl
  | @failed parsed before after name chain parameter requested earlier first =>
    obtain ⟨failure, hmap, rfl⟩ := mapM_output_of_fails requested earlier first
    rw [← Failure.message_eq_joined]
    refine respond_of_error ?_
    rw [outputs_of_parse_ok parameter, hmap]
    rfl
  | generated parameter each =>
    refine respond_of_ok ?_
    rw [outputs_of_parse_ok parameter, mapM_output_eq_ok_iff.mpr each]
    rfl

theorem exists_answer (texts : Texts) (request : Request) :
    ∃ response, Answer texts request response := by
  cases parameter : Options.parse texts request.parameter with
  | error error => exact ⟨_, .badParameter parameter⟩
  | ok parsed =>
    cases hmap : request.toGenerate.mapM
        (output { parsed with crateFiles := request.toGenerate } request.files
          (.ofFiles request.files)) with
    | error failure =>
      obtain ⟨before, name, after, requested, earlier, first⟩ := mapM_eq_error_iff.mp hmap
      refine ⟨_, .failed parameter requested (fun other hother => ?_) (fails_of_output_eq_error first)⟩
      obtain ⟨generated, hgenerated⟩ := earlier other hother
      exact ⟨generated, output_eq_ok_iff.mp hgenerated⟩
    | ok outputs => exact ⟨_, .generated parameter (mapM_output_eq_ok_iff.mp hmap)⟩

def Refused (texts : Texts) (request : Request) : Prop :=
  (∃ error, Options.parse texts request.parameter = .error error) ∨
    ∃ parsed, Options.parse texts request.parameter = .ok parsed ∧
      ∃ name ∈ request.toGenerate, ∃ chain,
        Fails { parsed with crateFiles := request.toGenerate } request.files name chain

theorem Answer.error_iff_refused {texts : Texts} {request : Request} {response : Response}
    (h : Answer texts request response) : response.error ≠ none ↔ Refused texts request := by
  cases h with
  | badParameter parameter => exact iff_of_true (by simp) (.inl ⟨_, parameter⟩)
  | @failed parsed before after name chain parameter requested earlier first =>
    have hname : name ∈ request.toGenerate := by simp [requested]
    exact iff_of_true (by simp) (.inr ⟨parsed, parameter, name, hname, chain, first⟩)
  | @generated parsed outputs parameter each =>
    refine iff_of_false (by simp) ?_
    rintro (⟨error, herror⟩ | ⟨other, hother, name, hname, chain, hfails⟩)
    · exact absurd (parameter.symm.trans herror) (by simp)
    · obtain rfl := Except.ok.inj (parameter.symm.trans hother)
      have hall := exists_mapM_eq_ok_iff.mp ⟨outputs, mapM_output_eq_ok_iff.mpr each⟩
      obtain ⟨generated, hgenerated⟩ := hall name hname
      obtain ⟨failure, hfailure, -⟩ := hfails.output_eq
      exact absurd (hgenerated.symm.trans hfailure) (by simp)

/-- A request is answered with all outputs or with the first failure, and with a failure just if
    there is one. -/
theorem respond_eq_iff_answer (texts : Texts) (request : Request) :
    (∀ response, respond texts request = response ↔ Answer texts request response) ∧
      ((respond texts request).error ≠ none → (respond texts request).files = []) ∧
      ((respond texts request).error ≠ none ↔ Refused texts request) := by
  obtain ⟨response, hanswer⟩ := exists_answer texts request
  have hresponse := hanswer.respond_eq
  refine ⟨fun other => ⟨fun h => ?_, Answer.respond_eq⟩, ?_, ?_⟩
  · rw [← h, hresponse]
    exact hanswer
  · rw [hresponse]
    cases hanswer with
    | badParameter parameter => exact fun _ => rfl
    | failed parameter requested earlier first => exact fun _ => rfl
    | generated parameter each => exact fun h => absurd rfl h
  · rw [hresponse]
    exact hanswer.error_iff_refused

end Plugin

end GrpcStubs
