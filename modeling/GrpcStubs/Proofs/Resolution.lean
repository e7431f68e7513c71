import GrpcStubs.Descriptor.Resolve
import GrpcStubs.Proofs.Sequencing
import Mathlib.Algebra.Group.Nat.Defs

set_option autoImplicit false

namespace GrpcStubs

theorem Shape.ofStreams_eq_iff {client server : Bool} {shape : Shape} :
    .ofStreams client server = shape ↔
      shape.clientStreams = client ∧ shape.serverStreams = server := by
  cases client <;> cases server <;> cases shape <;> decide

theorem Service.fullName_eq (service : Service) :
    service.fullName =
      if service.package = "" then service.name else service.package ++ "." ++ service.name := by
  unfold fullName
  simp only [String.isEmpty_iff]
  rfl

theorem Service.methodFullName_eq (service : Service) (method : Method) :
    service.methodFullName method = service.fullName ++ "." ++ method.name := rfl

namespace Descriptor

/-- The last location with exactly this path. -/
structure LastAt (locations : List Location) (path : List Int) (location : Location) : Prop where
  path_eq : location.path = path
  last : ∃ before after, locations = before ++ location :: after ∧
    ∀ other ∈ after, other.path ≠ path

inductive CommentsAt (locations : List Location) (path : List Int) : Comments → Prop where
  | found {location : Location} (last : LastAt locations path location) :
    CommentsAt locations path ⟨location.leading, location.trailing⟩
  | absent (missing : ∀ location ∈ locations, location.path ≠ path) :
    CommentsAt locations path ⟨"", ""⟩

theorem lastAt_iff {locations : List Location} {path : List Int} {location : Location} :
    LastAt locations path location ↔
      locations.reverse.find? (fun location => location.path == path) = some location := by
  rw [List.find?_eq_some_iff_append]
  constructor
  · rintro ⟨hpath, before, after, rfl, hafter⟩
    refine ⟨by simp [hpath], after.reverse, before.reverse, by simp, fun other hother => ?_⟩
    simpa using hafter other (List.mem_reverse.mp hother)
  · rintro ⟨hpath, after, before, hsplit, hafter⟩
    refine ⟨by simpa using hpath, before.reverse, after.reverse, ?_, fun other hother => ?_⟩
    · rw [← List.reverse_reverse locations, hsplit]
      simp
    · simpa using hafter other (List.mem_reverse.mp hother)

theorem File.commentsAt_eq_iff {file : File} {path : List Int} {comments : Comments} :
    file.commentsAt path = comments ↔ CommentsAt file.locations path comments := by
  unfold File.commentsAt
  constructor
  · rintro rfl
    split
    · rename_i location hfind
      exact .found (lastAt_iff.mpr hfind)
    · rename_i hfind
      refine .absent fun location hlocation => ?_
      simpa using List.find?_eq_none.mp hfind location (List.mem_reverse.mpr hlocation)
  · rintro (@⟨location, hlast⟩ | hmissing)
    · rw [lastAt_iff.mp hlast]
    · have hfind : file.locations.reverse.find? (fun location => location.path == path) = none :=
        List.find?_eq_none.mpr fun location hlocation => by
          simpa using hmissing location (List.mem_reverse.mp hlocation)
      rw [hfind]

/-- A method as it is described at a place: the position of its service, and its own there. -/
structure Method.Describes (index : Index) (locations : List Location) (service position : Nat)
    (method : Method) (resolved : GrpcStubs.Method) : Prop where
  name : resolved.name = method.name
  input : index.find? method.input = some resolved.input
  output : index.find? method.output = some resolved.output
  clientStreams : resolved.shape.clientStreams = method.clientStreaming
  serverStreams : resolved.shape.serverStreams = method.serverStreaming
  deprecated : ∀ options, method.options = some options → resolved.deprecated = options.deprecated
  withoutOptions : method.options = none → resolved.deprecated = false
  comments : CommentsAt locations [6, service, 2, position] resolved.comments

structure Service.Describes (index : Index) (file : File) (position : Nat) (service : Service)
    (resolved : GrpcStubs.Service) : Prop where
  package : resolved.package = file.package
  name : resolved.name = service.name
  fullName : resolved.fullName =
    if file.package = "" then service.name else file.package ++ "." ++ service.name
  comments : CommentsAt file.locations [6, position] resolved.comments
  methodCount : resolved.methods.length = service.methods.length
  methods : ∀ (i : Nat) (method : Method), service.methods[i]? = some method →
    ∃ found, resolved.methods[i]? = some found ∧
      method.Describes index file.locations position i found ∧
        resolved.methodFullName found = resolved.fullName ++ "." ++ method.name

/-- The file that a description stands for. -/
structure File.Describes (index : Index) (file : File) (resolved : SchemaFile) : Prop where
  name : resolved.name = file.name
  serviceCount : resolved.services.length = file.services.length
  services : ∀ (i : Nat) (service : Service), file.services[i]? = some service →
    ∃ found, resolved.services[i]? = some found ∧ service.Describes index file i found

theorem checkPosition_bind {α : Type} {position : Nat} (task : Failure.Task)
    (h : position < 2 ^ 31) (result : Except Failure α) :
    (do checkPosition task position
        result) = result := by
  have hlimit : position < positionLimit := h
  rw [checkPosition, if_pos hlimit]
  rfl

theorem findMessage_eq_ok_iff {index : Index} {typeName : String} {message : GrpcStubs.Message} :
    findMessage index typeName = .ok message ↔ index.find? typeName = some message := by
  unfold findMessage
  split <;> simp [*]

theorem any_deprecated_eq_iff {options : Option MethodOptions} {deprecated : Bool} :
    options.any (·.deprecated) = deprecated ↔
      (∀ given, options = some given → deprecated = given.deprecated) ∧
        (options = none → deprecated = false) := by
  cases options <;> simp [eq_comm]

theorem Method.resolve_eq_ok_iff {index : Index} {file : File} {service position : Nat}
    {method : Method} {resolved : GrpcStubs.Method} :
    method.resolve index (file.methodComments service position) = .ok resolved ↔
      method.Describes index file.locations service position resolved := by
  constructor
  · intro h
    obtain ⟨input, hinput, h⟩ := bind_eq_ok_iff.mp h
    obtain ⟨output, houtput, h⟩ := bind_eq_ok_iff.mp h
    obtain rfl := Except.ok.inj h
    obtain ⟨hclient, hserver⟩ := Shape.ofStreams_eq_iff.mp (Eq.refl
      (Shape.ofStreams method.clientStreaming method.serverStreaming))
    obtain ⟨hdeprecated, hnone⟩ := any_deprecated_eq_iff.mp (Eq.refl
      (method.options.any (·.deprecated)))
    exact ⟨rfl, findMessage_eq_ok_iff.mp hinput, findMessage_eq_ok_iff.mp houtput, hclient, hserver,
      hdeprecated, hnone, File.commentsAt_eq_iff.mp rfl⟩
  · intro h
    obtain ⟨name, input, output, shape, deprecated, comments⟩ := resolved
    obtain ⟨rfl, hinput, houtput, hclient, hserver, hdeprecated, hnone, hcomments⟩ := h
    refine bind_eq_ok_iff.mpr ⟨input, findMessage_eq_ok_iff.mpr hinput, ?_⟩
    refine bind_eq_ok_iff.mpr ⟨output, findMessage_eq_ok_iff.mpr houtput, ?_⟩
    rw [Shape.ofStreams_eq_iff.mpr ⟨hclient, hserver⟩,
      any_deprecated_eq_iff.mpr ⟨hdeprecated, hnone⟩]
    have hfound : file.methodComments service position = comments :=
      File.commentsAt_eq_iff.mpr hcomments
    rw [hfound]
    rfl

theorem Service.resolve_eq_ok_iff {index : Index} {file : File} {position : Nat} {service : Service}
    {resolved : GrpcStubs.Service} (few : service.methods.length < 2 ^ 31) :
    service.resolve index file position = .ok resolved ↔
      service.Describes index file position resolved := by
  have hmethod : ∀ {i : Nat} {method : Method} {found : GrpcStubs.Method},
      service.methods[i]? = some method →
        ((do checkPosition .countMethods i
             method.resolve index (file.methodComments position i)) = .ok found ↔
          method.Describes index file.locations position i found) := by
    intro i method found hmethod
    obtain ⟨hi, -⟩ := List.getElem?_eq_some_iff.mp hmethod
    rw [checkPosition_bind _ (Nat.lt_trans hi few), ← Method.resolve_eq_ok_iff]
  constructor
  · intro h
    obtain ⟨methods, hmethods, h⟩ := bind_eq_ok_iff.mp h
    obtain rfl := Except.ok.inj h
    obtain ⟨hcount, heach⟩ := mapM_zipIdx_eq_ok_iff.mp hmethods
    refine ⟨rfl, rfl, GrpcStubs.Service.fullName_eq _, File.commentsAt_eq_iff.mp rfl, hcount, ?_⟩
    intro i method hi
    obtain ⟨found, hfound, hresolve⟩ := heach i method hi
    have hdescribes := (hmethod hi).mp hresolve
    exact ⟨found, hfound, hdescribes, hdescribes.name ▸ GrpcStubs.Service.methodFullName_eq _ found⟩
  · intro h
    obtain ⟨package, name, methods, comments⟩ := resolved
    obtain ⟨rfl, rfl, -, hcomments, hcount, heach⟩ := h
    refine bind_eq_ok_iff.mpr ⟨methods, mapM_zipIdx_eq_ok_iff.mpr ⟨hcount, ?_⟩, ?_⟩
    · intro i method hi
      obtain ⟨found, hfound, hdescribes, -⟩ := heach i method hi
      exact ⟨found, hfound, (hmethod hi).mpr hdescribes⟩
    · have hfound : file.serviceComments position = comments :=
        File.commentsAt_eq_iff.mpr hcomments
      rw [hfound]
      rfl

theorem File.resolve_eq_ok_iff {index : Index} {file : File} {resolved : SchemaFile}
    (fewServices : file.services.length < 2 ^ 31)
    (fewMethods : ∀ service ∈ file.services, service.methods.length < 2 ^ 31) :
    file.resolve index = .ok resolved ↔ file.Describes index resolved := by
  have hservice : ∀ {i : Nat} {service : Service} {found : GrpcStubs.Service},
      file.services[i]? = some service →
        ((do checkPosition .countServices i
             (service.resolve index file i).mapError (.during (.readService service.name))) =
            .ok found ↔
          service.Describes index file i found) := by
    intro i service found hservice
    obtain ⟨hi, -⟩ := List.getElem?_eq_some_iff.mp hservice
    rw [checkPosition_bind _ (Nat.lt_trans hi fewServices), mapError_eq_ok_iff,
      Service.resolve_eq_ok_iff (fewMethods service (List.mem_of_getElem? hservice))]
  constructor
  · intro h
    obtain ⟨services, hservices, h⟩ := bind_eq_ok_iff.mp h
    obtain rfl := Except.ok.inj h
    obtain ⟨hcount, heach⟩ := mapM_zipIdx_eq_ok_iff.mp hservices
    refine ⟨rfl, hcount, fun i service hi => ?_⟩
    obtain ⟨found, hfound, hresolve⟩ := heach i service hi
    exact ⟨found, hfound, (hservice hi).mp hresolve⟩
  · intro h
    obtain ⟨name, services⟩ := resolved
    obtain ⟨rfl, hcount, heach⟩ := h
    refine bind_eq_ok_iff.mpr ⟨services, mapM_zipIdx_eq_ok_iff.mpr ⟨hcount, ?_⟩, rfl⟩
    intro i service hi
    obtain ⟨found, hfound, hdescribes⟩ := heach i service hi
    exact ⟨found, hfound, (hservice hi).mpr hdescribes⟩

/-- The messages that a method names, in the order in which they are looked up. -/
def Method.typeNames (method : Method) : List String :=
  [method.input, method.output]

def Service.typeNames (service : Service) : List String :=
  service.methods.flatMap Method.typeNames

def Index.undefined? (index : Index) (typeNames : List String) : Option String :=
  typeNames.find? fun typeName => (index.find? typeName).isNone

def undefinedFault (typeName : String) : Failure :=
  ⟨[], .undefinedMessage typeName⟩

theorem findMessage_of_none {index : Index} {typeName : String} (h : index.find? typeName = none) :
    findMessage index typeName = .error (undefinedFault typeName) := by
  rw [findMessage, h]
  rfl

theorem Method.resolve_eq_error_iff {index : Index} {comments : Comments} {method : Method}
    {failure : Failure} :
    method.resolve index comments = .error failure ↔
      (index.undefined? method.typeNames).map undefinedFault = some failure := by
  unfold Method.resolve Index.undefined? Method.typeNames
  cases hinput : index.find? method.input with
  | none =>
    rw [findMessage_of_none hinput]
    simp [hinput, bind, Except.bind]
  | some input =>
    rw [findMessage_eq_ok_iff.mpr hinput]
    cases houtput : index.find? method.output with
    | none =>
      rw [findMessage_of_none houtput]
      simp [hinput, houtput, bind, Except.bind]
    | some output =>
      rw [findMessage_eq_ok_iff.mpr houtput]
      simp [hinput, houtput, bind, Except.bind, pure, Except.pure]

theorem Service.resolve_eq_error_iff {index : Index} {file : File} {position : Nat}
    {service : Service} {failure : Failure} (few : service.methods.length < 2 ^ 31) :
    service.resolve index file position = .error failure ↔
      (index.undefined? service.typeNames).map undefinedFault = some failure := by
  have hmethods : ∀ (method : Method) (i : Nat), (method, i) ∈ service.methods.zipIdx → ∀ failure,
      (do checkPosition .countMethods i
          method.resolve index (file.methodComments position i)) = .error failure ↔
        (index.undefined? method.typeNames).map undefinedFault = some failure := by
    intro method i hmethod failure
    have hi : i < service.methods.length := List.snd_lt_of_mem_zipIdx hmethod
    rw [checkPosition_bind _ (Nat.lt_trans hi few), ← Method.resolve_eq_error_iff]
  unfold Service.resolve
  rw [bind_pure_eq_error_iff, mapM_zipIdx_eq_error_iff hmethods]
  rw [Index.undefined?, Service.typeNames, List.find?_flatMap, List.map_findSome?]
  rfl

/-- The first service with a name that the index does not find, and the first such name in it. -/
structure File.FirstUndefined (index : Index) (file : File) (service : Service)
    (typeName : String) : Prop where
  firstService : ∃ before after, file.services = before ++ service :: after ∧
    ∀ other ∈ before, ∀ name ∈ other.typeNames, index.find? name ≠ none
  firstName : ∃ before after, service.typeNames = before ++ typeName :: after ∧
    ∀ name ∈ before, index.find? name ≠ none
  undefined : index.find? typeName = none

theorem Index.undefined?_eq_none_iff {index : Index} {typeNames : List String} :
    index.undefined? typeNames = none ↔ ∀ typeName ∈ typeNames, index.find? typeName ≠ none := by
  simp [undefined?, List.find?_eq_none]

theorem Index.undefined?_eq_some_iff {index : Index} {typeNames : List String} {typeName : String} :
    index.undefined? typeNames = some typeName ↔
      (∃ before after, typeNames = before ++ typeName :: after ∧
        ∀ name ∈ before, index.find? name ≠ none) ∧ index.find? typeName = none := by
  rw [undefined?, List.find?_eq_some_iff_append, and_comm]
  simp [Option.isSome_iff_ne_none]

def Service.fault? (index : Index) (service : Service) : Option Failure :=
  (index.undefined? service.typeNames).map fun typeName =>
    (undefinedFault typeName).during (.readService service.name)

theorem File.resolve_eq_error_iff_fault? {index : Index} {file : File} {failure : Failure}
    (fewServices : file.services.length < 2 ^ 31)
    (fewMethods : ∀ service ∈ file.services, service.methods.length < 2 ^ 31) :
    file.resolve index = .error failure ↔
      file.services.findSome? (Service.fault? index) = some failure := by
  have hservices : ∀ (service : Service) (i : Nat), (service, i) ∈ file.services.zipIdx → ∀ failure,
      (do checkPosition .countServices i
          (service.resolve index file i).mapError (.during (.readService service.name))) =
          .error failure ↔
        service.fault? index = some failure := by
    intro service i hservice failure
    have hi : i < file.services.length := List.snd_lt_of_mem_zipIdx hservice
    have few := fewMethods service (List.fst_mem_of_mem_zipIdx hservice)
    rw [checkPosition_bind _ (Nat.lt_trans hi fewServices)]
    simp only [mapError_eq_error_iff, Service.resolve_eq_error_iff few, Service.fault?,
      Option.map_eq_some_iff, exists_exists_and_eq_and]
  unfold File.resolve
  rw [bind_pure_eq_error_iff, mapM_zipIdx_eq_error_iff hservices]

theorem File.resolve_eq_error_iff {index : Index} {file : File} {failure : Failure}
    (fewServices : file.services.length < 2 ^ 31)
    (fewMethods : ∀ service ∈ file.services, service.methods.length < 2 ^ 31) :
    file.resolve index = .error failure ↔ ∃ service typeName,
      file.FirstUndefined index service typeName ∧
        failure = ⟨[.readService service.name], .undefinedMessage typeName⟩ := by
  rw [File.resolve_eq_error_iff_fault? fewServices fewMethods, List.findSome?_eq_some_iff]
  constructor
  · rintro ⟨before, service, after, hsplit, hfault, hbefore⟩
    obtain ⟨typeName, hname, rfl⟩ := Option.map_eq_some_iff.mp hfault
    obtain ⟨hfirst, hundefined⟩ := Index.undefined?_eq_some_iff.mp hname
    refine ⟨service, typeName, ⟨⟨before, after, hsplit, ?_⟩, hfirst, hundefined⟩, rfl⟩
    intro other hother
    exact Index.undefined?_eq_none_iff.mp (Option.map_eq_none_iff.mp (hbefore other hother))
  · rintro ⟨service, typeName, ⟨⟨before, after, hsplit, hbefore⟩, hfirst, hundefined⟩, rfl⟩
    have hname := Index.undefined?_eq_some_iff.mpr ⟨hfirst, hundefined⟩
    refine ⟨before, service, after, hsplit, Option.map_eq_some_iff.mpr ⟨typeName, hname, rfl⟩, ?_⟩
    intro other hother
    exact Option.map_eq_none_iff.mpr (Index.undefined?_eq_none_iff.mpr (hbefore other hother))

theorem File.exists_resolve_eq_ok_iff {index : Index} {file : File}
    (fewServices : file.services.length < 2 ^ 31)
    (fewMethods : ∀ service ∈ file.services, service.methods.length < 2 ^ 31) :
    (∃ resolved, file.resolve index = .ok resolved) ↔
      ∀ service ∈ file.services, ∀ method ∈ service.methods,
        index.find? method.input ≠ none ∧ index.find? method.output ≠ none := by
  have hnone : (∃ resolved, file.resolve index = .ok resolved) ↔
      file.services.findSome? (Service.fault? index) = none := by
    rw [Option.eq_none_iff_forall_ne_some]
    simp only [ne_eq, ← File.resolve_eq_error_iff_fault? fewServices fewMethods]
    cases file.resolve index <;> simp
  rw [hnone, List.findSome?_eq_none_iff]
  simp only [Service.fault?, Option.map_eq_none_iff, Index.undefined?_eq_none_iff,
    Service.typeNames, List.forall_mem_flatMap, Method.typeNames, List.forall_mem_cons]
  simp

/-- Resolving a file gives just what it describes, or fails at the first name that the index does
    not find. -/
theorem File.resolve_faithful (index : Index) (file : File)
    (fewServices : file.services.length < 2 ^ 31)
    (fewMethods : ∀ service ∈ file.services, service.methods.length < 2 ^ 31) :
    ((∃ resolved, file.resolve index = .ok resolved) ↔
      ∀ service ∈ file.services, ∀ method ∈ service.methods,
        index.find? method.input ≠ none ∧ index.find? method.output ≠ none) ∧
    (∀ resolved, file.resolve index = .ok resolved ↔ file.Describes index resolved) ∧
    (∀ failure, file.resolve index = .error failure ↔ ∃ service typeName,
      file.FirstUndefined index service typeName ∧
        failure = ⟨[.readService service.name], .undefinedMessage typeName⟩ ∧
        failure.chain = ["in service `" ++ service.name ++ "`",
          "message type `" ++ typeName ++ "` is not defined in the request"]) := by
  refine ⟨exists_resolve_eq_ok_iff fewServices fewMethods,
    fun resolved => resolve_eq_ok_iff fewServices fewMethods, fun failure => ?_⟩
  rw [resolve_eq_error_iff fewServices fewMethods]
  refine exists_congr fun service => exists_congr fun typeName => and_congr_right fun _ => ?_
  constructor
  · rintro rfl
    exact ⟨rfl, rfl⟩
  · exact And.left

/-- A file with two services, whose places have comments twice or in between. -/
theorem File.resolve_faithful_shop :
    let file : File :=
      { name := "shop.proto"
        package := "shop"
        messages := [.mk "Query" [], .mk "Page" [.mk "Row" []]]
        services :=
          [⟨"Search", [⟨"Find", ".shop.Query", "shop.Page.Row", none, false, true⟩]⟩,
            ⟨"Cart",
              [⟨"Add", ".shop.Page", ".shop.Query", some ⟨true⟩, false, false⟩,
                ⟨"Drop", ".shop.Query", ".shop.Page", some ⟨false⟩, true, false⟩]⟩]
        locations :=
          [⟨[6, 1], "first", ""⟩, ⟨[6, 1, 2, 0], "add", ""⟩, ⟨[6, 1, 2], "none", ""⟩,
            ⟨[6, 1], "", "second"⟩] }
    (file.services.length < 2 ^ 31 ∧
      ∀ service ∈ file.services, service.methods.length < 2 ^ 31) ∧
    ∃ resolved, file.resolve (.ofFiles [file]) = .ok resolved ∧
      file.Describes (.ofFiles [file]) resolved := by
  intro file
  have hfew : file.services.length < 2 ^ 31 ∧
      ∀ service ∈ file.services, service.methods.length < 2 ^ 31 := by decide
  obtain ⟨hresolves, hdescribes, -⟩ := File.resolve_faithful (.ofFiles [file]) file hfew.1 hfew.2
  obtain ⟨resolved, hresolved⟩ := hresolves.mpr (by decide +kernel)
  exact ⟨hfew, resolved, hresolved, (hdescribes resolved).mp hresolved⟩

end Descriptor

end GrpcStubs
