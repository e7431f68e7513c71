import GrpcStubs.Proofs.Halves
import Mathlib.Data.List.Forall2

set_option autoImplicit false

/-!
# Comments do not reach the code

Two files that differ in comments and deprecations alone are generated alike: with the same error,
or with the same text once documentation lines and deprecation attributes are left out. The proof
compares a file with the same file without comments, step by step: the two print the same pieces,
apart from pieces that are documentation lines as a whole.
-/

namespace GrpcStubs
open Template Stub

def Method.withoutComments (method : Method) : Method :=
  { method with deprecated := false, comments := {} }

def Service.withoutComments (service : Service) : Service :=
  { service with methods := service.methods.map Method.withoutComments, comments := {} }

theorem Service.methods_withoutComments (service : Service) :
    service.withoutComments.methods = service.methods.map Method.withoutComments :=
  rfl

def SchemaFile.withoutComments (file : SchemaFile) : SchemaFile :=
  { file with services := file.services.map Service.withoutComments }

def codeLines (content : String) : List Line :=
  (Text.splitAt '\n' content.toList).filter fun line => !isCommentLine line

/-- What is left of a result without comments: the error, or the name and the code of the file. -/
def codeOf (result : Except Error (Option GeneratedFile)) :
    Except Error (Option (String × List Line)) :=
  result.map (Option.map fun file => (file.name, codeLines file.content))

def Piece.isComment (piece : Piece) : Bool :=
  isCommentLine piece.text && !piece.text.contains '\n'

def codePieces (pieces : List Piece) : List Piece :=
  pieces.filter fun piece => !Piece.isComment piece

theorem codePieces_append (first second : List Piece) :
    codePieces (first ++ second) = codePieces first ++ codePieces second :=
  List.filter_append first second

theorem codePieces_shift (extra : Nat) (pieces : List Piece) :
    codePieces (pieces.map (Piece.shift extra)) = (codePieces pieces).map (Piece.shift extra) := by
  unfold codePieces
  rw [List.filter_map]
  rfl

theorem isCommentLine_row (indent : Nat) (piece : Piece) :
    isCommentLine (piece.row indent) = isCommentLine piece.text := by
  unfold isCommentLine
  rw [dropSpaces_row]

theorem codeLines_layOut (pieces : List Piece) :
    codeLines (.ofList (layOut 0 pieces)) = codeLines (.ofList (layOut 0 (codePieces pieces))) := by
  unfold codeLines
  rw [String.toList_ofList, String.toList_ofList, splitAt_layOut, splitAt_layOut,
    List.filter_append, List.filter_append]
  congr 1
  induction pieces with
  | nil => rfl
  | cons piece pieces ih =>
    rw [List.flatMap_cons, List.filter_append, ih]
    -- A comment piece has no line feed, so it is one line, and that line is left out.
    cases hp : Piece.isComment piece with
    | false =>
      have hc : codePieces (piece :: pieces) = piece :: codePieces pieces :=
        List.filter_cons_of_pos (by simp [hp])
      rw [hc, List.flatMap_cons, List.filter_append]
    | true =>
      have hc : codePieces (piece :: pieces) = codePieces pieces :=
        List.filter_cons_of_neg (by simp [hp])
      rw [Piece.isComment, Bool.and_eq_true, Bool.not_eq_true'] at hp
      have hn : '\n' ∉ piece.text := by simpa using hp.2
      have hrow : isCommentLine (piece.row 0) = true := (isCommentLine_row 0 piece).trans hp.1
      rw [hc, Text.splitAt_of_not_mem (not_mem_row (by decide) hn),
        List.filter_cons_of_neg (by simp [hrow])]
      rfl

structure SameTrace (first second : Trace) : Prop where
  outcome : first.outcome = second.outcome
  code : codePieces first.pieces = codePieces second.pieces

namespace SameTrace

theorem refl (trace : Trace) : SameTrace trace trace :=
  ⟨rfl, rfl⟩

theorem shift {first second : Trace} (extra : Nat) (h : SameTrace first second) :
    SameTrace (first.shift extra) (second.shift extra) := by
  refine ⟨h.outcome, ?_⟩
  rw [Trace.shift, Trace.shift, codePieces_shift, codePieces_shift, h.code]

theorem andThen {first second third fourth : Trace} (h : SameTrace first second)
    (hnext : SameTrace third fourth) : SameTrace (first.andThen third) (second.andThen fourth) := by
  cases ho : second.outcome with
  | error e =>
    rw [Trace.andThen_of_error _ (h.outcome.trans ho), Trace.andThen_of_error _ ho]
    exact h
  | ok u =>
    rw [Trace.andThen_of_ok _ (h.outcome.trans ho), Trace.andThen_of_ok _ ho]
    refine ⟨hnext.outcome, ?_⟩
    rw [codePieces_append, codePieces_append, h.code, hnext.code]

theorem all {α : Type} {f g : α → Trace} {xs : List α} (h : ∀ x ∈ xs, SameTrace (f x) (g x)) :
    SameTrace (.all (xs.map f)) (.all (xs.map g)) := by
  induction xs with
  | nil => exact refl _
  | cons x xs ih =>
    exact andThen (h x List.mem_cons_self) (ih fun y hy => h y (List.mem_cons_of_mem _ hy))

theorem intercalate {α : Type} {f g : α → List Step} {xs : List α}
    (h : ∀ x ∈ xs, SameTrace (Step.traceAll (f x)) (Step.traceAll (g x))) :
    SameTrace (Step.traceAll (List.intercalate [.emptyLine] (xs.map f)))
      (Step.traceAll (List.intercalate [.emptyLine] (xs.map g))) := by
  cases xs with
  | nil => exact refl _
  | cons x xs =>
    rw [Step.traceAll_intercalate, Step.traceAll_intercalate]
    refine andThen (h x List.mem_cons_self) (all fun y hy => ?_)
    exact andThen (refl _) (h y (List.mem_cons_of_mem _ hy))

end SameTrace

theorem SameTrace.template {names : List String} {first second : Meanings} {source : String}
    (h : AgreeOn names first second)
    (hother : ∀ item ∈ otherItems names source, SameTrace (item.trace first) (item.trace second)) :
    SameTrace (templateTrace first source) (templateTrace second source) := by
  refine SameTrace.all fun item hitem => ?_
  cases hp : item.isPlain names with
  | true =>
    rw [Item.trace_congr h hp]
    exact SameTrace.refl _
  | false => exact hother item (List.mem_filter.mpr ⟨hitem, by simp [hp]⟩)

theorem codePieces_of_comment {rows : List Line} (extra : Nat)
    (h : ∀ row ∈ rows, isCommentLine row = true ∧ '\n' ∉ row) :
    codePieces (rows.map (Piece.mk extra)) = [] := by
  refine List.filter_eq_nil_iff.mpr fun piece hpiece => ?_
  obtain ⟨row, hrow, rfl⟩ := List.mem_map.mp hpiece
  simpa [Piece.isComment] using h row hrow

attribute [local irreducible] templateTrace Text.lines DocComment.render

theorem codePieces_heading (method : Method) (extra : Nat) :
    codePieces ((headingLines method).map (Piece.mk extra)) = [] :=
  codePieces_of_comment extra (isCommentLine_heading method)

theorem sameTrace_heading (method other : Method) :
    SameTrace ⟨(headingLines method).map (Piece.mk 0), .ok ()⟩
      ⟨(headingLines other).map (Piece.mk 0), .ok ()⟩ := by
  refine ⟨rfl, ?_⟩
  rw [codePieces_heading, codePieces_heading]

theorem sameTrace_comment {first second : Meanings} {name comment other : String} (extra : Nat)
    (hfirst : first.lookup name = some (.text (DocComment.render comment)))
    (hsecond : second.lookup name = some (.text (DocComment.render other))) :
    SameTrace ((Item.sole extra name).trace first) ((Item.sole extra name).trace second) := by
  rw [Item.trace_sole_text extra hfirst, Item.trace_sole_text extra hsecond]
  refine ⟨rfl, ?_⟩
  rw [codePieces_of_comment extra (isCommentLine_render comment),
    codePieces_of_comment extra (isCommentLine_render other)]

theorem sameTrace_block {first second : Meanings} {name : String} {body other : Trace} (extra : Nat)
    (hfirst : first.lookup name = some (.block body))
    (hsecond : second.lookup name = some (.block other)) (h : SameTrace body other) :
    SameTrace ((Item.sole extra name).trace first) ((Item.sole extra name).trace second) := by
  rw [Item.trace_sole_block extra hfirst, Item.trace_sole_block extra hsecond]
  exact h.shift extra

theorem clash?_withoutComments (reserved : List String) (methods : List Method) :
    clash? reserved (methods.map Method.withoutComments) =
      (clash? reserved methods).map Method.withoutComments := by
  induction methods generalizing reserved with
  | nil => rfl
  | cons method methods ih =>
    rw [List.map_cons, clash?, clash?, ih]
    change (if reserved.contains method.ident = true then _ else _) = _
    split <;> rfl

theorem sameTrace_unlessClash (service : Service) (reserved : List String) (steps other : List Step)
    (h : clash? reserved service.methods = none →
      SameTrace (Step.traceAll (unlessClash service reserved steps))
        (Step.traceAll (unlessClash service.withoutComments reserved other))) :
    SameTrace (Step.traceAll (unlessClash service reserved steps))
      (Step.traceAll (unlessClash service.withoutComments reserved other)) := by
  cases hc : clash? reserved service.methods with
  | none => exact h hc
  | some method =>
    have hother : clash? reserved service.withoutComments.methods = some method.withoutComments := by
      rw [Service.methods_withoutComments, clash?_withoutComments, hc]
      rfl
    rw [unlessClash, unlessClash, hc, hother]
    exact SameTrace.refl _

namespace Client

theorem sameTrace_methodStart (method other : Method) :
    SameTrace (methodStart method) (methodStart other) := by
  have hcons : ∀ pieces, codePieces (⟨0, []⟩ :: pieces) = ⟨0, []⟩ :: codePieces pieces :=
    fun pieces => codePieces_append [⟨0, []⟩] pieces
  refine ⟨rfl, ?_⟩
  rw [methodStart, methodStart, hcons, hcons, codePieces_heading, codePieces_heading]

theorem sameTrace_methodSteps (ctx : Context) (service : Service) (method : Method) :
    SameTrace (Step.traceAll (methodSteps ctx service method))
      (Step.traceAll (methodSteps ctx service.withoutComments method.withoutComments)) := by
  rw [methodSteps, methodSteps, Step.traceAll_append, Step.traceAll_append, traceAll_methodStart,
    traceAll_methodStart]
  exact SameTrace.andThen (sameTrace_methodStart _ _) (SameTrace.refl _)

theorem sameTrace_methods (ctx : Context) (service : Service) :
    SameTrace (Step.traceAll (service.methods.flatMap (methodSteps ctx service)))
      (Step.traceAll (service.withoutComments.methods.flatMap
        (methodSteps ctx service.withoutComments))) := by
  rw [Service.methods_withoutComments, Step.traceAll_flatMap, Step.traceAll_flatMap, List.map_map]
  exact SameTrace.all fun method _ => sameTrace_methodSteps ctx service method

theorem agreeOn_module (ctx : Context) (service : Service) :
    AgreeOn moduleNames (moduleMeanings ctx service) (moduleMeanings ctx service.withoutComments) := by
  simp only [AgreeOn, moduleNames, moduleMeanings, List.forall_mem_cons, List.lookup_cons]
  exact ⟨rfl, rfl, by simp⟩

theorem sameTrace_steps (ctx : Context) (service : Service) :
    SameTrace (Step.traceAll (steps ctx service)) (Step.traceAll (steps ctx service.withoutComments)) := by
  refine sameTrace_unlessClash service commonFunctions _ _ fun hclash => ?_
  have hother : clash? commonFunctions service.withoutComments.methods = none := by
    rw [Service.methods_withoutComments, clash?_withoutComments, hclash]
    rfl
  change SameTrace (Step.traceAll (steps ctx service)) (Step.traceAll (steps ctx service.withoutComments))
  rw [traceAll_steps hclash, traceAll_steps hother]
  refine SameTrace.template (agreeOn_module ctx service) ?_
  rw [otherItems_module, List.forall_mem_cons, List.forall_mem_singleton]
  exact ⟨sameTrace_comment 4 (lookup_service_doc ctx service) (lookup_service_doc ctx _),
    sameTrace_block 8 (lookup_methods ctx service) (lookup_methods ctx _)
      (sameTrace_methods ctx service)⟩

end Client

namespace Server

theorem sameTrace_traitSteps (ctx : Context) (method : Method) :
    SameTrace (Step.traceAll (traitSteps ctx method))
      (Step.traceAll (traitSteps ctx method.withoutComments)) := by
  rw [traitSteps, traitSteps, Step.traceAll, Step.traceAll, trace_heading, trace_heading]
  exact SameTrace.andThen (sameTrace_heading _ _) (SameTrace.refl _)

theorem sameTrace_traits (ctx : Context) (service : Service) :
    SameTrace
      (Step.traceAll (List.intercalate [.emptyLine] (service.methods.map (traitSteps ctx))))
      (Step.traceAll (List.intercalate [.emptyLine]
        (service.withoutComments.methods.map (traitSteps ctx)))) := by
  rw [Service.methods_withoutComments, List.map_map]
  exact SameTrace.intercalate fun method _ => sameTrace_traitSteps ctx method

theorem routeSteps_withoutComments (ctx : Context) (service : Service) (method : Method) :
    routeSteps ctx service.withoutComments method.withoutComments = routeSteps ctx service method :=
  rfl

theorem sameTrace_routes (ctx : Context) (service : Service) :
    SameTrace (Step.traceAll (service.methods.flatMap (routeSteps ctx service)))
      (Step.traceAll (service.withoutComments.methods.flatMap
        (routeSteps ctx service.withoutComments))) := by
  rw [Service.methods_withoutComments, List.flatMap_map]
  simp only [routeSteps_withoutComments]
  exact SameTrace.refl _

theorem agreeOn_module (ctx : Context) (service : Service) :
    AgreeOn moduleNames (moduleMeanings ctx service) (moduleMeanings ctx service.withoutComments) := by
  simp only [AgreeOn, moduleNames, moduleMeanings, List.forall_mem_cons, List.lookup_cons]
  exact ⟨rfl, rfl, rfl, rfl, by simp⟩

theorem sameTrace_steps (ctx : Context) (service : Service) :
    SameTrace (Step.traceAll (steps ctx service)) (Step.traceAll (steps ctx service.withoutComments)) := by
  refine sameTrace_unlessClash service [] _ _ fun hclash => ?_
  have hother : clash? [] service.withoutComments.methods = none := by
    rw [Service.methods_withoutComments, clash?_withoutComments, hclash]
    rfl
  change SameTrace (Step.traceAll (steps ctx service)) (Step.traceAll (steps ctx service.withoutComments))
  rw [traceAll_steps hclash, traceAll_steps hother]
  refine SameTrace.template (agreeOn_module ctx service) ?_
  rw [otherItems_module, List.forall_mem_cons, List.forall_mem_cons, List.forall_mem_singleton]
  exact ⟨sameTrace_block 8 (lookup_trait_methods ctx service) (lookup_trait_methods ctx _)
      (sameTrace_traits ctx service),
    sameTrace_comment 4 (lookup_service_doc ctx service) (lookup_service_doc ctx _),
    sameTrace_block 16 (lookup_routes ctx service) (lookup_routes ctx _)
      (sameTrace_routes ctx service)⟩

end Server

def SameText (first second : String) : Prop :=
  ∃ pieces others, first = .ofList (layOut 0 pieces) ∧ second = .ofList (layOut 0 others) ∧
    codePieces pieces = codePieces others

theorem SameText.codeLines_eq {first second : String} (h : SameText first second) :
    codeLines first = codeLines second := by
  obtain ⟨pieces, others, rfl, rfl, hcode⟩ := h
  rw [codeLines_layOut, hcode, ← codeLines_layOut]

theorem SameText.join {firsts seconds : List String} (h : List.Forall₂ SameText firsts seconds) :
    SameText (.join firsts) (.join seconds) := by
  induction h with
  | nil => exact ⟨[], [], rfl, rfl, rfl⟩
  | cons hhead _ ih =>
    obtain ⟨pieces, others, rfl, rfl, hcode⟩ := hhead
    obtain ⟨rest, restOther, hrest, hother, hcodes⟩ := ih
    refine ⟨pieces ++ rest, others ++ restOther, ?_, ?_, ?_⟩
    · rw [String.join_cons, hrest, layOut_append, String.ofList_append]
    · rw [String.join_cons, hother, layOut_append, String.ofList_append]
    · rw [codePieces_append, codePieces_append, hcode, hcodes]

inductive SameResult {α : Type} (R : α → α → Prop) : (first second : Except Error α) → Prop
  | error (e : Error) : SameResult R (.error e) (.error e)
  | ok {a b : α} (h : R a b) : SameResult R (.ok a) (.ok b)

namespace SameResult

theorem bind {α β : Type} {R : α → α → Prop} {S : β → β → Prop} {first second : Except Error α}
    {f g : α → Except Error β} (h : SameResult R first second)
    (hnext : ∀ a b, R a b → SameResult S (f a) (g b)) :
    SameResult S (first >>= f) (second >>= g) := by
  cases h with
  | error e => exact .error e
  | ok hab => exact hnext _ _ hab

theorem mapM {α β : Type} {R : β → β → Prop} {f g : α → Except Error β} {xs : List α}
    (h : ∀ x ∈ xs, SameResult R (f x) (g x)) :
    SameResult (List.Forall₂ R) (xs.mapM f) (xs.mapM g) := by
  induction xs with
  | nil => exact .ok .nil
  | cons x xs ih =>
    rw [List.mapM_cons, List.mapM_cons]
    refine bind (h x List.mem_cons_self) fun a b hab => ?_
    refine bind (ih fun y hy => h y (List.mem_cons_of_mem _ hy)) fun as bs habs => ?_
    exact .ok (.cons hab habs)

end SameResult

theorem SameTrace.render {steps others : List Step}
    (h : SameTrace (Step.traceAll steps) (Step.traceAll others)) :
    SameResult SameText (Step.render steps) (Step.render others) := by
  rw [Step.render_eq, Step.render_eq, h.outcome]
  cases (Step.traceAll others).outcome with
  | error e => exact .error e
  | ok _ => exact .ok ⟨_, _, rfl, rfl, h.code⟩

def askedHalves (ctx : Context) : List (Context → Service → List Step) :=
  (if ctx.options.buildClient then [Client.steps] else []) ++
  (if ctx.options.buildServer then [Server.steps] else [])

theorem halves_eq (ctx : Context) (service : Service) :
    service.halves ctx = (askedHalves ctx).map fun half => half ctx service := by
  unfold Service.halves askedHalves
  cases ctx.options.buildClient <;> cases ctx.options.buildServer <;> rfl

theorem sameTrace_half {ctx : Context} {half : Context → Service → List Step}
    (h : half ∈ askedHalves ctx) (service : Service) :
    SameTrace (Step.traceAll (half ctx service)) (Step.traceAll (half ctx service.withoutComments)) := by
  have hhalf : half = Client.steps ∨ half = Server.steps := by
    unfold askedHalves at h
    rcases List.mem_append.mp h with h | h
    · exact .inl (by simpa using (List.mem_ite_nil_right.mp h).2)
    · exact .inr (by simpa using (List.mem_ite_nil_right.mp h).2)
  rcases hhalf with rfl | rfl
  · exact Client.sameTrace_steps ctx service
  · exact Server.sameTrace_steps ctx service

theorem sameResult_fragments (ctx : Context) (service : Service) :
    SameResult (List.Forall₂ SameText) (service.fragments ctx)
      (service.withoutComments.fragments ctx) := by
  rw [Service.fragments, Service.fragments, halves_eq, halves_eq, List.mapM_map, List.mapM_map]
  exact SameResult.mapM fun half h => (sameTrace_half h service).render

theorem SameResult.codeOf_eq {first second : Except Error (Option GeneratedFile)}
    (h : SameResult (fun file other => codeOf (.ok file) = codeOf (.ok other)) first second) :
    codeOf first = codeOf second := by
  cases h with
  | error e => rfl
  | ok h => exact h

theorem codeOf_withoutComments (options : Options) (file : SchemaFile) :
    codeOf (file.generate options) = codeOf (file.withoutComments.generate options) := by
  have hempty : file.withoutComments.services.isEmpty = file.services.isEmpty := List.isEmpty_map
  have hservices : file.withoutComments.services = file.services.map Service.withoutComments := rfl
  rw [SchemaFile.generate, SchemaFile.generate, hempty, hservices]
  split
  · rfl
  · rw [List.mapM_map]
    refine SameResult.codeOf_eq (SameResult.bind (R := List.Forall₂ (List.Forall₂ SameText)) ?_ ?_)
    · exact SameResult.mapM fun service _ => sameResult_fragments ⟨options, file.name⟩ service
    · intro fragments others h
      have hcode := (SameText.join (List.rel_flatten h)).codeLines_eq
      refine .ok ?_
      change Except.ok (some (_, codeLines _)) = Except.ok (some (_, codeLines _))
      rw [hcode]
      rfl

theorem codeOf_generate_eq (options : Options) {file other : SchemaFile}
    (h : file.withoutComments = other.withoutComments) :
    codeOf (file.generate options) = codeOf (other.generate options) := by
  rw [codeOf_withoutComments, h, ← codeOf_withoutComments]

theorem codeOf_generate_eq_hostile :
    let method : Method :=
      { name := "Find", input := (Message.outermost "Outer" "a.proto").inside "Query",
        output := .outermost "Hit" "a.proto" }
    let file (text : String) (deprecated : Bool) : SchemaFile :=
      ⟨"a.proto", [⟨"p", "Search", [{ method with deprecated, comments := ⟨text, ""⟩ }], ⟨"", text⟩⟩]⟩
    let plain := file "" false
    let commented := file "$ident$ \"\r\n\x7d\n#[deprecated]\r" true
    plain.withoutComments = commented.withoutComments ∧
      codeOf (plain.generate {}) = codeOf (commented.generate {}) :=
  ⟨rfl, codeOf_generate_eq {} rfl⟩

end GrpcStubs
