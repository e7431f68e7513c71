import GrpcStubs.Proofs.PathReading

set_option autoImplicit false

namespace GrpcStubs
open GrpcStubs.Path

/-- The file is generated, or generated into the same crate. -/
def Context.Holds (ctx : Context) (file : String) : Prop :=
  file = ctx.file ∨ file ∈ ctx.options.crateFiles

theorem Context.isLocal_iff {ctx : Context} {file : String} :
    ctx.isLocal file = true ↔ ctx.Holds file := by
  rw [isLocal, Bool.or_eq_true, beq_iff_eq, List.contains_iff_mem, Holds]

def Context.typeText (ctx : Context) (depth : Nat) (message : Message) : Except Error String :=
  (ctx.typePath depth message).map Path.render

def Context.withCrates (ctx : Context) (crates : CrateMap) : Context :=
  { ctx with options := { ctx.options with crates } }

def Context.withModule (ctx : Context) (messageModule : Path) : Context :=
  { ctx with options := { ctx.options with messageModule } }

def Message.localText (message : Message) : String :=
  "::".intercalate message.writtenNames

def segmentsOf (text : String) : List String :=
  (splitSegments text.toList).map String.ofList

/-- The path of a message type by where its file is. -/
structure Context.Resolves (ctx : Context) (depth : Nat) (message : Message) : Prop where
  fails_iff : ∀ error, ctx.typeText depth message = .error error ↔
    (¬ ctx.Holds message.file ∧ ctx.options.crates.get? message.file = none) ∧
      error = .unmappedFile message.file message.name
  foreign : ∀ crate, ¬ ctx.Holds message.file → ctx.options.crates.get? message.file = some crate →
    ctx.typeText depth message =
      .ok ("::" ++ Identifier.escape crate ++ "::" ++ message.localText)
  foreign_anywhere : ¬ ctx.Holds message.file → ∀ otherDepth otherModule,
    (ctx.withModule otherModule).typeText otherDepth message = ctx.typeText depth message
  foreign_segments : ∀ crate text, ¬ ctx.Holds message.file →
    ctx.options.crates.get? message.file = some crate → Identifier.isName crate.toList = true →
    ctx.typeText depth message = .ok text →
      ∀ segment ∈ segmentsOf text, segment ∉ ["super", "self", "crate"]
  local_anyCrates : ctx.Holds message.file → ∀ crates,
    (ctx.withCrates crates).typeText depth message = ctx.typeText depth message
  local_current : ctx.Holds message.file → ctx.options.messageModule = .current →
    ∃ text, ctx.typeText depth message = .ok text ∧
      segmentsOf text = List.replicate depth "super" ++ message.writtenNames
  legal : ∀ segment ∈ message.writtenNames, Identifier.isWritten segment.toList = true

theorem Context.typeText_of_holds {ctx : Context} {message : Message} (depth : Nat)
    (h : ctx.Holds message.file) :
    ctx.typeText depth message =
      .ok (ctx.options.messageModule.descend depth message.writtenNames).render := by
  rw [typeText, typePath, if_pos (isLocal_iff.mpr h), message.localSegments_eq]
  rfl

theorem Context.typeText_of_mapped {ctx : Context} {message : Message} {crate : String} (depth : Nat)
    (h : ¬ ctx.Holds message.file) (hcrate : ctx.options.crates.get? message.file = some crate) :
    ctx.typeText depth message =
      .ok (Path.render ⟨true, Identifier.escape crate :: message.writtenNames⟩) := by
  rw [typeText, typePath, if_neg fun hlocal => h (isLocal_iff.mp hlocal), hcrate,
    message.localSegments_eq]
  rfl

theorem Context.typeText_of_unmapped {ctx : Context} {message : Message} (depth : Nat)
    (h : ¬ ctx.Holds message.file) (hcrate : ctx.options.crates.get? message.file = none) :
    ctx.typeText depth message = .error (.unmappedFile message.file message.name) := by
  rw [typeText, typePath, if_neg fun hlocal => h (isLocal_iff.mp hlocal), hcrate]
  rfl

theorem Path.render_global (first : String) {rest : List String} (hne : rest ≠ []) :
    Path.render ⟨true, first :: rest⟩ = "::" ++ first ++ "::" ++ "::".intercalate rest := by
  cases rest with
  | nil => exact absurd rfl hne
  | cons next rest =>
    rw [Path.render, if_pos rfl, String.intercalate_cons_cons]
    simp only [String.append_assoc]

theorem segmentsOf_relative {segments : List String} (hne : segments ≠ [])
    (h : ∀ segment ∈ segments, IsSegment segment) :
    segmentsOf (Path.render ⟨false, segments⟩) = segments := by
  rw [segmentsOf, toList_render, if_neg Bool.false_ne_true, List.nil_append,
    splitSegments_join hne h, map_ofList_toList]

theorem segmentsOf_global {segments : List String} (hne : segments ≠ [])
    (h : ∀ segment ∈ segments, IsSegment segment) :
    segmentsOf (Path.render ⟨true, segments⟩) = "" :: segments := by
  have hrelative := segmentsOf_relative hne h
  rw [segmentsOf, toList_render, if_neg Bool.false_ne_true, List.nil_append] at hrelative
  rw [segmentsOf, toList_render, if_pos rfl]
  exact congrArg ("" :: ·) hrelative

/-- The path of a message type is global in another crate and relative in the one that is generated,
    and there is none if the file of the message is in neither. -/
theorem typePath_resolves (ctx : Context) (depth : Nat) {message : Message}
    (hnames : ∀ name ∈ message.name :: message.enclosing, Identifier.isName name.toList = true) :
    ctx.Resolves depth message := by
  have hwritten := isWritten_writtenNames hnames
  have hne := message.writtenNames_ne_nil
  constructor
  case fails_iff =>
    intro error
    by_cases hlocal : ctx.Holds message.file
    · rw [ctx.typeText_of_holds depth hlocal]
      exact iff_of_false (by simp) fun h => h.1.1 hlocal
    · cases hcrate : ctx.options.crates.get? message.file with
      | some crate =>
        rw [ctx.typeText_of_mapped depth hlocal hcrate]
        exact iff_of_false (by simp) (by simp)
      | none =>
        rw [ctx.typeText_of_unmapped depth hlocal hcrate, Except.error.injEq, eq_comm]
        exact (and_iff_right ⟨hlocal, rfl⟩).symm
  case foreign =>
    intro crate hforeign hcrate
    rw [ctx.typeText_of_mapped depth hforeign hcrate, render_global _ hne]
    rfl
  case foreign_anywhere =>
    intro hforeign otherDepth otherModule
    have hother : ¬ (ctx.withModule otherModule).Holds message.file := hforeign
    cases hcrate : ctx.options.crates.get? message.file with
    | some crate =>
      rw [ctx.typeText_of_mapped depth hforeign hcrate,
        Context.typeText_of_mapped otherDepth hother hcrate]
    | none =>
      rw [ctx.typeText_of_unmapped depth hforeign hcrate,
        Context.typeText_of_unmapped otherDepth hother hcrate]
  case foreign_segments =>
    intro crate text hforeign hcrate hname htext
    have hall : ∀ segment ∈ Identifier.escape crate :: message.writtenNames,
        Identifier.isWritten segment.toList = true :=
      List.forall_mem_cons.mpr ⟨Identifier.isWritten_escape hname, hwritten⟩
    rw [ctx.typeText_of_mapped depth hforeign hcrate] at htext
    obtain rfl := Except.ok.inj htext
    rw [segmentsOf_global (List.cons_ne_nil _ _) fun segment hs =>
      isSegment_of_isWritten (hall segment hs)]
    refine List.forall_mem_cons.mpr ⟨by decide, fun segment hs => ?_⟩
    exact ne_keyword_of_isWritten (hall segment hs)
  case local_anyCrates =>
    intro hlocal crates
    have hother : (ctx.withCrates crates).Holds message.file := hlocal
    rw [ctx.typeText_of_holds depth hlocal, Context.typeText_of_holds depth hother]
    rfl
  case local_current =>
    intro hlocal hcurrent
    refine ⟨_, ctx.typeText_of_holds depth hlocal, ?_⟩
    rw [hcurrent]
    refine segmentsOf_relative (List.append_ne_nil_of_right_ne_nil _ hne) ?_
    refine List.forall_mem_append.mpr ⟨fun segment hs => ?_, fun segment hs => ?_⟩
    · exact IsLater.isSegment (.inl (List.eq_of_mem_replicate hs))
    · exact isSegment_of_isWritten (hwritten segment hs)
  case legal => exact hwritten

theorem typePath_resolves_keywords :
    let message : Message := ((Message.outermost "Outer" "b.proto").inside "type").inside "Self"
    let ctx : Context := ⟨{ crates := CrateMap.empty.insert "b.proto" "crate" }, "a.proto"⟩
    (∀ name ∈ message.name :: message.enclosing, Identifier.isName name.toList = true) ∧
      ¬ ctx.Holds message.file ∧ ctx.options.crates.get? message.file = some "crate" ∧
      ctx.Resolves 1 message ∧ ctx.typeText 1 message = .ok "::crate_::outer::r#type::Self_" := by
  intro message ctx
  have hnames : ∀ name ∈ message.name :: message.enclosing,
      Identifier.isName name.toList = true := by decide
  have hforeign : ¬ ctx.Holds message.file := fun h => absurd (ctx.isLocal_iff.mpr h) (by decide)
  have hresolves := typePath_resolves ctx 1 hnames
  refine ⟨hnames, hforeign, by decide, hresolves, ?_⟩
  rw [hresolves.foreign "crate" hforeign (by decide)]
  exact congrArg Except.ok (by decide)

end GrpcStubs
