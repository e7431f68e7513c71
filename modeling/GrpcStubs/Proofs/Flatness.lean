import GrpcStubs.Proofs.Forms
import GrpcStubs.Proofs.NameChars

set_option autoImplicit false

namespace GrpcStubs.Template
open Text

def OneLine (text : String) : Prop :=
  '\n' ∉ text.toList

instance (text : String) : Decidable (OneLine text) :=
  inferInstanceAs (Decidable ('\n' ∉ text.toList))

theorem oneLine_iff {text : String} : OneLine text ↔ Avoids (· == '\n') text := by
  simp only [OneLine, Avoids, beq_eq_false_iff_ne]
  exact ⟨fun h c hc he => h (he ▸ hc), fun h hmem => h _ hmem rfl⟩

theorem mem_of_mem_dropWidth {width : Nat} {cs rest : List Char} (h : dropWidth width cs = some rest) :
    ∀ c ∈ rest, c ∈ cs := by
  fun_induction dropWidth width cs with
  | case1 cs =>
    cases h
    exact fun c hc => hc
  | case2 => cases h
  | case3 width d cs _ ih => exact fun c hc => List.mem_cons_of_mem d (ih h c hc)
  | case4 => cases h

theorem mem_of_mem_cut {width : Nat} {line : Line} {c : Char} (h : c ∈ cut width line) : c ∈ line := by
  unfold cut at h
  cases hd : dropWidth width line with
  | none =>
    rw [hd] at h
    exact absurd h List.not_mem_nil
  | some rest =>
    rw [hd] at h
    exact mem_of_mem_dropWidth hd c h

theorem mem_splitAt_of_mem_textLines {template : List Char} {line : Line}
    (h : line ∈ textLines template) : line ∈ splitAt '\n' template := by
  have hfirst : ∀ lines, line ∈ dropFirstEmpty lines → line ∈ lines := by
    intro lines hmem
    unfold dropFirstEmpty at hmem
    split at hmem
    · exact List.mem_cons_of_mem _ hmem
    · exact hmem
  refine hfirst _ ?_
  unfold textLines dropLastBlank at h
  split at h
  · exact (List.dropLast_sublist _).subset h
  · exact h

theorem not_mem_layout {template : List Char} {line : Line} (h : line ∈ layout template) :
    '\n' ∉ line := by
  obtain ⟨row, hrow, rfl⟩ := List.mem_map.mp h
  exact fun hmem => not_mem_of_mem_splitAt (mem_splitAt_of_mem_textLines hrow) (mem_of_mem_cut hmem)

def Item.IsFlat : Item → Prop
  | .inline _ parts => ∀ part ∈ parts, '\n' ∉ part
  | _ => True

theorem Item.isFlat_of_mem {source : String} {item : Item} (h : item ∈ items source) : item.IsFlat := by
  obtain ⟨line, hline, rfl⟩ := List.mem_map.mp h
  unfold Item.ofLine
  split
  · trivial
  · split
    · trivial
    · intro part hpart hmem
      have htrim := mem_of_mem_splitAt hpart hmem
      exact not_mem_layout hline ((List.dropWhile_suffix isBlank).subset htrim)

def BindsOneLine (names : List String) (meanings : Meanings) : Prop :=
  ∀ name ∈ names, ∃ content, meanings.lookup name = some (.text content) ∧ OneLine content

theorem bindsOneLine_iff {names : List String} {meanings : Meanings} :
    BindsOneLine names meanings ↔ BindsAvoiding (· == '\n') names meanings := by
  simp only [BindsOneLine, BindsAvoiding, oneLine_iff]

theorem filledPart_oneLine {names : List String} {meanings : Meanings} {name : Line}
    {filled : String} (h : BindsOneLine names meanings)
    (hname : name.isEmpty = true ∨ String.ofList name ∈ names)
    (hfilled : filledPart (inlineOf meanings) name = .ok filled) : OneLine filled :=
  oneLine_iff.mpr ((bindsOneLine_iff.mp h).filledPart rfl hname hfilled)

theorem fillPieces_oneLine {names : List String} {meanings : Meanings} {body : Line}
    {parts : List Line} {text : String} (h : BindsOneLine names meanings)
    (hplain : arePlain names parts = true) (hparts : ∀ part ∈ parts, '\n' ∉ part)
    (htext : fillPieces (inlineOf meanings) body parts = .ok text) : OneLine text := by
  induction parts using arePlain.induct generalizing text with
  | case1 =>
    cases htext
    exact List.not_mem_nil
  | case2 only =>
    cases htext
    unfold OneLine
    rw [String.toList_ofList]
    exact hparts only List.mem_cons_self
  | case3 => cases htext
  | case4 front name rest hne ih =>
    obtain ⟨hname, hrest⟩ := arePlain_cons hne hplain
    obtain ⟨filled, remaining, hfilled, hremaining, hchars⟩ := fillPieces_cons_eq_ok hne htext
    have hlater := ih hrest (fun part hp =>
      hparts part (List.mem_cons_of_mem _ (List.mem_cons_of_mem _ hp))) hremaining
    unfold OneLine
    rw [hchars, List.mem_append, List.mem_append, not_or, not_or]
    exact ⟨⟨hparts front List.mem_cons_self, filledPart_oneLine h hname hfilled⟩, hlater⟩

namespace Trace

theorem isFlat_andThen {first second : Trace} (hfirst : first.IsFlat) (hsecond : second.IsFlat) :
    (first.andThen second).IsFlat := by
  cases ho : first.outcome with
  | error e =>
    rw [andThen_of_error second ho]
    exact hfirst
  | ok u =>
    rw [andThen_of_ok second ho]
    exact List.forall_mem_append.mpr ⟨hfirst, hsecond⟩

theorem isFlat_shift {trace : Trace} (extra : Nat) (h : trace.IsFlat) : (trace.shift extra).IsFlat :=
  List.forall_mem_map.mpr h

theorem isFlat_line {text : Line} (extra : Nat) (h : '\n' ∉ text) : (line extra text).IsFlat :=
  List.forall_mem_singleton.mpr h

theorem isFlat_lines (cs : List Char) (extra : Nat) :
    IsFlat ⟨(lines cs).map (Piece.mk extra), .ok ()⟩ :=
  List.forall_mem_map.mpr fun _ hrow => not_mem_of_mem_lines hrow

theorem isCompositional_isFlat : IsCompositional IsFlat where
  done := fun _ hp => absurd hp List.not_mem_nil
  emptyLine := isFlat_line 0 List.not_mem_nil
  andThen := isFlat_andThen
  shift := isFlat_shift

end Trace

theorem Item.isFlat_trace {names : List String} {meanings : Meanings} {item : Item}
    (h : BindsOneLine names meanings) (hflat : item.IsFlat) (hplain : item.isPlain names = true) :
    (item.trace meanings).IsFlat := by
  cases item with
  | blank => exact Trace.isFlat_line 0 List.not_mem_nil
  | sole extra name =>
    obtain ⟨content, hlookup, _⟩ := h name (List.contains_iff_mem.mp hplain)
    rw [Item.trace_sole_text extra hlookup]
    exact Trace.isFlat_lines _ _
  | inline extra parts =>
    rw [Item.trace]
    split
    · rename_i text htext
      exact Trace.isFlat_line extra (fillPieces_oneLine h hplain hflat htext)
    · exact fun piece hp => absurd hp List.not_mem_nil

theorem isFlat_templateTrace {names : List String} {meanings : Meanings} {source : String}
    (h : BindsOneLine names meanings)
    (hother : ∀ item ∈ otherItems names source, (item.trace meanings).IsFlat) :
    (templateTrace meanings source).IsFlat := by
  refine Trace.isCompositional_isFlat.all fun item hitem => ?_
  cases hplain : item.isPlain names with
  | true => exact Item.isFlat_trace h (Item.isFlat_of_mem hitem) hplain
  | false => exact hother item (List.mem_filter.mpr ⟨hitem, by simp [hplain]⟩)

end GrpcStubs.Template

namespace GrpcStubs
open Template Stub
attribute [local irreducible] templateTrace Text.lines DocComment.render

/-- None of the names that the code of a service is generated from has a line feed, and the module
    of the messages is one that can be configured. -/
structure OneLineNames (ctx : Context) (service : Service) : Prop where
  package : OneLine service.package
  name : OneLine service.name
  methods : ∀ method ∈ service.methods, OneLine method.name
  messages : ∀ message ∈ service.messages, ∀ name ∈ message.name :: message.enclosing, OneLine name
  crates : ∀ entry ∈ ctx.options.crates.entries, OneLine entry.2
  isModule : ctx.options.messageModule.IsModule

theorem isForeign_lineFeed : IsForeign (· == '\n') := by
  intro c hc
  rw [beq_eq_false_iff_ne]
  rintro rfl
  cases hc

theorem OneLineNames.avoid {ctx : Context} {service : Service} (h : OneLineNames ctx service) :
    NamesAvoid (· == '\n') ctx service where
  package := oneLine_iff.mp h.package
  name := oneLine_iff.mp h.name
  methods method hm := oneLine_iff.mp (h.methods method hm)
  messages message hm name hn := oneLine_iff.mp (h.messages message hm name hn)
  crates entry he := oneLine_iff.mp (h.crates entry he)
  isModule := h.isModule

theorem NamesAvoid.oneLineNames {ctx : Context} {service : Service}
    (h : NamesAvoid (· == '\n') ctx service) : OneLineNames ctx service where
  package := oneLine_iff.mpr h.package
  name := oneLine_iff.mpr h.name
  methods method hm := oneLine_iff.mpr (h.methods method hm)
  messages message hm name hn := oneLine_iff.mpr (h.messages message hm name hn)
  crates entry he := oneLine_iff.mpr (h.crates entry he)
  isModule := h.isModule

theorem holdsOfComments_isFlat : HoldsOfComments Trace.IsFlat where
  toIsCompositional := Trace.isCompositional_isFlat
  comment _ extra := Trace.isFlat_lines _ extra
  deprecation _ := Trace.isFlat_lines _ 0

theorem isFlat_of_plain {names : List String} {meanings : Meanings} {source : String}
    (h : BindsOneLine names meanings) (hs : otherItems names source = []) :
    (templateTrace meanings source).IsFlat :=
  isFlat_templateTrace h (hs ▸ fun _ hitem => absurd hitem List.not_mem_nil)

theorem Client.isFlat_steps {ctx : Context} {service : Service} (h : OneLineNames ctx service)
    (hclash : clash? commonFunctions service.methods = none)
    (htypes : ∀ method ∈ service.methods, ∃ types, typePaths ctx method = .ok types) :
    (Step.traceAll (steps ctx service)).IsFlat := by
  have hbinds := bindsOneLine_iff.mpr (h.avoid.clientModule isForeign_lineFeed)
  rw [traceAll_steps hclash]
  refine isFlat_templateTrace hbinds (otherItems_hold holdsOfComments_isFlat fun method hm => ?_)
  obtain ⟨⟨request, response⟩, ht⟩ := htypes method hm
  have hmethod := bindsOneLine_iff.mpr (h.avoid.clientMethod isForeign_lineFeed hm ht)
  exact ⟨request, response, ht, isFlat_of_plain hmethod (otherItems_method method.shape)⟩

theorem Server.isFlat_steps {ctx : Context} {service : Service} (h : OneLineNames ctx service)
    (hclash : clash? [] service.methods = none)
    (htypes : ∀ method ∈ service.methods, ∃ types, typePaths ctx method = .ok types) :
    (Step.traceAll (steps ctx service)).IsFlat := by
  have hbinds := bindsOneLine_iff.mpr (h.avoid.serverModule isForeign_lineFeed)
  rw [traceAll_steps hclash]
  refine isFlat_templateTrace hbinds (otherItems_hold holdsOfComments_isFlat fun method hm => ?_)
  obtain ⟨⟨request, response⟩, ht⟩ := htypes method hm
  have htrait := bindsOneLine_iff.mpr (h.avoid.serverTrait isForeign_lineFeed hm ht)
  have hadapter := bindsOneLine_iff.mpr (h.avoid.serverAdapter isForeign_lineFeed hm ht)
  have hroute := bindsOneLine_iff.mpr (h.avoid.serverRoute isForeign_lineFeed hm request response)
  refine ⟨request, response, ht, isFlat_of_plain htrait (otherItems_trait method.shape), ?_⟩
  exact isFlat_templateTrace hroute (otherItems_route_hold holdsOfComments_isFlat
    (isFlat_of_plain hadapter (otherItems_adapter method.shape)))

end GrpcStubs
