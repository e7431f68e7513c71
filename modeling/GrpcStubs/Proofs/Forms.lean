import GrpcStubs.Proofs.Binding
import GrpcStubs.Proofs.CommentLines

set_option autoImplicit false

/-!
# Lines of a given form

A form is a fixed start and a fixed end of a line, and what stands between them in a line is the
hole of that line. The holes of a printed template come from few of its items. All others have a
fixed text at their start or end that is not the one of the form, whatever their placeholders
stand for. `survivors` computes the items that are left. Comments have no lines of a form that
starts like code.
-/

namespace GrpcStubs.Template
open Text

/-- How a line starts, after any number of spaces, and how it ends. -/
structure Form where
  opening : Line
  closing : Line

namespace Form

def hole? (form : Form) (line : Line) : Option String :=
  ((afterStart form.opening (dropSpaces line)).bind (beforeEnd form.closing)).map String.ofList

def holes (form : Form) (text : String) : List String :=
  (splitAt '\n' text.toList).filterMap form.hole?

theorem hole?_eq_some_iff {form : Form} {line : Line} {hole : String} :
    form.hole? line = some hole ↔ dropSpaces line = form.opening ++ hole.toList ++ form.closing := by
  unfold hole?
  rw [Option.map_eq_some_iff]
  constructor
  · rintro ⟨chars, hchars, rfl⟩
    obtain ⟨rest, hrest, hfront⟩ := Option.bind_eq_some_iff.mp hchars
    rw [afterStart_eq_some_iff.mp hrest, beforeEnd_eq_some_iff.mp hfront, String.toList_ofList,
      List.append_assoc]
  · intro h
    refine ⟨hole.toList, ?_, String.ofList_toList⟩
    rw [h, List.append_assoc, afterStart_append]
    exact beforeEnd_append hole.toList form.closing

theorem hole?_row (form : Form) (indent : Nat) (piece : Piece) :
    form.hole? (piece.row indent) = form.hole? piece.text := by
  rw [hole?, dropSpaces_row]
  rfl

def holesOf (form : Form) (trace : Trace) : List String :=
  trace.pieces.filterMap fun piece => form.hole? piece.text

theorem holesOf_shift (form : Form) (extra : Nat) (trace : Trace) :
    form.holesOf (trace.shift extra) = form.holesOf trace := by
  unfold holesOf Trace.shift
  rw [List.filterMap_map]
  rfl

theorem holesOf_andThen (form : Form) {first : Trace} (second : Trace)
    (h : first.outcome = .ok ()) :
    form.holesOf (first.andThen second) = form.holesOf first ++ form.holesOf second := by
  rw [Trace.andThen_of_ok second h]
  exact List.filterMap_append

theorem holesOf_all (form : Form) {α : Type} {f : α → Trace} {xs : List α}
    (h : ∀ x ∈ xs, (f x).outcome = .ok ()) :
    form.holesOf (.all (xs.map f)) = xs.flatMap fun x => form.holesOf (f x) := by
  induction xs with
  | nil => rfl
  | cons x xs ih =>
    rw [List.map_cons, Trace.all, holesOf_andThen form _ (h x List.mem_cons_self), List.flatMap_cons,
      ih fun y hy => h y (List.mem_cons_of_mem _ hy)]

theorem holesOf_flatMap (form : Form) {α : Type} {f : α → List Step} {xs : List α}
    (h : (Step.traceAll (xs.flatMap f)).outcome = .ok ()) :
    form.holesOf (Step.traceAll (xs.flatMap f)) =
      xs.flatMap fun x => form.holesOf (Step.traceAll (f x)) := by
  rw [Step.traceAll_flatMap] at h ⊢
  exact holesOf_all form fun x hx => Trace.ok_of_outcome_all h _ (List.mem_map_of_mem hx)

end Form

def Trace.IsFlat (trace : Trace) : Prop :=
  ∀ piece ∈ trace.pieces, '\n' ∉ piece.text

theorem Form.holes_layOut {form : Form} {trace : Trace} (hempty : form.hole? [] = none)
    (hflat : trace.IsFlat) :
    form.holes (.ofList (layOut 0 trace.pieces)) = form.holesOf trace := by
  rw [holes, String.toList_ofList, splitAt_layOut_of_flat 0 hflat, List.filterMap_append,
    List.filterMap_map, List.filterMap_cons_none hempty, List.filterMap_nil, List.append_nil]
  exact congrArg (fun f => trace.pieces.filterMap f) (funext fun piece => form.hole?_row 0 piece)

/-- Two texts that differ before either of them ends. -/
def clash : Line → Line → Bool
  | a :: as, b :: bs => if a = b then clash as bs else true
  | _, _ => false

theorem append_ne_of_clash {first second : Line} (h : clash first second = true) (x y : Line) :
    first ++ x ≠ second ++ y := by
  induction first generalizing second with
  | nil => simp [clash] at h
  | cons a as ih =>
    cases second with
    | nil => simp [clash] at h
    | cons b bs =>
      intro heq
      rw [List.cons_append, List.cons_append, List.cons.injEq] at heq
      rw [clash, if_pos heq.1] at h
      exact ih h heq.2

theorem dropSpaces_append {front : Line} (h : dropSpaces front ≠ []) (rest : Line) :
    dropSpaces (front ++ rest) = dropSpaces front ++ rest := by
  unfold dropSpaces
  rw [List.dropWhile_append, if_neg]
  simpa [dropSpaces] using h

theorem fillPieces_cons_eq_ok {value : String → Except Error String} {body front name : Line}
    {rest : List Line} {text : String} (hne : rest ≠ [])
    (h : fillPieces value body (front :: name :: rest) = .ok text) :
    ∃ filled remaining, filledPart value name = .ok filled ∧
      fillPieces value body rest = .ok remaining ∧
      text.toList = front ++ filled.toList ++ remaining.toList := by
  rw [fillPieces_cons value body front name hne] at h
  cases hfilled : filledPart value name with
  | error e => rw [hfilled] at h; cases h
  | ok filled =>
    rw [hfilled] at h
    cases hrest : fillPieces value body rest with
    | error e => rw [hrest] at h; cases h
    | ok remaining =>
      rw [hrest] at h
      cases h
      exact ⟨filled, remaining, rfl, rfl, by simp⟩

theorem fillPieces_starts {value : String → Except Error String} {body : Line} {parts : List Line}
    {text : String} (h : fillPieces value body parts = .ok text) :
    ∃ rest, text.toList = parts.headD [] ++ rest := by
  induction parts using arePlain.induct generalizing text with
  | case1 => exact ⟨[], by cases h; rfl⟩
  | case2 only => exact ⟨[], by cases h; simp⟩
  | case3 => cases h
  | case4 front name rest hne ih =>
    obtain ⟨filled, remaining, _, _, htext⟩ := fillPieces_cons_eq_ok hne h
    exact ⟨filled.toList ++ remaining.toList, by simp [htext]⟩

theorem fillPieces_ends {value : String → Except Error String} {body : Line} {parts : List Line}
    {text : String} (h : fillPieces value body parts = .ok text) :
    ∃ front, text.toList = front ++ parts.getLastD [] := by
  induction parts using arePlain.induct generalizing text with
  | case1 => exact ⟨[], by cases h; rfl⟩
  | case2 only => exact ⟨[], by cases h; simp⟩
  | case3 => cases h
  | case4 first name rest hne ih =>
    obtain ⟨filled, remaining, _, hremaining, htext⟩ := fillPieces_cons_eq_ok hne h
    obtain ⟨front, hfront⟩ := ih hremaining
    refine ⟨first ++ filled.toList ++ front, ?_⟩
    cases rest with
    | nil => exact absurd rfl hne
    | cons next rest => simp [htext, hfront]

namespace Form

/-- Whether filled parts may be a line of the form. A line without placeholders is read, and one
    with placeholders is compared at both ends. -/
def mayFitParts (form : Form) : List Line → Bool
  | [text] => (form.hole? text).isSome
  | parts =>
    !clash form.opening (dropSpaces (parts.headD [])) &&
      !clash form.closing.reverse (parts.getLastD []).reverse

def mayFit (form : Form) : Item → Bool
  | .blank => (form.hole? []).isSome
  | .sole _ _ => true
  | .inline _ parts => form.mayFitParts parts

theorem hole?_of_clash_opening {form : Form} {front : Line}
    (h : clash form.opening (dropSpaces front) = true) (rest : Line) :
    form.hole? (front ++ rest) = none := by
  rw [Option.eq_none_iff_forall_ne_some]
  intro hole hhole
  have hne : dropSpaces front ≠ [] := by
    intro hnil
    rw [hnil] at h
    cases hform : form.opening <;> simp [hform, clash] at h
  rw [hole?_eq_some_iff, dropSpaces_append hne, List.append_assoc] at hhole
  exact append_ne_of_clash h _ _ hhole.symm

theorem hole?_of_clash_closing {form : Form} {last : Line}
    (h : clash form.closing.reverse last.reverse = true) (front : Line) :
    form.hole? (front ++ last) = none := by
  rw [Option.eq_none_iff_forall_ne_some]
  intro hole hhole
  rw [hole?_eq_some_iff] at hhole
  -- The opening may reach into `last`, so the ends are compared on the whole line.
  obtain ⟨spaces, hspaces⟩ : ∃ spaces, front ++ last = spaces ++ dropSpaces (front ++ last) :=
    ⟨_, (List.takeWhile_append_dropWhile).symm⟩
  rw [hhole] at hspaces
  have hreverse := congrArg List.reverse hspaces
  simp only [List.reverse_append, List.append_assoc] at hreverse
  exact append_ne_of_clash h _ _ hreverse.symm

theorem hole?_of_not_mayFitParts {form : Form} {parts : List Line} {text : String}
    {value : String → Except Error String} {body : Line} (h : form.mayFitParts parts = false)
    (hfill : fillPieces value body parts = .ok text) : form.hole? text.toList = none := by
  obtain ⟨rest, hstart⟩ := fillPieces_starts hfill
  obtain ⟨front, hend⟩ := fillPieces_ends hfill
  by_cases hsole : ∃ only, parts = [only]
  · obtain ⟨only, rfl⟩ := hsole
    cases hfill
    simpa [mayFitParts] using h
  · rw [mayFitParts, Bool.and_eq_false_iff, Bool.not_eq_false', Bool.not_eq_false'] at h
    · rcases h with h | h
      · rw [hstart]
        exact hole?_of_clash_opening h rest
      · rw [hend]
        exact hole?_of_clash_closing h front
    · exact fun only honly => hsole ⟨only, honly⟩

theorem holesOf_of_not_mayFit {form : Form} {item : Item} (h : form.mayFit item = false)
    (meanings : Meanings) : form.holesOf (item.trace meanings) = [] := by
  cases item with
  | blank =>
    have hblank : form.hole? [] = none := by simpa [mayFit] using h
    exact List.filterMap_cons_none hblank
  | sole extra name => simp [mayFit] at h
  | inline extra parts =>
    rw [Item.trace]
    cases hfill : fillPieces (inlineOf meanings) (['$'].intercalate parts) parts with
    | error e => rfl
    | ok text => exact List.filterMap_cons_none (hole?_of_not_mayFitParts h hfill)

def survivors (form : Form) (source : String) : List Item :=
  (items source).filter form.mayFit

theorem flatMap_filter_of_nil {α β : Type} {p : α → Bool} {f : α → List β} {xs : List α}
    (h : ∀ x ∈ xs, p x = false → f x = []) : (xs.filter p).flatMap f = xs.flatMap f := by
  induction xs with
  | nil => rfl
  | cons x xs ih =>
    have hrest := ih fun y hy => h y (List.mem_cons_of_mem _ hy)
    cases hp : p x with
    | true => rw [List.filter_cons_of_pos hp, List.flatMap_cons, List.flatMap_cons, hrest]
    | false =>
      rw [List.filter_cons_of_neg (by simp [hp]), List.flatMap_cons, h x List.mem_cons_self hp, hrest]
      rfl

/-- The holes of a printed template come from the items that survive. -/
theorem holesOf_templateTrace (form : Form) {meanings : Meanings} {source : String}
    (h : (templateTrace meanings source).outcome = .ok ()) :
    form.holesOf (templateTrace meanings source) =
      (form.survivors source).flatMap fun item => form.holesOf (item.trace meanings) := by
  have hitems : ∀ item ∈ items source, (item.trace meanings).outcome = .ok () := fun item hitem =>
    Trace.ok_of_outcome_all h _ (List.mem_map_of_mem hitem)
  rw [templateTrace, holesOf_all form hitems, survivors, flatMap_filter_of_nil]
  exact fun item _ hitem => holesOf_of_not_mayFit hitem meanings

theorem holesOf_of_no_survivors {form : Form} {meanings : Meanings} {source : String}
    (hnone : form.survivors source = []) (h : (templateTrace meanings source).outcome = .ok ()) :
    form.holesOf (templateTrace meanings source) = [] := by
  rw [holesOf_templateTrace form h, hnone, List.flatMap_nil]

end Form

/-- Lines of the form are neither comments nor attributes, and have no space at their start. -/
def Form.isCode (form : Form) : Bool :=
  clash form.opening "///".toList && clash form.opening "#[deprecated]".toList &&
    form.opening.head? != some ' '

namespace Form

theorem opening_ne_nil {form : Form} (h : form.isCode = true) : form.opening ≠ [] := by
  intro hnil
  rw [isCode, hnil] at h
  cases h

theorem dropSpaces_opening {form : Form} (h : form.isCode = true) :
    dropSpaces form.opening = form.opening := by
  cases hopening : form.opening with
  | nil => rfl
  | cons c cs =>
    rw [isCode, Bool.and_eq_true, hopening] at h
    exact dropSpaces_of_head (by simpa using h.2)

theorem hole?_nil {form : Form} (h : form.isCode = true) : form.hole? [] = none := by
  rw [Option.eq_none_iff_forall_ne_some]
  intro hole hhole
  have hnil := hole?_eq_some_iff.mp hhole
  exact opening_ne_nil h (List.append_eq_nil_iff.mp (List.append_eq_nil_iff.mp hnil.symm).1).1

theorem hole?_filled {form : Form} (h : form.isCode = true) (hole : String) :
    form.hole? (form.opening ++ hole.toList ++ form.closing) = some hole := by
  have hne : dropSpaces form.opening ≠ [] := by
    rw [dropSpaces_opening h]
    exact opening_ne_nil h
  rw [hole?_eq_some_iff, List.append_assoc, dropSpaces_append hne, dropSpaces_opening h]

theorem hole?_comment {form : Form} (h : form.isCode = true) {row : Line}
    (hrow : isCommentLine row = true) : form.hole? row = none := by
  rw [isCode, Bool.and_eq_true, Bool.and_eq_true] at h
  rw [Option.eq_none_iff_forall_ne_some]
  intro hole hhole
  rw [hole?_eq_some_iff, List.append_assoc] at hhole
  rw [isCommentLine, Bool.or_eq_true, Option.isSome_iff_exists, beq_iff_eq] at hrow
  rcases hrow with ⟨rest, hrest⟩ | hattribute
  · have hslashes := afterStart_eq_some_iff.mp hrest
    exact append_ne_of_clash h.1.1 _ rest (hhole.symm.trans hslashes)
  · have hwhole := hhole.symm.trans hattribute
    exact append_ne_of_clash h.1.2 _ [] (hwhole.trans (List.append_nil _).symm)

theorem holesOf_comments {form : Form} (h : form.isCode = true) {rows : List Line} (extra : Nat)
    (hrows : ∀ row ∈ rows, isCommentLine row = true) :
    form.holesOf ⟨rows.map (Piece.mk extra), .ok ()⟩ = [] := by
  unfold holesOf
  rw [List.filterMap_map, List.filterMap_eq_nil_iff]
  exact fun row hrow => hole?_comment h (hrows row hrow)

theorem holesOf_emptyLine {form : Form} (h : form.isCode = true) :
    form.holesOf (.line 0 []) = [] :=
  List.filterMap_cons_none (hole?_nil h)

theorem holesOf_intercalate {form : Form} (h : form.isCode = true) {α : Type} {f : α → List Step}
    {xs : List α} (hok : ∀ x ∈ xs, (Step.traceAll (f x)).outcome = .ok ()) :
    form.holesOf (Step.traceAll (List.intercalate [.emptyLine] (xs.map f))) =
      xs.flatMap fun x => form.holesOf (Step.traceAll (f x)) := by
  cases xs with
  | nil => rfl
  | cons x xs =>
    obtain ⟨hx, hxs⟩ := List.forall_mem_cons.mp hok
    have hline : ∀ y, form.holesOf ((Trace.line 0 []).andThen (Step.traceAll (f y))) =
        form.holesOf (Step.traceAll (f y)) := by
      intro y
      rw [holesOf_andThen form _ rfl, holesOf_emptyLine h, List.nil_append]
    rw [Step.traceAll_intercalate, holesOf_andThen form _ hx, holesOf_all form, List.flatMap_cons]
    · simp only [hline]
    · exact fun y hy => hxs y hy

theorem holesOf_line (form : Form) (extra : Nat) (text : Line) :
    form.holesOf (.line extra text) = (form.hole? text).toList := by
  change List.filterMap _ [_] = _
  cases hh : form.hole? text with
  | none => exact List.filterMap_cons_none hh
  | some hole => exact List.filterMap_cons_some hh

theorem holesOf_inline (form : Form) {meanings : Meanings} {parts : List Line} {text : String}
    (extra : Nat)
    (h : fillPieces (inlineOf meanings) (['$'].intercalate parts) parts = .ok text) :
    form.holesOf ((Item.inline extra parts).trace meanings) = (form.hole? text.toList).toList := by
  rw [Item.trace, h]
  exact holesOf_line form extra text.toList

end Form

theorem fillPieces_name {meanings : Meanings} {name content remaining : String} {rest : List Line}
    (hname : name.toList ≠ []) (hlookup : meanings.lookup name = some (.text content))
    (body text : Line) (hne : rest ≠ [])
    (hrest : fillPieces (inlineOf meanings) body rest = .ok remaining) :
    fillPieces (inlineOf meanings) body (text :: name.toList :: rest) =
      .ok (.ofList text ++ content ++ remaining) := by
  have hempty : name.toList.isEmpty = false := by simpa using hname
  have hfilled : filledPart (inlineOf meanings) name.toList = .ok content := by
    rw [filledPart, hempty, if_neg Bool.false_ne_true, String.ofList_toList, inlineOf, hlookup]
    rfl
  rw [fillPieces_cons _ body text _ hne, hfilled, hrest]
  rfl

namespace Form

theorem holesOf_one {form : Form} (h : form.isCode = true) {meanings : Meanings}
    {name content : String} (extra : Nat) (hname : name.toList ≠ [])
    (hlookup : meanings.lookup name = some (.text content)) :
    form.holesOf ((Item.inline extra [form.opening, name.toList, form.closing]).trace meanings) =
      [content] := by
  have hchars : (String.ofList form.opening ++ content ++ String.ofList form.closing).toList =
      form.opening ++ content.toList ++ form.closing := by simp
  rw [holesOf_inline form extra
    (fillPieces_name hname hlookup _ _ (List.cons_ne_nil form.closing []) rfl), hchars,
    hole?_filled h]
  rfl

theorem holesOf_two {form : Form} (h : form.isCode = true) {meanings : Meanings}
    {first second content other : String} (extra : Nat) (middle : String)
    (hfirst : first.toList ≠ []) (hsecond : second.toList ≠ [])
    (hlookup : meanings.lookup first = some (.text content))
    (hother : meanings.lookup second = some (.text other)) :
    form.holesOf ((Item.inline extra
      [form.opening, first.toList, middle.toList, second.toList, form.closing]).trace meanings) =
      [content ++ middle ++ other] := by
  have hchars : (String.ofList form.opening ++ content ++
      (String.ofList middle.toList ++ other ++ String.ofList form.closing)).toList =
      form.opening ++ (content ++ middle ++ other).toList ++ form.closing := by simp
  have hrest := fillPieces_name hsecond hother
    (['$'].intercalate [form.opening, first.toList, middle.toList, second.toList, form.closing])
    middle.toList (List.cons_ne_nil form.closing []) rfl
  rw [holesOf_inline form extra (fillPieces_name hfirst hlookup _ _ (List.cons_ne_nil _ _) hrest),
    hchars, hole?_filled h]
  rfl

end Form

end GrpcStubs.Template
