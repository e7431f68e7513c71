import GrpcStubs.Proofs.Trace

set_option autoImplicit false

/-!
# Bound placeholders

A template item is plain when all its placeholders are among given names. If these names are bound
to text, a plain item prints without failing, and prints the same for any two lists of bindings
that agree on the names. How a template ends is therefore decided by its other items, which
`otherItems` lists.
-/

namespace GrpcStubs.Template
open Text

namespace Trace

theorem andThen_of_ok {first : Trace} (second : Trace) (h : first.outcome = .ok ()) :
    first.andThen second = ⟨first.pieces ++ second.pieces, second.outcome⟩ := by
  unfold andThen
  rw [h]

theorem andThen_of_error {first : Trace} (second : Trace) {e : Error}
    (h : first.outcome = .error e) : first.andThen second = first := by
  unfold andThen
  rw [h]

theorem andThen_assoc (first second third : Trace) :
    (first.andThen second).andThen third = first.andThen (second.andThen third) := by
  cases hf : first.outcome with
  | error e => rw [andThen_of_error second hf, andThen_of_error third hf, andThen_of_error _ hf]
  | ok u =>
    rw [andThen_of_ok second hf, andThen_of_ok _ hf]
    cases hs : second.outcome with
    | error e => simp only [andThen, hs]
    | ok v => simp only [andThen, hs, List.append_assoc]

theorem done_andThen (trace : Trace) : (⟨[], .ok ()⟩ : Trace).andThen trace = trace := rfl

theorem andThen_done (trace : Trace) : trace.andThen ⟨[], .ok ()⟩ = trace := by
  obtain ⟨pieces, outcome⟩ := trace
  cases outcome with
  | error e => rfl
  | ok u => rw [andThen_of_ok _ rfl, List.append_nil]

theorem all_append (first second : List Trace) :
    all (first ++ second) = (all first).andThen (all second) := by
  induction first with
  | nil => rw [List.nil_append, all, done_andThen]
  | cons trace traces ih => rw [List.cons_append, all, all, ih, andThen_assoc]

theorem outcome_andThen (first second : Trace) :
    (first.andThen second).outcome = (first.outcome >>= fun _ => second.outcome) := by
  cases hf : first.outcome with
  | error e => rw [andThen_of_error second hf, hf]; rfl
  | ok u => rw [andThen_of_ok second hf]; rfl

theorem outcome_all {α : Type} (f : α → Trace) (xs : List α) :
    (all (xs.map f)).outcome = xs.forM fun x => (f x).outcome := by
  induction xs with
  | nil => rfl
  | cons x xs ih => rw [List.map_cons, all, outcome_andThen, ih]; rfl

theorem ok_of_outcome_all {traces : List Trace} (h : (all traces).outcome = .ok ()) :
    ∀ trace ∈ traces, trace.outcome = .ok () := by
  induction traces with
  | nil => exact fun trace ht => absurd ht List.not_mem_nil
  | cons first traces ih =>
    rw [all, outcome_andThen] at h
    cases hf : first.outcome with
    | error e => rw [hf] at h; cases h
    | ok u =>
      rw [hf] at h
      intro trace ht
      rcases List.mem_cons.mp ht with rfl | ht
      · exact hf
      · exact ih h trace ht

theorem all_lines (extra : Nat) (rows : List Line) :
    all (rows.map (line extra)) = ⟨rows.map (Piece.mk extra), .ok ()⟩ := by
  induction rows with
  | nil => rfl
  | cons row rows ih => rw [List.map_cons, all, ih]; rfl

/-- Members that cannot fail do not matter for how a sequence ends. -/
theorem outcome_all_filter {α : Type} (f : α → Trace) (p : α → Bool) (xs : List α)
    (h : ∀ x ∈ xs, p x = false → (f x).outcome = .ok ()) :
    (all (xs.map f)).outcome = (all ((xs.filter p).map f)).outcome := by
  induction xs with
  | nil => rfl
  | cons x xs ih =>
    have hrest := ih fun y hy => h y (List.mem_cons_of_mem _ hy)
    rw [List.map_cons, all, outcome_andThen, hrest]
    cases hp : p x with
    | true => rw [List.filter_cons_of_pos hp, List.map_cons, all, outcome_andThen]
    | false =>
      rw [List.filter_cons_of_neg (by simp [hp]), h x List.mem_cons_self hp]
      rfl

end Trace

theorem Step.traceAll_eq (steps : List Step) : Step.traceAll steps = .all (steps.map Step.trace) := by
  induction steps with
  | nil => rw [Step.traceAll]; rfl
  | cons step steps ih => rw [Step.traceAll, ih]; rfl

theorem Step.traceAll_append (first second : List Step) :
    Step.traceAll (first ++ second) = (Step.traceAll first).andThen (Step.traceAll second) := by
  rw [Step.traceAll_eq, Step.traceAll_eq, Step.traceAll_eq, List.map_append, Trace.all_append]

theorem Step.traceAll_singleton (step : Step) : Step.traceAll [step] = step.trace := by
  rw [Step.traceAll, Step.traceAll, Trace.andThen_done]

theorem Step.traceAll_flatMap {α : Type} (f : α → List Step) (xs : List α) :
    Step.traceAll (xs.flatMap f) = .all (xs.map fun x => Step.traceAll (f x)) := by
  induction xs with
  | nil => rw [List.flatMap_nil, Step.traceAll]; rfl
  | cons x xs ih => rw [List.flatMap_cons, Step.traceAll_append, ih]; rfl

theorem intercalate_emptyLine (first : List Step) (others : List (List Step)) :
    List.intercalate [.emptyLine] (first :: others) = first ++ others.flatMap (.emptyLine :: ·) := by
  induction others generalizing first with
  | nil => simp [List.intercalate]
  | cons next rest ih =>
    rw [List.intercalate_cons_cons, ih, List.flatMap_cons, List.append_assoc, List.singleton_append]
    rfl

theorem Step.traceAll_intercalate {α : Type} (f : α → List Step) (x : α) (xs : List α) :
    Step.traceAll (List.intercalate [.emptyLine] ((x :: xs).map f)) =
      (Step.traceAll (f x)).andThen
        (.all (xs.map fun y => (Trace.line 0 []).andThen (Step.traceAll (f y)))) := by
  rw [List.map_cons, intercalate_emptyLine, Step.traceAll_append, Step.traceAll_flatMap, List.map_map]
  have hf : ((fun steps => Step.traceAll (.emptyLine :: steps)) ∘ f) =
      fun y => (Trace.line 0 []).andThen (Step.traceAll (f y)) := by
    funext y
    rw [Function.comp, Step.traceAll, Step.trace]
  exact congrArg (fun g => (Step.traceAll (f x)).andThen (.all (xs.map g))) hf

theorem Step.outcome_intercalate {α : Type} (f : α → List Step) (xs : List α) :
    (Step.traceAll (List.intercalate [.emptyLine] (xs.map f))).outcome =
      xs.forM fun x => (Step.traceAll (f x)).outcome := by
  cases xs with
  | nil => rw [List.map_nil, List.intercalate_nil, Step.traceAll]; rfl
  | cons x xs =>
    rw [Step.traceAll_intercalate, Trace.outcome_andThen, Trace.outcome_all]
    simp only [Trace.outcome_andThen]
    rfl

structure Trace.IsCompositional (P : Trace → Prop) : Prop where
  done : P ⟨[], .ok ()⟩
  emptyLine : P (.line 0 [])
  andThen {first second : Trace} (hfirst : P first) (hsecond : P second) : P (first.andThen second)
  shift {trace : Trace} (extra : Nat) (h : P trace) : P (trace.shift extra)

namespace Trace.IsCompositional
variable {P : Trace → Prop} {α : Type} {xs : List α}

theorem all {f : α → Trace} (hP : IsCompositional P) (h : ∀ x ∈ xs, P (f x)) :
    P (.all (xs.map f)) := by
  induction xs with
  | nil => exact hP.done
  | cons x xs ih =>
    rw [List.forall_mem_cons] at h
    exact hP.andThen h.1 (ih h.2)

theorem flatMap {f : α → List Step} (hP : IsCompositional P)
    (h : ∀ x ∈ xs, P (Step.traceAll (f x))) : P (Step.traceAll (xs.flatMap f)) := by
  rw [Step.traceAll_flatMap]
  exact hP.all h

theorem intercalate {f : α → List Step} (hP : IsCompositional P)
    (h : ∀ x ∈ xs, P (Step.traceAll (f x))) :
    P (Step.traceAll (List.intercalate [.emptyLine] (xs.map f))) := by
  cases xs with
  | nil => exact hP.done
  | cons x xs =>
    rw [List.forall_mem_cons] at h
    rw [Step.traceAll_intercalate]
    exact hP.andThen h.1 (hP.all fun y hy => hP.andThen hP.emptyLine (h.2 y hy))

end Trace.IsCompositional

/-- Whether the names among the parts of a line, which are every second one, are all known. -/
def arePlain (names : List String) : List Line → Bool
  | [] => true
  | [_] => true
  | [_, _] => false
  | _ :: name :: rest => (name.isEmpty || names.contains (.ofList name)) && arePlain names rest

def Item.isPlain (names : List String) : Item → Bool
  | .blank => true
  | .sole _ name => names.contains name
  | .inline _ parts => arePlain names parts

def otherItems (names : List String) (source : String) : List Item :=
  (items source).filter fun item => !item.isPlain names

def BindsText (names : List String) (meanings : Meanings) : Prop :=
  ∀ name ∈ names, ∃ content, meanings.lookup name = some (.text content)

def AgreeOn (names : List String) (first second : Meanings) : Prop :=
  ∀ name ∈ names, first.lookup name = second.lookup name

def filledPart (value : String → Except Error String) (name : Line) : Except Error String :=
  if name.isEmpty then .ok "$" else value (.ofList name)

theorem fillPieces_cons (value : String → Except Error String) (body text name : Line)
    {rest : List Line} (h : rest ≠ []) :
    fillPieces value body (text :: name :: rest) =
      (filledPart value name).bind fun filled =>
        (fillPieces value body rest).bind fun remaining =>
          .ok (.ofList text ++ filled ++ remaining) := by
  rw [fillPieces]
  · unfold filledPart
    split <;> rfl
  · exact h

theorem arePlain_cons {names : List String} {text name : Line} {rest : List Line} (h : rest ≠ [])
    (hp : arePlain names (text :: name :: rest) = true) :
    (name.isEmpty = true ∨ String.ofList name ∈ names) ∧ arePlain names rest = true := by
  rw [arePlain, Bool.and_eq_true, Bool.or_eq_true, List.contains_iff_mem] at hp
  · exact hp
  · exact h

theorem filledPart_ok {names : List String} {value : String → Except Error String} {name : Line}
    (h : ∀ name ∈ names, ∃ text, value name = .ok text)
    (hn : name.isEmpty = true ∨ String.ofList name ∈ names) :
    ∃ filled, filledPart value name = .ok filled := by
  unfold filledPart
  by_cases he : name.isEmpty = true
  · exact ⟨"$", if_pos he⟩
  · rw [if_neg he]
    exact h _ (hn.resolve_left he)

theorem filledPart_congr {names : List String} {first second : String → Except Error String}
    {name : Line} (h : ∀ name ∈ names, first name = second name)
    (hn : name.isEmpty = true ∨ String.ofList name ∈ names) :
    filledPart first name = filledPart second name := by
  unfold filledPart
  by_cases he : name.isEmpty = true
  · rw [if_pos he, if_pos he]
  · rw [if_neg he, if_neg he, h _ (hn.resolve_left he)]

theorem fillPieces_ok {names : List String} {value : String → Except Error String}
    (h : ∀ name ∈ names, ∃ text, value name = .ok text) (body : Line) (parts : List Line)
    (hp : arePlain names parts = true) : ∃ text, fillPieces value body parts = .ok text := by
  induction parts using arePlain.induct with
  | case1 => exact ⟨_, rfl⟩
  | case2 text => exact ⟨_, rfl⟩
  | case3 => simp [arePlain] at hp
  | case4 text name rest hne ih =>
    obtain ⟨hname, hrest⟩ := arePlain_cons hne hp
    obtain ⟨filled, hfilled⟩ := filledPart_ok h hname
    obtain ⟨tail, htail⟩ := ih hrest
    exact ⟨_, by rw [fillPieces_cons value body text name hne, hfilled, htail]; rfl⟩

theorem fillPieces_congr {names : List String} {first second : String → Except Error String}
    (h : ∀ name ∈ names, first name = second name) (body : Line) (parts : List Line)
    (hp : arePlain names parts = true) :
    fillPieces first body parts = fillPieces second body parts := by
  induction parts using arePlain.induct with
  | case1 => rfl
  | case2 text => rfl
  | case3 => rfl
  | case4 text name rest hne ih =>
    obtain ⟨hname, hrest⟩ := arePlain_cons hne hp
    rw [fillPieces_cons first body text name hne, fillPieces_cons second body text name hne,
      filledPart_congr h hname, ih hrest]

theorem inlineOf_ok {names : List String} {meanings : Meanings} (h : BindsText names meanings) :
    ∀ name ∈ names, ∃ text, inlineOf meanings name = .ok text := by
  intro name hn
  obtain ⟨content, hc⟩ := h name hn
  exact ⟨content, by rw [inlineOf, hc]; rfl⟩

theorem Item.trace_sole_text {meanings : Meanings} {name content : String} (extra : Nat)
    (h : meanings.lookup name = some (.text content)) :
    (Item.sole extra name).trace meanings =
      ⟨(lines content.toList).map (Piece.mk extra), .ok ()⟩ := by
  simp only [Item.trace, h, Trace.all_lines]

theorem Item.trace_sole_block {meanings : Meanings} {name : String} {body : Trace} (extra : Nat)
    (h : meanings.lookup name = some (.block body)) :
    (Item.sole extra name).trace meanings = body.shift extra := by
  simp only [Item.trace, h]

theorem Item.outcome_of_isPlain {names : List String} {meanings : Meanings} {item : Item}
    (h : BindsText names meanings) (hp : item.isPlain names = true) :
    (item.trace meanings).outcome = .ok () := by
  cases item with
  | blank => rfl
  | sole extra name =>
    obtain ⟨content, hc⟩ := h name (List.contains_iff_mem.mp hp)
    rw [Item.trace_sole_text extra hc]
  | inline extra parts =>
    obtain ⟨text, ht⟩ := fillPieces_ok (inlineOf_ok h) (['$'].intercalate parts) parts hp
    rw [Item.trace, ht]
    rfl

theorem Item.trace_congr {names : List String} {first second : Meanings} {item : Item}
    (h : AgreeOn names first second) (hp : item.isPlain names = true) :
    item.trace first = item.trace second := by
  cases item with
  | blank => rfl
  | sole extra name => rw [Item.trace, Item.trace, h name (List.contains_iff_mem.mp hp)]
  | inline extra parts =>
    have hv : ∀ name ∈ names, inlineOf first name = inlineOf second name := fun name hn => by
      rw [inlineOf, inlineOf, h name hn]
    rw [Item.trace, Item.trace, fillPieces_congr hv _ parts hp]

theorem outcome_templateTrace (names : List String) {meanings : Meanings} (source : String)
    (h : BindsText names meanings) :
    (templateTrace meanings source).outcome =
      (Trace.all ((otherItems names source).map (Item.trace meanings))).outcome := by
  refine Trace.outcome_all_filter (Item.trace meanings) _ (items source) fun item _ hp => ?_
  exact Item.outcome_of_isPlain h (by simpa using hp)

end GrpcStubs.Template
