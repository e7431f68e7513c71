import GrpcStubs.Template.Step

set_option autoImplicit false

/-!
# What steps print

Steps print the same lines wherever they are run. `Step.traceAll` lists these lines, each with its
indentation against the block it belongs to, and says how the run ends. `printAll_eq_run` states
that printing appends them to the output at the current indentation and leaves the indentation as
it was, after a failure too.
-/

namespace GrpcStubs.Template
open Text

/-- A printed line, indented by `extra` against the block around it. -/
structure Piece where
  extra : Nat
  text : Line
deriving DecidableEq

def Piece.shift (extra : Nat) (piece : Piece) : Piece :=
  ⟨extra + piece.extra, piece.text⟩

def Piece.chars (indent : Nat) (piece : Piece) : List Char :=
  if piece.text.isEmpty then ['\n']
  else List.replicate (indent + piece.extra) ' ' ++ piece.text ++ ['\n']

def layOut (indent : Nat) (pieces : List Piece) : List Char :=
  pieces.flatMap (Piece.chars indent)

theorem layOut_append (indent : Nat) (first second : List Piece) :
    layOut indent (first ++ second) = layOut indent first ++ layOut indent second :=
  List.flatMap_append

theorem chars_shift (indent extra : Nat) (piece : Piece) :
    (piece.shift extra).chars indent = piece.chars (indent + extra) := by
  unfold Piece.chars Piece.shift
  rw [Nat.add_assoc]

theorem layOut_shift (indent extra : Nat) (pieces : List Piece) :
    layOut indent (pieces.map (Piece.shift extra)) = layOut (indent + extra) pieces := by
  simp only [layOut, List.flatMap_map, chars_shift]

def Printer.append (p : Printer) (chars : List Char) : Printer :=
  { p with output := p.output ++ .ofList chars }

theorem Printer.append_nil (p : Printer) : p.append [] = p := by
  unfold Printer.append
  rw [String.ofList_nil, String.append_empty]

theorem Printer.append_append (p : Printer) (first second : List Char) :
    (p.append first).append second = p.append (first ++ second) := by
  unfold Printer.append
  rw [String.ofList_append, String.append_assoc]

structure Trace where
  pieces : List Piece
  outcome : Except Error Unit

namespace Trace

def line (extra : Nat) (text : Line) : Trace :=
  ⟨[⟨extra, text⟩], .ok ()⟩

def failed (error : Error) : Trace :=
  ⟨[], .error error⟩

def shift (extra : Nat) (trace : Trace) : Trace :=
  ⟨trace.pieces.map (Piece.shift extra), trace.outcome⟩

def andThen (first second : Trace) : Trace :=
  match first.outcome with
  | .ok _ => ⟨first.pieces ++ second.pieces, second.outcome⟩
  | .error _ => first

def all : List Trace → Trace
  | [] => ⟨[], .ok ()⟩
  | trace :: traces => trace.andThen (all traces)

def run (trace : Trace) : Print Unit := fun p =>
  (trace.outcome, p.append (layOut p.indent trace.pieces))

theorem run_done : (⟨[], .ok ()⟩ : Trace).run = pure () := by
  funext p
  exact congrArg (Prod.mk _) p.append_nil

theorem run_failed (error : Error) : (failed error).run = throw error := by
  funext p
  exact congrArg (Prod.mk _) p.append_nil

theorem run_bind (first second : Trace) :
    (first.run >>= fun _ => second.run) = (first.andThen second).run := by
  obtain ⟨pieces, outcome⟩ := first
  funext p
  cases outcome with
  | error e => rfl
  | ok u =>
    change (second.outcome, (p.append (layOut p.indent pieces)).append (layOut p.indent second.pieces)) =
      (second.outcome, p.append (layOut p.indent (pieces ++ second.pieces)))
    rw [layOut_append, Printer.append_append]

theorem run_shift (extra : Nat) (trace : Trace) :
    (trace.shift extra).run = indented extra trace.run := by
  funext p
  change (trace.outcome, p.append (layOut p.indent (trace.pieces.map (Piece.shift extra)))) =
    (trace.outcome, Printer.mk (p.output ++ String.ofList (layOut (p.indent + extra) trace.pieces))
      (p.indent + extra - extra))
  rw [layOut_shift, Nat.add_sub_cancel]
  rfl

theorem run_line (extra : Nat) (text : Line) :
    (line extra text).run = printLine extra (.ofList text) := by
  funext p
  cases text with
  | nil => rfl
  | cons c cs =>
    have hne : (String.ofList (c :: cs)).isEmpty = false := by simp
    have hout : String.ofList (layOut p.indent [⟨extra, c :: cs⟩]) =
        spaces (p.indent + extra) ++ String.ofList (c :: cs) ++ "\n" := by
      rw [layOut, List.flatMap_singleton]
      change String.ofList (List.replicate (p.indent + extra) ' ' ++ (c :: cs) ++ ['\n']) = _
      rw [String.ofList_append, String.ofList_append]
      rfl
    rw [printLine, hne]
    change (Except.ok (),
      Printer.mk (p.output ++ String.ofList (layOut p.indent [⟨extra, c :: cs⟩])) p.indent) =
      (Except.ok (), Printer.mk (p.output ++ spaces (p.indent + extra) ++ String.ofList (c :: cs) ++ "\n")
        p.indent)
    rw [hout, String.append_assoc, String.append_assoc, String.append_assoc]

theorem run_all {α : Type} (f : α → Trace) (xs : List α) :
    (all (xs.map f)).run = xs.forM fun x => (f x).run := by
  induction xs with
  | nil => exact run_done
  | cons x xs ih =>
    rw [List.map_cons, all, ← run_bind, ih]
    rfl

end Trace

inductive Meaning where
  | text (content : String)
  | block (body : Trace)

abbrev Meanings := List (String × Meaning)

def Meaning.value : Meaning → Value
  | .text content => .text content
  | .block body => .block body.run

def Meaning.inline : Meaning → Except Error String
  | .text content => .ok content
  | .block body =>
    match body.outcome with
    | .ok _ => .ok (.ofList (dropEndWhile (· == '\n') (layOut 0 body.pieces)))
    | .error e => .error e

def inlineOf (meanings : Meanings) (name : String) : Except Error String :=
  match meanings.lookup name with
  | some meaning => meaning.inline
  | none => .error (.unboundName name)

def valuesOf (meanings : Meanings) : Bindings :=
  meanings.map fun (name, meaning) => (name, meaning.value)

theorem lookup_valuesOf (meanings : Meanings) (name : String) :
    (valuesOf meanings).lookup name = (meanings.lookup name).map Meaning.value := by
  induction meanings with
  | nil => rfl
  | cons entry rest ih =>
    obtain ⟨key, meaning⟩ := entry
    change List.lookup name ((key, meaning.value) :: valuesOf rest) = _
    rw [List.lookup_cons, List.lookup_cons, ih]
    cases name == key <;> rfl

theorem printed_run (trace : Trace) :
    printed trace.run =
      match trace.outcome with
      | .ok _ => .ok (.ofList (layOut 0 trace.pieces))
      | .error e => .error e := by
  obtain ⟨pieces, outcome⟩ := trace
  cases outcome with
  | error e => rfl
  | ok u =>
    change Except.ok ("" ++ String.ofList (layOut 0 pieces)) = _
    rw [String.empty_append]

theorem inline_value (meaning : Meaning) : meaning.value.inline = meaning.inline := by
  cases meaning with
  | text content => rfl
  | block body =>
    simp only [Meaning.value, Value.inline, Meaning.inline, printed_run]
    cases body.outcome with
    | error e => rfl
    | ok u =>
      change Except.ok (String.ofList (dropEndWhile (· == '\n')
        (String.ofList (layOut 0 body.pieces)).toList)) = _
      rw [String.toList_ofList]

theorem inlineOf_eq (meanings : Meanings) (name : String) :
    (valueOf (valuesOf meanings) name >>= Value.inline) = inlineOf meanings name := by
  rw [valueOf, inlineOf, lookup_valuesOf]
  cases meanings.lookup name with
  | none => rfl
  | some meaning => exact inline_value meaning

/-- A line of a template: blank, one placeholder, or the parts between its dollar signs. -/
inductive Item where
  | blank
  | sole (extra : Nat) (name : String)
  | inline (extra : Nat) (parts : List Line)
deriving DecidableEq

namespace Item

def ofLine (line : Line) : Item :=
  if allBlank line then .blank
  else
    match soleName? (trimStart line) with
    | some name => .sole (indentWidth line) name
    | none => .inline (indentWidth line) (splitAt '$' (trimStart line))

def trace (meanings : Meanings) : Item → Trace
  | .blank => .line 0 []
  | .sole extra name =>
    match meanings.lookup name with
    | some (.text content) => .all ((lines content.toList).map (Trace.line extra))
    | some (.block body) => body.shift extra
    | none => .failed (.unboundName name)
  | .inline extra parts =>
    match fillPieces (inlineOf meanings) (['$'].intercalate parts) parts with
    | .ok text => .line extra text.toList
    | .error e => .failed e

end Item

theorem printText_eq_run (extra : Nat) (content : String) :
    printText extra content = (Trace.all ((lines content.toList).map (Trace.line extra))).run := by
  rw [Trace.run_all, printText]
  simp only [Trace.run_line]

theorem printTemplateLine_eq_run (meanings : Meanings) (line : Line) :
    printTemplateLine (valuesOf meanings) line = ((Item.ofLine line).trace meanings).run := by
  unfold printTemplateLine Item.ofLine
  by_cases hb : allBlank line
  · rw [if_pos hb, if_pos hb, Item.trace, Trace.run_line]
    rfl
  · rw [if_neg hb, if_neg hb]
    dsimp only
    cases soleName? (trimStart line) with
    | some name =>
      simp only [Item.trace, valueOf, lookup_valuesOf]
      cases meanings.lookup name with
      | none => exact (Trace.run_failed _).symm
      | some meaning =>
        cases meaning with
        | text content => exact printText_eq_run _ content
        | block body => exact (Trace.run_shift _ body).symm
    | none =>
      simp only [Item.trace, intercalate_splitAt, fill]
      have hv : (fun name => valueOf (valuesOf meanings) name >>= Value.inline) =
          inlineOf meanings := funext fun name => inlineOf_eq meanings name
      rw [hv]
      cases fillPieces (inlineOf meanings) (trimStart line) (splitAt '$' (trimStart line)) with
      | error e => exact (Trace.run_failed e).symm
      | ok text =>
        change printLine _ text = _
        rw [Trace.run_line, String.ofList_toList]

def items (source : String) : List Item :=
  (layout source.toList).map Item.ofLine

def templateTrace (meanings : Meanings) (source : String) : Trace :=
  .all ((items source).map (Item.trace meanings))

theorem printTemplate_eq_run (meanings : Meanings) (source : String) :
    printTemplate (valuesOf meanings) source = (templateTrace meanings source).run := by
  rw [templateTrace, items, List.map_map, Trace.run_all, printTemplate]
  congr 1
  funext line
  exact printTemplateLine_eq_run meanings line

mutual

def Step.trace : Step → Trace
  | .emptyLine => .line 0 []
  | .fail error => .failed error
  | .template bindings source => templateTrace (Binding.meanings bindings) source

def Step.traceAll : List Step → Trace
  | [] => ⟨[], .ok ()⟩
  | step :: steps => step.trace.andThen (Step.traceAll steps)

def Binding.meaning : Binding → String × Meaning
  | .text name content => (name, .text content)
  | .block name steps => (name, .block (Step.traceAll steps))

def Binding.meanings : List Binding → Meanings
  | [] => []
  | binding :: bindings => binding.meaning :: Binding.meanings bindings

end

mutual

theorem Step.print_eq_run : (step : Step) → step.print = step.trace.run
  | .emptyLine => by
    rw [Step.print, Step.trace, Trace.run_line]
    rfl
  | .fail error => by
    rw [Step.print, Step.trace, Trace.run_failed]
  | .template bindings source => by
    rw [Step.print, Step.trace, Binding.values_eq bindings, printTemplate_eq_run]

theorem Step.printAll_eq_run : (steps : List Step) → Step.printAll steps = (Step.traceAll steps).run
  | [] => by
    rw [Step.printAll, Step.traceAll, Trace.run_done]
  | step :: steps => by
    rw [Step.printAll, Step.traceAll, ← Trace.run_bind, Step.print_eq_run step,
      Step.printAll_eq_run steps]

theorem Binding.value_eq : (binding : Binding) →
    binding.value = (binding.meaning.1, binding.meaning.2.value)
  | .text name content => by
    rw [Binding.value, Binding.meaning]
    rfl
  | .block name steps => by
    rw [Binding.value, Binding.meaning, Step.printAll_eq_run steps]
    rfl

theorem Binding.values_eq : (bindings : List Binding) →
    Binding.values bindings = valuesOf (Binding.meanings bindings)
  | [] => by
    rw [Binding.values, Binding.meanings]
    rfl
  | binding :: bindings => by
    rw [Binding.values, Binding.meanings, Binding.value_eq binding, Binding.values_eq bindings]
    rfl

end

/-- Wherever steps are run, they append the same lines at the indentation of the printer, end in the
    same way, and leave the indentation as it was. -/
theorem Step.printAll_appends (steps : List Step) :
    ∃ (pieces : List Piece) (outcome : Except Error Unit), ∀ (output : String) (indent : Nat),
      Step.printAll steps ⟨output, indent⟩ =
        (outcome, ⟨output ++ String.ofList (layOut indent pieces), indent⟩) := by
  refine ⟨(Step.traceAll steps).pieces, (Step.traceAll steps).outcome, fun output indent => ?_⟩
  rw [Step.printAll_eq_run steps]
  rfl

theorem Step.render_eq (steps : List Step) :
    Step.render steps =
      match (Step.traceAll steps).outcome with
      | .ok _ => .ok (.ofList (layOut 0 (Step.traceAll steps).pieces))
      | .error e => .error e := by
  rw [Step.render, Step.printAll_eq_run, printed_run]

end GrpcStubs.Template
