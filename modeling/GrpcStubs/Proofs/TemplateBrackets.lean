import GrpcStubs.Proofs.Brackets
import GrpcStubs.Proofs.Flatness
import Mathlib.Data.List.Basic

set_option autoImplicit false

namespace GrpcStubs.Template
open Text

def withoutDocLines (content : String) : List Char :=
  ['\n'].intercalate ((splitAt '\n' content.toList).filter fun line => !isDocLine line)

def codeOnly (pieces : List Piece) : List Piece :=
  pieces.filter fun piece => !isDocLine piece.text

theorem codeOnly_append (first second : List Piece) :
    codeOnly (first ++ second) = codeOnly first ++ codeOnly second :=
  List.filter_append first second

theorem isDocLine_row (indent : Nat) (piece : Piece) :
    isDocLine (piece.row indent) = isDocLine piece.text := by
  rw [isDocLine, dropSpaces_row, isDocLine]

theorem intercalate_rows (rows : List Line) :
    ['\n'].intercalate (rows ++ [[]]) = rows.flatMap fun row => row ++ ['\n'] := by
  induction rows with
  | nil => rfl
  | cons row rows ih =>
    cases rows with
    | nil => simp [List.intercalate]
    | cons next rest =>
      rw [List.cons_append, List.cons_append, List.intercalate_cons_cons, ← List.cons_append, ih]
      rfl

theorem withoutDocLines_layOut {pieces : List Piece} (hflat : ∀ piece ∈ pieces, '\n' ∉ piece.text) :
    withoutDocLines (.ofList (layOut 0 pieces)) = layOut 0 (codeOnly pieces) := by
  have hcode : (pieces.map (Piece.row 0)).filter (fun line => !isDocLine line) =
      (codeOnly pieces).map (Piece.row 0) := by
    rw [List.filter_map, codeOnly]
    exact congrArg (fun p => (pieces.filter p).map (Piece.row 0))
      (funext fun piece => congrArg not (isDocLine_row 0 piece))
  rw [withoutDocLines, String.toList_ofList, splitAt_layOut_of_flat 0 hflat, List.filter_append,
    hcode, layOut_eq_rows, ← intercalate_rows]
  rfl

namespace Trace

def code (trace : Trace) : List Char :=
  (codeOnly trace.pieces).flatMap Piece.text

def Nests (trace : Trace) : Prop :=
  Nested trace.code

theorem code_append (first second : List Piece) (outcome : Except Error Unit) :
    code ⟨first ++ second, outcome⟩ = code ⟨first, .ok ()⟩ ++ code ⟨second, .ok ()⟩ := by
  rw [code, codeOnly_append, List.flatMap_append]
  rfl

theorem code_andThen {first : Trace} (second : Trace) (h : first.outcome = .ok ()) :
    (first.andThen second).code = first.code ++ second.code := by
  rw [andThen_of_ok second h, code_append]
  rfl

theorem code_all {α : Type} {f : α → Trace} {xs : List α} (h : ∀ x ∈ xs, (f x).outcome = .ok ()) :
    (all (xs.map f)).code = xs.flatMap fun x => (f x).code := by
  induction xs with
  | nil => rfl
  | cons x xs ih =>
    rw [List.map_cons, all, code_andThen _ (h x List.mem_cons_self), List.flatMap_cons,
      ih fun y hy => h y (List.mem_cons_of_mem _ hy)]

theorem code_shift (extra : Nat) (trace : Trace) : (trace.shift extra).code = trace.code := by
  rw [code, shift, codeOnly, List.filter_map, List.flatMap_map]
  rfl

theorem code_line (extra : Nat) (text : Line) :
    (line extra text).code = if isDocLine text then [] else text := by
  rw [code, line, codeOnly]
  cases h : isDocLine text <;> simp [h]

theorem nests_andThen {first second : Trace} (hfirst : first.Nests) (hsecond : second.Nests) :
    (first.andThen second).Nests := by
  cases ho : first.outcome with
  | error e =>
    rw [andThen_of_error second ho]
    exact hfirst
  | ok u =>
    rw [Nests, code_andThen second ho]
    exact hfirst.append hsecond

theorem nests_shift {trace : Trace} (extra : Nat) (h : trace.Nests) : (trace.shift extra).Nests := by
  rw [Nests, code_shift]
  exact h

theorem isCompositional_nests : IsCompositional Nests where
  done := .nil
  emptyLine := .nil
  andThen := nests_andThen
  shift := nests_shift

theorem nests_lines {rows : List Line} (extra : Nat)
    (h : ∀ row ∈ rows, isDocLine row = true ∨ Nested row) :
    Nests ⟨rows.map (Piece.mk extra), .ok ()⟩ := by
  rw [← all_lines]
  refine isCompositional_nests.all fun row hrow => ?_
  rw [Nests, code_line]
  split
  · exact .nil
  · rename_i hdoc
    exact (h row hrow).resolve_left hdoc

end Trace

theorem brackets_layOut (indent : Nat) (pieces : List Piece) :
    brackets (layOut indent pieces) = brackets (pieces.flatMap Piece.text) := by
  have hpiece : ∀ piece : Piece, brackets (piece.chars indent) = brackets piece.text := by
    intro piece
    unfold Piece.chars
    split
    · rename_i hempty
      rw [List.isEmpty_iff.mp hempty]
      rfl
    · have hspaces : brackets (List.replicate (indent + piece.extra) ' ') = [] :=
        brackets_eq_nil_iff.mpr fun c hc => (List.eq_of_mem_replicate hc) ▸ rfl
      rw [brackets_append, brackets_append, hspaces, List.nil_append]
      exact List.append_nil _
  induction pieces with
  | nil => rfl
  | cons piece pieces ih =>
    rw [List.flatMap_cons, brackets_append, ← hpiece, ← ih]
    exact brackets_append _ _

theorem nested_layOut {trace : Trace} (indent : Nat) (h : trace.Nests) :
    Nested (layOut indent (codeOnly trace.pieces)) := by
  rw [Nested, brackets_layOut]
  exact h

def fixedText : List Line → Line
  | [] => []
  | [text] => text
  | text :: _ :: rest => text ++ fixedText rest

theorem brackets_fillPieces {names : List String} {meanings : Meanings} {body : Line}
    {parts : List Line} {text : String} (h : BindsAvoiding isBracket names meanings)
    (hplain : arePlain names parts = true)
    (htext : fillPieces (inlineOf meanings) body parts = .ok text) :
    brackets text.toList = brackets (fixedText parts) := by
  induction parts using arePlain.induct generalizing text with
  | case1 =>
    cases htext
    rfl
  | case2 only =>
    cases htext
    rw [String.toList_ofList]
    rfl
  | case3 => cases htext
  | case4 front name rest hne ih =>
    obtain ⟨hname, hrest⟩ := arePlain_cons hne hplain
    obtain ⟨filled, remaining, hfilled, hremaining, hchars⟩ := fillPieces_cons_eq_ok hne htext
    have hfree := brackets_eq_nil_iff.mpr (h.filledPart rfl hname hfilled)
    rw [hchars, brackets_append, brackets_append, hfree, List.append_nil, ih hrest hremaining,
      fixedText, brackets_append]

theorem isDocLine_append {front : Line} (h : isDocLine front = true) (rest : Line) :
    isDocLine (front ++ rest) = true := by
  obtain ⟨after, hafter⟩ := Option.isSome_iff_exists.mp h
  have hstart := afterStart_eq_some_iff.mp hafter
  have hne : dropSpaces front ≠ [] := by
    rw [hstart]
    exact List.cons_ne_nil _ _
  rw [isDocLine, dropSpaces_append hne, hstart, List.append_assoc, afterStart_append]
  rfl

theorem isDocLine_of_clash {front : Line} (h : clash (dropSpaces front) ['/', '/', '/'] = true)
    (rest : Line) : isDocLine (front ++ rest) = false := by
  have hne : dropSpaces front ≠ [] := by
    intro hnil
    rw [hnil] at h
    cases h
  rw [isDocLine, dropSpaces_append hne, Option.isSome_eq_false_iff, Option.isNone_iff_eq_none,
    Option.eq_none_iff_forall_ne_some]
  intro after hafter
  exact append_ne_of_clash h rest after (afterStart_eq_some_iff.mp hafter)

namespace Item

def fixedCode (names : List String) : Item → Line
  | .inline _ parts =>
    if arePlain names parts && !isDocLine (parts.headD []) then fixedText parts else []
  | _ => []

/-- Whether the item is documentation can be told from the text before its first placeholder, or
    does not matter for the brackets. -/
def isSettled : Item → Bool
  | .inline _ parts =>
    isDocLine (parts.headD []) || clash (dropSpaces (parts.headD [])) ['/', '/', '/'] ||
      decide (Nested (fixedText parts))
  | _ => true

theorem readBrackets_inline {names : List String} {meanings : Meanings} {extra : Nat}
    {parts : List Line} {text : String} (h : BindsAvoiding isBracket names meanings)
    (hplain : arePlain names parts = true) (hsettled : (Item.inline extra parts).isSettled = true)
    (htext : fillPieces (inlineOf meanings) (['$'].intercalate parts) parts = .ok text)
    (missing : List Char) :
    readBrackets missing (Trace.line extra text.toList).code =
      readBrackets missing ((Item.inline extra parts).fixedCode names) := by
  obtain ⟨rest, hstart⟩ := fillPieces_starts htext
  have hfixed := brackets_fillPieces h hplain htext
  have hread : readBrackets missing text.toList = readBrackets missing (fixedText parts) := by
    rw [← readBrackets_brackets, hfixed, readBrackets_brackets]
  rw [Trace.code_line, fixedCode, hplain, Bool.true_and]
  rw [isSettled, Bool.or_eq_true, Bool.or_eq_true, decide_eq_true_eq] at hsettled
  -- Either both sides skip the line, or both read it, or reading it changes nothing.
  rcases hsettled with (hdoc | hclash) | hnested
  · rw [hstart, isDocLine_append hdoc, hdoc]
    rfl
  · have hhead : isDocLine (parts.headD []) = false := by
      simpa using isDocLine_of_clash hclash []
    have hline : isDocLine text.toList = false := by
      rw [hstart]
      exact isDocLine_of_clash hclash rest
    rw [hline, hhead]
    exact hread
  · have hskip := hnested.readBrackets_eq missing
    rw [hskip] at hread
    split
    · split
      · exact hskip.symm
      · rfl
    · rw [hread]
      split
      · exact hskip.symm
      · rfl

theorem readBrackets_trace {names : List String} {meanings : Meanings} {item : Item}
    (h : BindsAvoiding isBracket names meanings) (hplain : item.isPlain names = true)
    (hsettled : item.isSettled = true) (hok : (item.trace meanings).outcome = .ok ())
    (missing : List Char) :
    readBrackets missing (item.trace meanings).code =
      readBrackets missing (item.fixedCode names) := by
  cases item with
  | blank => rfl
  | sole extra name =>
    obtain ⟨content, hlookup, hfree⟩ := h name (List.contains_iff_mem.mp hplain)
    rw [Item.trace_sole_text extra hlookup]
    refine (Trace.nests_lines extra fun row hrow => .inr ?_).readBrackets_eq missing
    obtain ⟨piece, hpiece, hchars⟩ := mem_closeLines hrow
    exact nested_of_free fun c hc => hfree c (mem_of_mem_splitAt hpiece (hchars c hc))
  | inline extra parts =>
    rw [Item.trace] at hok ⊢
    split at hok
    · rename_i text htext
      exact readBrackets_inline h hplain hsettled htext missing
    · cases hok

end Item

def areNested (names : List String) (list : List Item) : Bool :=
  list.all Item.isSettled && decide (Nested (list.flatMap (Item.fixedCode names)))

/-- Items print nested code if their fixed texts are nested and the items with other placeholders
    print nested code. -/
theorem nests_items {names : List String} {meanings : Meanings} {list : List Item}
    (h : BindsAvoiding isBracket names meanings) (hnested : areNested names list = true)
    (hok : (Trace.all (list.map (Item.trace meanings))).outcome = .ok ())
    (hother : ∀ item ∈ list, item.isPlain names = false → (item.trace meanings).Nests) :
    (Trace.all (list.map (Item.trace meanings))).Nests := by
  rw [areNested, Bool.and_eq_true, List.all_eq_true, decide_eq_true_eq] at hnested
  have heach : ∀ item ∈ list, (item.trace meanings).outcome = .ok () :=
    fun item hitem => Trace.ok_of_outcome_all hok _ (List.mem_map_of_mem hitem)
  have hitem : ∀ item ∈ list, ∀ missing, readBrackets missing (item.trace meanings).code =
      readBrackets missing (item.fixedCode names) := by
    intro item hmem missing
    cases hplain : item.isPlain names with
    | true => exact Item.readBrackets_trace h hplain (hnested.1 item hmem) (heach item hmem) missing
    | false =>
      have hnone : item.fixedCode names = [] := by
        cases item with
        | inline extra parts =>
          rw [Item.isPlain] at hplain
          rw [Item.fixedCode, hplain]
          rfl
        | blank => rfl
        | sole extra name => rfl
      rw [hnone]
      exact (hother item hmem hplain).readBrackets_eq missing
  rw [Trace.Nests, nested_iff, Trace.code_all heach, ← nested_iff.mp hnested.2]
  -- A line may open brackets that a later one closes, so the induction is over all that are missing.
  generalize ([] : List Char) = missing
  clear hnested hok hother heach
  induction list generalizing missing with
  | nil => rfl
  | cons item list ih =>
    rw [List.forall_mem_cons] at hitem
    rw [List.flatMap_cons, List.flatMap_cons, readBrackets_append, readBrackets_append, hitem.1]
    exact congrArg (Option.bind _) (funext fun next => ih hitem.2 next)

theorem nests_templateTrace {names : List String} {meanings : Meanings} {source : String}
    (h : BindsAvoiding isBracket names meanings) (hnested : areNested names (items source) = true)
    (hok : (templateTrace meanings source).outcome = .ok ())
    (hother : ∀ item ∈ otherItems names source, (item.trace meanings).Nests) :
    (templateTrace meanings source).Nests :=
  nests_items h hnested hok fun item hitem hplain =>
    hother item (List.mem_filter.mpr ⟨hitem, by simp [hplain]⟩)

def moduleText (name : String) (body : List Char) : List Char :=
  "pub mod ".toList ++ name.toList ++ [' '] ++ braced body ++ ['\n']

theorem bracketFree_moduleFront {name : String} (hname : Avoids isBracket name) :
    ∀ c ∈ "pub mod ".toList ++ name.toList ++ [' '], isBracket c = false := by
  rw [String.toList_ofList, ← brackets_eq_nil_iff, brackets_append, brackets_append,
    brackets_eq_nil_iff.mpr hname]
  rfl

theorem nested_lineFeed : Nested ['\n'] :=
  Balanced.nil

theorem nested_moduleText {name : String} {body : List Char} (hname : Avoids isBracket name)
    (hbody : Nested body) : Nested (moduleText name body) :=
  ((nested_of_free (bracketFree_moduleFront hname)).append hbody.braced).append nested_lineFeed

theorem outerBlocks_moduleText {name : String} {body : List Char} (rest : List Char)
    (hname : Avoids isBracket name) (hbody : Nested body) :
    outerBlocks [] (moduleText name body ++ rest) = (outerBlocks [] rest).map (body :: ·) := by
  unfold moduleText
  rw [List.append_assoc, outerBlocks_braced _ (bracketFree_moduleFront hname) hbody,
    outerBlocks_of_free rest (List.forall_mem_singleton.mpr rfl)]

def moduleStart (name : String) : Item :=
  .inline 0 ["pub mod ".toList, name.toList, " \x7b".toList]

def moduleEnd : Item :=
  .inline 0 [['\x7d']]

/-- Whether the items are a documentation line, the start of a module, nested items and the end. -/
def isModule (names : List String) (start : Item) : List Item → Bool
  | .inline 0 [comment] :: first :: rest =>
    isDocLine comment && first == start && rest.getLast? == some moduleEnd &&
      areNested names rest.dropLast
  | _ => false

theorem isModule_eq {names : List String} {start : Item} {list : List Item}
    (h : isModule names start list = true) :
    ∃ comment body, list = .inline 0 [comment] :: start :: (body ++ [moduleEnd]) ∧
      isDocLine comment = true ∧ areNested names body = true := by
  unfold isModule at h
  split at h
  · rename_i comment first rest
    rw [Bool.and_eq_true, Bool.and_eq_true, Bool.and_eq_true, beq_iff_eq, beq_iff_eq] at h
    obtain ⟨⟨⟨hcomment, rfl⟩, hlast⟩, hnested⟩ := h
    refine ⟨comment, rest.dropLast, ?_, hcomment, hnested⟩
    rw [List.dropLast_append_getLast? _ hlast]
  · cases h

theorem trace_fixedLine (meanings : Meanings) (extra : Nat) (text : Line) :
    (Item.inline extra [text]).trace meanings = .line extra text := by
  simp only [Item.trace, fillPieces, String.toList_ofList]

theorem trace_moduleStart {meanings : Meanings} {name content : String} (hname : name.toList ≠ [])
    (hlookup : meanings.lookup name = some (.text content)) :
    (moduleStart name).trace meanings =
      .line 0 ("pub mod ".toList ++ content.toList ++ " \x7b".toList) := by
  rw [moduleStart, Item.trace,
    fillPieces_name hname hlookup _ _ (List.cons_ne_nil " \x7b".toList []) rfl]
  simp

theorem Trace.outcome_of_andThen {first second : Trace}
    (h : (first.andThen second).outcome = .ok ()) : first.outcome = .ok () := by
  cases ho : first.outcome with
  | error e =>
    rw [andThen_of_error second ho, ho] at h
    cases h
  | ok u => rfl

theorem layOut_codeLine {text : Line} (hdoc : isDocLine text = false) (hne : text ≠ []) :
    layOut 0 (codeOnly [⟨0, text⟩]) = text ++ ['\n'] := by
  have hempty : text.isEmpty = false := by simpa using hne
  simp [codeOnly, hdoc, layOut, Piece.chars, hempty]

theorem layOut_module {names : List String} {meanings : Meanings} {source name content : String}
    (hmodule : isModule names (moduleStart name) (items source) = true) (hname : name.toList ≠ [])
    (hlookup : meanings.lookup name = some (.text content)) (h : BindsAvoiding isBracket names meanings)
    (hok : (templateTrace meanings source).outcome = .ok ())
    (hother : ∀ item ∈ otherItems names source, (item.trace meanings).Nests) :
    ∃ body, Nested body ∧
      layOut 0 (codeOnly (templateTrace meanings source).pieces) = moduleText content body := by
  obtain ⟨comment, inner, hitems, hcomment, hnested⟩ := isModule_eq hmodule
  have hinner : ∀ item ∈ inner, item.isPlain names = false → (item.trace meanings).Nests := by
    intro item hitem hplain
    refine hother item (List.mem_filter.mpr ⟨?_, by simp [hplain]⟩)
    rw [hitems]
    exact List.mem_cons_of_mem _ (List.mem_cons_of_mem _ (List.mem_append_left _ hitem))
  rw [templateTrace, hitems, List.map_cons, List.map_cons, List.map_append, List.map_singleton,
    Trace.all, Trace.all, Trace.all_append, moduleEnd, trace_fixedLine, trace_fixedLine,
    trace_moduleStart hname hlookup, Trace.all, Trace.all, Trace.andThen_done] at hok ⊢
  rw [Trace.andThen_of_ok _ rfl, Trace.andThen_of_ok _ rfl] at hok ⊢
  have hinnerOk := Trace.outcome_of_andThen hok
  have hnests := nests_items h hnested hinnerOk hinner
  refine ⟨_, nested_lineFeed.append (nested_layOut 0 hnests), ?_⟩
  have hskip : codeOnly [⟨0, comment⟩] = [] := List.filter_cons_of_neg (by simp [hcomment])
  have hclash : clash (dropSpaces "pub mod ".toList) ['/', '/', '/'] = true := by
    rw [String.toList_ofList]
    rfl
  have hopen : " \x7b".toList = [' ', '\x7b'] := String.toList_ofList
  unfold moduleText
  rw [Trace.andThen_of_ok _ hinnerOk, hopen]
  generalize "pub mod ".toList = start at hclash ⊢
  have hstart := isDocLine_of_clash hclash (content.toList ++ [' ', '\x7b'])
  rw [← List.append_assoc] at hstart
  change layOut 0 (codeOnly ([⟨0, comment⟩] ++ ([⟨0, _⟩] ++ (_ ++ [⟨0, ['\x7d']⟩])))) = _
  rw [codeOnly_append, codeOnly_append, codeOnly_append, hskip, List.nil_append, layOut_append,
    layOut_append, layOut_codeLine hstart (by simp), layOut_codeLine rfl (by simp), braced]
  simp only [List.append_assoc, List.cons_append, List.nil_append]

end GrpcStubs.Template
