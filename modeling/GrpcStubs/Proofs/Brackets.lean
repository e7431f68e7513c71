import GrpcStubs.Text.Split

set_option autoImplicit false

namespace GrpcStubs.Text

def closing? : Char → Option Char
  | '(' => some ')'
  | '[' => some ']'
  | '\x7b' => some '\x7d'
  | _ => none

def isClosing (c : Char) : Bool :=
  c == ')' || c == ']' || c == '\x7d'

def isBracket (c : Char) : Bool :=
  (closing? c).isSome || isClosing c

def brackets (text : List Char) : List Char :=
  text.filter isBracket

inductive Balanced : List Char → Prop where
  | nil : Balanced []
  | pair {c d : Char} {inner rest : List Char} (paired : closing? c = some d)
    (inside : Balanced inner) (after : Balanced rest) : Balanced (c :: inner ++ d :: rest)

def Nested (text : List Char) : Prop :=
  Balanced (brackets text)

/-- The closing brackets that are missing after a character, innermost first. There is no such list
    if the character closes a bracket that is not the innermost open one. -/
def readBracket (missing : List Char) (c : Char) : Option (List Char) :=
  match closing? c with
  | some d => some (d :: missing)
  | none =>
    if isClosing c then
      match missing with
      | d :: outer => if c = d then some outer else none
      | [] => none
    else some missing

def readBrackets (missing : List Char) : List Char → Option (List Char)
  | [] => some missing
  | c :: cs => (readBracket missing c).bind fun next => readBrackets next cs

/-- The outermost blocks in braces of a text that goes on while the brackets in `missing` are open. It
    is in such a block if the outermost open bracket is a brace. -/
def outerBlocks (missing : List Char) : List Char → Option (List (List Char))
  | [] => if missing.isEmpty then some [] else none
  | c :: cs =>
    (readBracket missing c).bind fun next =>
      (outerBlocks next cs).map fun blocks =>
        if missing.getLast? = some '\x7d' then
          if next.isEmpty then [] :: blocks else consFirst c blocks
        else blocks

theorem closing?_eq_none_of_isClosing {c : Char} (h : isClosing c = true) : closing? c = none := by
  rw [isClosing, Bool.or_eq_true, Bool.or_eq_true, beq_iff_eq, beq_iff_eq, beq_iff_eq] at h
  rcases h with (rfl | rfl) | rfl <;> rfl

theorem isClosing_of_closing? {c d : Char} (h : closing? c = some d) : isClosing d = true := by
  unfold closing? at h
  split at h
  · cases h; rfl
  · cases h; rfl
  · cases h; rfl
  · cases h

theorem eq_of_isBracket {c : Char} (h : isBracket c = true) :
    c = '(' ∨ c = ')' ∨ c = '[' ∨ c = ']' ∨ c = '\x7b' ∨ c = '\x7d' := by
  rw [isBracket, Bool.or_eq_true] at h
  rcases h with hopen | hclose
  · unfold closing? at hopen
    split at hopen
    · exact .inl rfl
    · exact .inr (.inr (.inl rfl))
    · exact .inr (.inr (.inr (.inr (.inl rfl))))
    · cases hopen
  · rw [isClosing, Bool.or_eq_true, Bool.or_eq_true, beq_iff_eq, beq_iff_eq, beq_iff_eq] at hclose
    rcases hclose with (rfl | rfl) | rfl <;> simp

theorem readBracket_open {c d : Char} (missing : List Char) (h : closing? c = some d) :
    readBracket missing c = some (d :: missing) := by
  unfold readBracket
  rw [h]

theorem readBracket_close {d : Char} (outer : List Char) (h : isClosing d = true) :
    readBracket (d :: outer) d = some outer := by
  unfold readBracket
  simp [closing?_eq_none_of_isClosing h, h]

theorem readBracket_other {c : Char} (missing : List Char) (h : isBracket c = false) :
    readBracket missing c = some missing := by
  rw [isBracket, Bool.or_eq_false_iff, Option.isSome_eq_false_iff, Option.isNone_iff_eq_none] at h
  unfold readBracket
  simp [h.1, h.2]

theorem readBracket_cases {missing next : List Char} {c : Char}
    (h : readBracket missing c = some next) :
    (∃ d, closing? c = some d ∧ next = d :: missing) ∨
      (isClosing c = true ∧ missing = c :: next) ∨ (isBracket c = false ∧ next = missing) := by
  unfold readBracket at h
  split at h
  · rename_i d hd
    cases h
    exact .inl ⟨d, hd, rfl⟩
  · rename_i hopen
    split at h
    · rename_i hclosing
      cases missing with
      | nil => cases h
      | cons d outer =>
        dsimp only at h
        split at h
        · rename_i hd
          cases h
          exact .inr (.inl ⟨hclosing, hd ▸ rfl⟩)
        · cases h
    · rename_i hclosing
      cases h
      exact .inr (.inr ⟨by simp [isBracket, hopen, hclosing], rfl⟩)

theorem readBracket_append {missing next : List Char} {c : Char} (outer : List Char)
    (h : readBracket missing c = some next) :
    readBracket (missing ++ outer) c = some (next ++ outer) := by
  rcases readBracket_cases h with ⟨d, hopen, rfl⟩ | ⟨hclose, rfl⟩ | ⟨hother, rfl⟩
  · exact readBracket_open (missing ++ outer) hopen
  · exact readBracket_close (next ++ outer) hclose
  · exact readBracket_other (next ++ outer) hother

theorem readBrackets_append (missing first second : List Char) :
    readBrackets missing (first ++ second) =
      (readBrackets missing first).bind fun next => readBrackets next second := by
  induction first generalizing missing with
  | nil => rfl
  | cons c cs ih =>
    rw [List.cons_append, readBrackets, readBrackets]
    cases readBracket missing c with
    | none => rfl
    | some next => exact ih next

theorem brackets_append (first second : List Char) :
    brackets (first ++ second) = brackets first ++ brackets second :=
  List.filter_append first second

theorem brackets_eq_nil_iff {text : List Char} :
    brackets text = [] ↔ ∀ c ∈ text, isBracket c = false := by
  simp [brackets, List.filter_eq_nil_iff]

theorem readBrackets_brackets (missing text : List Char) :
    readBrackets missing (brackets text) = readBrackets missing text := by
  induction text generalizing missing with
  | nil => rfl
  | cons c cs ih =>
    cases hc : isBracket c with
    | true =>
      rw [brackets, List.filter_cons_of_pos hc, readBrackets, readBrackets]
      exact congrArg (Option.bind _) (funext fun next => ih next)
    | false =>
      rw [brackets, List.filter_cons_of_neg (by simp [hc]), readBrackets, readBracket_other _ hc]
      exact ih missing

theorem Balanced.readBrackets_eq {word : List Char} (h : Balanced word) (missing : List Char) :
    readBrackets missing word = some missing := by
  induction h generalizing missing with
  | nil => rfl
  | @pair c d inner rest paired inside after ihInside ihAfter =>
    rw [List.cons_append, readBrackets, readBracket_open missing paired, Option.bind_some,
      readBrackets_append, ihInside, Option.bind_some, readBrackets,
      readBracket_close missing (isClosing_of_closing? paired), Option.bind_some, ihAfter]

inductive Closes : List Char → List Char → Prop where
  | done {word : List Char} (h : Balanced word) : Closes [] word
  | next {d : Char} {missing word rest : List Char} (h : Balanced word) (hrest : Closes missing rest) :
    Closes (d :: missing) (word ++ d :: rest)

theorem Closes.pair {c d : Char} {missing inner rest : List Char} (paired : closing? c = some d)
    (inside : Balanced inner) (h : Closes missing rest) :
    Closes missing (c :: inner ++ d :: rest) := by
  cases h with
  | done h => exact .done (.pair paired inside h)
  | @next e missing word rest h hrest =>
    have hword : c :: inner ++ d :: (word ++ e :: rest) = c :: inner ++ d :: word ++ e :: rest := by
      simp
    rw [hword]
    exact .next (.pair paired inside h) hrest

theorem Closes.cons_inv {d : Char} {missing word : List Char} (h : Closes (d :: missing) word) :
    ∃ inner rest, word = inner ++ d :: rest ∧ Balanced inner ∧ Closes missing rest := by
  cases h with
  | @next _ _ inner rest h hrest => exact ⟨inner, rest, rfl, h, hrest⟩

theorem closes_of_readBrackets {missing text : List Char}
    (h : readBrackets missing text = some []) : Closes missing (brackets text) := by
  induction text generalizing missing with
  | nil =>
    cases h
    exact .done .nil
  | cons c cs ih =>
    rw [readBrackets] at h
    obtain ⟨next, hnext, hrest⟩ := Option.bind_eq_some_iff.mp h
    have hcloses := ih hrest
    rcases readBracket_cases hnext with ⟨d, hopen, rfl⟩ | ⟨hclose, rfl⟩ | ⟨hother, rfl⟩
    · rw [brackets, List.filter_cons_of_pos (by simp [isBracket, hopen])]
      obtain ⟨inner, rest, hword, inside, hrest⟩ := hcloses.cons_inv
      rw [← brackets, hword]
      exact .pair hopen inside hrest
    · rw [brackets, List.filter_cons_of_pos (by simp [isBracket, hclose])]
      exact .next .nil hcloses
    · rw [brackets, List.filter_cons_of_neg (by simp [hother])]
      exact hcloses

theorem nested_iff {text : List Char} : Nested text ↔ readBrackets [] text = some [] := by
  constructor
  · intro h
    rw [← readBrackets_brackets]
    exact h.readBrackets_eq []
  · intro h
    cases closes_of_readBrackets h with
    | done h => exact h

instance (text : List Char) : Decidable (Nested text) :=
  decidable_of_iff _ nested_iff.symm

theorem Nested.readBrackets_eq {text : List Char} (h : Nested text) (missing : List Char) :
    readBrackets missing text = some missing := by
  rw [← readBrackets_brackets]
  exact Balanced.readBrackets_eq h missing

theorem nested_of_free {text : List Char} (h : ∀ c ∈ text, isBracket c = false) : Nested text := by
  rw [Nested, brackets_eq_nil_iff.mpr h]
  exact .nil

theorem Nested.append {first second : List Char} (hfirst : Nested first) (hsecond : Nested second) :
    Nested (first ++ second) := by
  rw [nested_iff, readBrackets_append, hfirst.readBrackets_eq, Option.bind_some]
  exact nested_iff.mp hsecond

def braced (body : List Char) : List Char :=
  '\x7b' :: body ++ ['\x7d']

theorem Nested.braced {body : List Char} (h : Nested body) : Nested (braced body) := by
  have hword : brackets (Text.braced body) = '\x7b' :: brackets body ++ '\x7d' :: [] := by
    rw [Text.braced, brackets_append]
    rfl
  rw [Nested, hword]
  exact .pair rfl h .nil

theorem outerBlocks_of_free {front : List Char} (rest : List Char)
    (h : ∀ c ∈ front, isBracket c = false) :
    outerBlocks [] (front ++ rest) = outerBlocks [] rest := by
  induction front with
  | nil => rfl
  | cons c cs ih =>
    rw [List.forall_mem_cons] at h
    rw [List.cons_append, outerBlocks, readBracket_other [] h.1, Option.bind_some, ih h.2]
    exact Option.map_id'

theorem outerBlocks_body {missing body : List Char} (rest : List Char)
    (h : readBrackets missing body = some []) :
    outerBlocks (missing ++ ['\x7d']) (body ++ '\x7d' :: rest) =
      (outerBlocks [] rest).map (body :: ·) := by
  induction body generalizing missing with
  | nil =>
    cases h
    rw [List.nil_append, List.nil_append, outerBlocks, readBracket_close [] rfl, Option.bind_some]
    rfl
  | cons c cs ih =>
    rw [readBrackets] at h
    obtain ⟨next, hnext, hrest⟩ := Option.bind_eq_some_iff.mp h
    rw [List.cons_append, outerBlocks, readBracket_append _ hnext, Option.bind_some, ih hrest,
      Option.map_map]
    refine congrArg (fun collect => Option.map collect _) (funext fun blocks => ?_)
    simp [consFirst]

theorem outerBlocks_braced {front body : List Char} (rest : List Char)
    (hfront : ∀ c ∈ front, isBracket c = false) (hbody : Nested body) :
    outerBlocks [] (front ++ braced body ++ rest) = (outerBlocks [] rest).map (body :: ·) := by
  have htext : front ++ braced body ++ rest = front ++ '\x7b' :: (body ++ '\x7d' :: rest) := by
    simp [braced]
  rw [htext, outerBlocks_of_free _ hfront, outerBlocks, readBracket_open [] rfl, Option.bind_some]
  have hblock := outerBlocks_body rest (nested_iff.mp hbody)
  rw [List.nil_append] at hblock
  rw [hblock, Option.map_map]
  rfl

example : outerBlocks [] "f(a) \x7bb[0]\x7d g \x7bc\x7bd\x7d\x7d".toList =
    some ["b[0]".toList, "c\x7bd\x7d".toList] := by
  decide

end GrpcStubs.Text
