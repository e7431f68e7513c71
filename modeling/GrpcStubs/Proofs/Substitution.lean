import GrpcStubs.Proofs.Binding
import GrpcStubs.Proofs.Blanks
import GrpcStubs.Proofs.Lines
import GrpcStubs.Proofs.Sequencing

set_option autoImplicit false

namespace GrpcStubs.Template
open Text

def inlineValue (bindings : Bindings) (name : String) : Except Error String :=
  valueOf bindings name >>= Value.inline

def substitute (bindings : Bindings) (body : Line) : Except Error String :=
  fill (inlineValue bindings) body

/-- A line that is neither blank nor one placeholder is printed as it is filled. -/
theorem printTemplateLine_eq_substitute {bindings : Bindings} {line : Line}
    (hblank : allBlank line = false) (hsole : soleName? (trimStart line) = none) :
    printTemplateLine bindings line =
      match substitute bindings (trimStart line) with
      | .ok text => printLine (indentWidth line) text
      | .error error => throw error := by
  unfold printTemplateLine
  rw [if_neg (by simp [hblank])]
  dsimp only
  rw [hsole]
  change ((substitute bindings (trimStart line) : Except Error String) : Print String) >>= _ = _
  cases substitute bindings (trimStart line) <;> rfl

/-- Filling from the left: the text up to a dollar sign, the name up to the next one, and on from
    there. -/
def fillFrom (value : String → Except Error String) (body : Line) (output : String) (rest : Line) :
    Except Error String :=
  match hfirst : splitFirst '$' rest with
  | none => .ok (output ++ .ofList rest)
  | some (text, after) =>
    have := length_lt_of_splitFirst hfirst
    match hnext : splitFirst '$' after with
    | none => .error (unterminated body)
    | some (name, left) => do
      have := length_lt_of_splitFirst hnext
      let filled ← filledPart value name
      fillFrom value body (output ++ .ofList text ++ filled) left
termination_by rest.length

theorem fillFrom_eq (value : String → Except Error String) (body : Line) (output : String)
    (rest : Line) :
    fillFrom value body output rest =
      (fillPieces value body (splitAt '$' rest)).map (output ++ ·) := by
  fun_induction fillFrom value body output rest with
  | case1 output rest hfirst =>
    rw [splitAt_of_not_mem (splitFirst_eq_none_iff.mp hfirst)]
    rfl
  | case2 output rest text after hfirst _ hnext =>
    obtain ⟨htext, rfl⟩ := splitFirst_eq_some_iff.mp hfirst
    rw [splitAt_append_sep, splitAt_of_not_mem htext,
      splitAt_of_not_mem (splitFirst_eq_none_iff.mp hnext)]
    rfl
  | case3 output rest text after hfirst _ name left hnext _ ih =>
    obtain ⟨htext, rfl⟩ := splitFirst_eq_some_iff.mp hfirst
    obtain ⟨hname, rfl⟩ := splitFirst_eq_some_iff.mp hnext
    rw [splitAt_append_sep, splitAt_of_not_mem htext, splitAt_append_sep, splitAt_of_not_mem hname,
      List.singleton_append, List.singleton_append, fillPieces_cons _ _ _ _ (splitAt_ne_nil '$' left)]
    cases filledPart value name with
    | error error => rfl
    | ok filled =>
      refine (ih filled).trans ?_
      cases fillPieces value body (splitAt '$' left) with
      | error error => rfl
      | ok remaining => simp [Except.map, Except.bind, String.append_assoc]

/-- A line is filled the same whether it is cut at its dollar signs first or as they are found. -/
theorem fill_eq_fillFrom (value : String → Except Error String) (body : Line) :
    fill value body = fillFrom value body "" body := by
  rw [fillFrom_eq, fill]
  cases fillPieces value body (splitAt '$' body) with
  | error error => rfl
  | ok text => exact congrArg Except.ok String.empty_append.symm

def BindsFirst (bindings : Bindings) (name : String) (value : Value) : Prop :=
  ∃ before after, bindings = before ++ (name, value) :: after ∧ ∀ entry ∈ before, entry.1 ≠ name

/-- What the part between two dollar signs is replaced by. -/
inductive Replaces (bindings : Bindings) : Line → String → Prop where
  | dollar : Replaces bindings [] "$"
  | text {name : Line} {content : String} (nonempty : name ≠ [])
    (bound : BindsFirst bindings (.ofList name) (.text content)) : Replaces bindings name content
  | block {name : Line} {action : Print Unit} {content : String} {breaks indent : Nat}
    (nonempty : name ≠ []) (bound : BindsFirst bindings (.ofList name) (.block action))
    (prints : action {} = (.ok (), ⟨content ++ .ofList (List.replicate breaks '\n'), indent⟩))
    (closed : content.toList.getLast? ≠ some '\n') : Replaces bindings name content

/-- Why the part between two dollar signs has no replacement. -/
inductive Irreplaceable (bindings : Bindings) : Line → Error → Prop where
  | unbound {name : Line} (nonempty : name ≠ [])
    (missing : ∀ entry ∈ bindings, entry.1 ≠ .ofList name) :
    Irreplaceable bindings name (.unboundName (.ofList name))
  | failed {name : Line} {action : Print Unit} {error : Error} {printer : Printer}
    (nonempty : name ≠ []) (bound : BindsFirst bindings (.ofList name) (.block action))
    (fails : action {} = (.error error, printer)) : Irreplaceable bindings name error

theorem valueOf_eq_ok_iff {bindings : Bindings} {name : String} {value : Value} :
    valueOf bindings name = .ok value ↔ BindsFirst bindings name value := by
  have hlookup : valueOf bindings name = .ok value ↔ bindings.lookup name = some value := by
    unfold valueOf
    split <;> simp [*]
  rw [hlookup, List.lookup_eq_some_iff, BindsFirst]
  simp only [bne_iff_ne, ne_comm (a := name)]

theorem valueOf_eq_error_iff {bindings : Bindings} {name : String} {error : Error} :
    valueOf bindings name = .error error ↔
      error = .unboundName name ∧ ∀ entry ∈ bindings, entry.1 ≠ name := by
  have hlookup : valueOf bindings name = .error error ↔
      error = .unboundName name ∧ bindings.lookup name = none := by
    unfold valueOf
    split <;> simp [*, eq_comm]
  rw [hlookup, List.lookup_eq_none_iff]
  simp only [bne_iff_ne, ne_comm (a := name)]

theorem printed_eq_ok_iff {action : Print Unit} {output : String} :
    printed action = .ok output ↔ ∃ indent, action {} = (.ok (), ⟨output, indent⟩) := by
  unfold printed
  constructor
  · intro h
    split at h
    · rename_i printer hrun
      exact ⟨printer.indent, Except.ok.inj h ▸ hrun⟩
    · cases h
  · rintro ⟨indent, hrun⟩
    rw [hrun]

theorem printed_eq_error_iff {action : Print Unit} {error : Error} :
    printed action = .error error ↔ ∃ printer, action {} = (.error error, printer) := by
  unfold printed
  constructor
  · intro h
    split at h
    · cases h
    · rename_i found printer hrun
      exact ⟨printer, Except.error.inj h ▸ hrun⟩
  · rintro ⟨printer, hrun⟩
    rw [hrun]

theorem inline_block_eq_ok_iff {action : Print Unit} {content : String} :
    (Value.block action).inline = .ok content ↔ content.toList.getLast? ≠ some '\n' ∧
      ∃ breaks indent,
        action {} = (.ok (), ⟨content ++ .ofList (List.replicate breaks '\n'), indent⟩) := by
  rw [Value.inline, bind_eq_ok_iff]
  constructor
  · rintro ⟨output, hprinted, hcontent⟩
    obtain ⟨indent, hrun⟩ := printed_eq_ok_iff.mp hprinted
    have hdrop : dropEndWhile (· == '\n') output.toList = content.toList := by
      rw [← Except.ok.inj hcontent, String.toList_ofList]
    obtain ⟨⟨tail, htext, htail⟩, hlast⟩ := dropEndWhile_eq_iff.mp hdrop
    refine ⟨fun h => by simpa using hlast _ h, tail.length, indent, ?_⟩
    have hbreaks : tail = List.replicate tail.length '\n' :=
      List.eq_replicate_of_mem fun c hc => by simpa using htail c hc
    have houtput : output = content ++ .ofList (List.replicate tail.length '\n') := by
      rw [← hbreaks, ← String.toList_inj, htext]
      simp
    rw [hrun, houtput]
  · rintro ⟨hlast, breaks, indent, hrun⟩
    refine ⟨_, printed_eq_ok_iff.mpr ⟨indent, hrun⟩, ?_⟩
    have hdrop : dropEndWhile (· == '\n') (content.toList ++ List.replicate breaks '\n') =
        content.toList := by
      refine dropEndWhile_eq_iff.mpr ⟨⟨_, rfl, ?_⟩, ?_⟩
      · intro c hc
        simpa using List.eq_of_mem_replicate hc
      · intro c hc
        have hne : c ≠ '\n' := fun h => hlast (h ▸ hc)
        simpa using hne
    rw [String.toList_append, String.toList_ofList, hdrop, String.ofList_toList]
    rfl

theorem inline_block_eq_error_iff {action : Print Unit} {error : Error} :
    (Value.block action).inline = .error error ↔
      ∃ printer, action {} = (.error error, printer) := by
  rw [Value.inline, bind_pure_eq_error_iff, printed_eq_error_iff]

theorem inlineValue_of_text {bindings : Bindings} {name content : String}
    (h : BindsFirst bindings name (.text content)) : inlineValue bindings name = .ok content := by
  rw [inlineValue, valueOf_eq_ok_iff.mpr h]
  rfl

theorem inlineValue_of_block {bindings : Bindings} {name : String} {action : Print Unit}
    (h : BindsFirst bindings name (.block action)) :
    inlineValue bindings name = (Value.block action).inline := by
  rw [inlineValue, valueOf_eq_ok_iff.mpr h]
  rfl

theorem inlineValue_of_unbound {bindings : Bindings} {name : String}
    (h : ∀ entry ∈ bindings, entry.1 ≠ name) :
    inlineValue bindings name = .error (.unboundName name) := by
  rw [inlineValue, valueOf_eq_error_iff.mpr ⟨rfl, h⟩]
  rfl

theorem binding_cases (bindings : Bindings) (name : String) :
    (∀ entry ∈ bindings, entry.1 ≠ name) ∨ (∃ content, BindsFirst bindings name (.text content)) ∨
      ∃ action, BindsFirst bindings name (.block action) := by
  cases h : valueOf bindings name with
  | error error => exact .inl (valueOf_eq_error_iff.mp h).2
  | ok value =>
    have hbound := valueOf_eq_ok_iff.mp h
    cases value with
    | text content => exact .inr (.inl ⟨content, hbound⟩)
    | block action => exact .inr (.inr ⟨action, hbound⟩)

theorem filledPart_of_ne_nil (value : String → Except Error String) {name : Line}
    (h : name ≠ []) : filledPart value name = value (.ofList name) :=
  if_neg fun hempty => h (List.isEmpty_iff.mp hempty)

theorem filledPart_eq_ok_iff {bindings : Bindings} {name : Line} {content : String} :
    filledPart (inlineValue bindings) name = .ok content ↔ Replaces bindings name content := by
  constructor
  · intro h
    by_cases hne : name = []
    · rw [hne] at h ⊢
      obtain rfl := Except.ok.inj h
      exact .dollar
    · rw [filledPart_of_ne_nil _ hne] at h
      rcases binding_cases bindings (.ofList name) with hmissing | ⟨text, hbound⟩ | ⟨action, hbound⟩
      · rw [inlineValue_of_unbound hmissing] at h
        cases h
      · rw [inlineValue_of_text hbound] at h
        exact .text hne (Except.ok.inj h ▸ hbound)
      · rw [inlineValue_of_block hbound] at h
        obtain ⟨hclosed, breaks, indent, hprints⟩ := inline_block_eq_ok_iff.mp h
        exact .block hne hbound hprints hclosed
  · intro h
    cases h with
    | dollar => rfl
    | text hne hbound => rw [filledPart_of_ne_nil _ hne, inlineValue_of_text hbound]
    | block hne hbound hprints hclosed =>
      rw [filledPart_of_ne_nil _ hne, inlineValue_of_block hbound]
      exact inline_block_eq_ok_iff.mpr ⟨hclosed, _, _, hprints⟩

theorem filledPart_eq_error_iff {bindings : Bindings} {name : Line} {error : Error} :
    filledPart (inlineValue bindings) name = .error error ↔ Irreplaceable bindings name error := by
  constructor
  · intro h
    by_cases hne : name = []
    · rw [hne] at h
      cases h
    · rw [filledPart_of_ne_nil _ hne] at h
      rcases binding_cases bindings (.ofList name) with hmissing | ⟨text, hbound⟩ | ⟨action, hbound⟩
      · rw [inlineValue_of_unbound hmissing] at h
        exact Except.error.inj h ▸ .unbound hne hmissing
      · rw [inlineValue_of_text hbound] at h
        cases h
      · rw [inlineValue_of_block hbound] at h
        obtain ⟨printer, hfails⟩ := inline_block_eq_error_iff.mp h
        exact .failed hne hbound hfails
  · intro h
    cases h with
    | unbound hne hmissing => rw [filledPart_of_ne_nil _ hne, inlineValue_of_unbound hmissing]
    | failed hne hbound hfails =>
      rw [filledPart_of_ne_nil _ hne, inlineValue_of_block hbound]
      exact inline_block_eq_error_iff.mpr ⟨_, hfails⟩

/-- Texts for the parts of a line: those at even positions stand for themselves, and those at odd
    positions are replaced. -/
structure Fills (replaces : Line → String → Prop) (parts : List Line) (pieces : List String) :
    Prop where
  count : pieces.length = parts.length
  text : ∀ (i : Nat) (part : Line), i % 2 = 0 → parts[i]? = some part →
    pieces[i]? = some (.ofList part)
  name : ∀ (i : Nat) (part : Line), i % 2 = 1 → parts[i]? = some part →
    ∃ piece, pieces[i]? = some piece ∧ replaces part piece

/-- What is wrong at a position: the line ends with a name there, or the name has no replacement. -/
inductive FaultAt (irreplaceable : Line → Error → Prop) (body : Line) (parts : List Line)
    (i : Nat) : Error → Prop where
  | unterminated (last : i + 1 = parts.length) :
    FaultAt irreplaceable body parts i
      (.malformedTemplate ("unterminated placeholder in `" ++ .ofList body ++ "`"))
  | name {part : Line} {error : Error} (inner : i + 1 < parts.length) (here : parts[i]? = some part)
    (fault : irreplaceable part error) : FaultAt irreplaceable body parts i error

def FirstFault (irreplaceable : Line → Error → Prop) (body : Line) (parts : List Line)
    (error : Error) : Prop :=
  ∃ i, i % 2 = 1 ∧ FaultAt irreplaceable body parts i error ∧
    ∀ j < i, j % 2 = 1 → ∀ other, ¬ FaultAt irreplaceable body parts j other

section Positions
variable {replaces : Line → String → Prop} {irreplaceable : Line → Error → Prop}
  {body text name : Line} {rest : List Line}

theorem fills_cons_iff {pieces : List String} :
    Fills replaces (text :: name :: rest) pieces ↔
      ∃ piece others, pieces = .ofList text :: piece :: others ∧ replaces name piece ∧
        Fills replaces rest others := by
  constructor
  · rintro ⟨hcount, htext, hname⟩
    match pieces, hcount with
    | first :: piece :: others, hcount =>
      obtain rfl : first = .ofList text := by simpa using htext 0 text rfl rfl
      obtain ⟨found, hfound, hreplaces⟩ := hname 1 name rfl rfl
      obtain rfl : piece = found := by simpa using hfound
      refine ⟨piece, others, rfl, hreplaces, by simpa using hcount, ?_, ?_⟩
      · intro i part hi hpart
        exact htext (i + 2) part (by omega) hpart
      · intro i part hi hpart
        exact hname (i + 2) part (by omega) hpart
  · rintro ⟨piece, others, rfl, hreplaces, hcount, htext, hname⟩
    refine ⟨by simp [hcount], ?_, ?_⟩
    · intro i part hi hpart
      match i with
      | 0 =>
        obtain rfl : text = part := by simpa using hpart
        rfl
      | 1 => omega
      | i + 2 => exact htext i part (by omega) hpart
    · intro i part hi hpart
      match i with
      | 0 => omega
      | 1 =>
        obtain rfl : name = part := by simpa using hpart
        exact ⟨piece, rfl, hreplaces⟩
      | i + 2 => exact hname i part (by omega) hpart

theorem fills_singleton_iff {pieces : List String} :
    Fills replaces [text] pieces ↔ pieces = [.ofList text] := by
  constructor
  · rintro ⟨hcount, htext, -⟩
    obtain ⟨piece, rfl⟩ := List.length_eq_one_iff.mp hcount
    simpa using htext 0 text rfl rfl
  · rintro rfl
    refine ⟨rfl, ?_, ?_⟩
    · intro i part hi hpart
      obtain ⟨rfl, rfl⟩ : i = 0 ∧ text = part := by simpa [List.getElem?_singleton] using hpart
      rfl
    · intro i part hi hpart
      obtain ⟨rfl, -⟩ : i = 0 ∧ text = part := by simpa [List.getElem?_singleton] using hpart
      omega

theorem FaultAt.lt {parts : List Line} {i : Nat} {error : Error}
    (h : FaultAt irreplaceable body parts i error) : i < parts.length := by
  cases h with
  | unterminated last => omega
  | name inner here fault => omega

theorem faultAt_one_iff {error : Error} (hrest : rest ≠ []) :
    FaultAt irreplaceable body (text :: name :: rest) 1 error ↔ irreplaceable name error := by
  have hinner : 1 + 1 < (text :: name :: rest).length := by
    simpa using List.length_pos_of_ne_nil hrest
  constructor
  · intro h
    cases h with
    | unterminated last => omega
    | name inner here fault => exact Option.some.inj here ▸ fault
  · exact .name hinner rfl

theorem faultAt_add_two_iff {error : Error} {i : Nat} :
    FaultAt irreplaceable body (text :: name :: rest) (i + 2) error ↔
      FaultAt irreplaceable body rest i error := by
  have hlength : (text :: name :: rest).length = rest.length + 2 := rfl
  constructor
  · intro h
    cases h with
    | unterminated last => exact .unterminated (by omega)
    | name inner here fault => exact .name (by omega) here fault
  · intro h
    cases h with
    | unterminated last => exact .unterminated (by omega)
    | name inner here fault => exact .name (by omega) here fault

theorem firstFault_cons_of_fault {error found : Error} (hrest : rest ≠ [])
    (hname : irreplaceable name found) :
    FirstFault irreplaceable body (text :: name :: rest) error ↔ irreplaceable name error := by
  constructor
  · rintro ⟨i, hi, hfault, hfirst⟩
    match i with
    | 0 => omega
    | 1 => exact (faultAt_one_iff hrest).mp hfault
    | i + 2 => exact absurd ((faultAt_one_iff hrest).mpr hname) (hfirst 1 (by omega) rfl found)
  · intro h
    exact ⟨1, rfl, (faultAt_one_iff hrest).mpr h, fun j hj hodd => by omega⟩

theorem firstFault_cons_of_no_fault {error : Error} (hrest : rest ≠ [])
    (hname : ∀ found, ¬ irreplaceable name found) :
    FirstFault irreplaceable body (text :: name :: rest) error ↔
      FirstFault irreplaceable body rest error := by
  constructor
  · rintro ⟨i, hi, hfault, hfirst⟩
    match i with
    | 0 => omega
    | 1 => exact absurd ((faultAt_one_iff hrest).mp hfault) (hname error)
    | i + 2 =>
      refine ⟨i, by omega, faultAt_add_two_iff.mp hfault, fun j hj hodd other hother => ?_⟩
      exact hfirst (j + 2) (by omega) (by omega) other (faultAt_add_two_iff.mpr hother)
  · rintro ⟨i, hi, hfault, hfirst⟩
    refine ⟨i + 2, by omega, faultAt_add_two_iff.mpr hfault, fun j hj hodd other hother => ?_⟩
    match j with
    | 0 => omega
    | 1 => exact hname other ((faultAt_one_iff hrest).mp hother)
    | j + 2 => exact hfirst j (by omega) (by omega) other (faultAt_add_two_iff.mp hother)

end Positions

theorem fillPieces_cons_of_ok {value : String → Except Error String} {name : Line} {piece : String}
    (h : filledPart value name = .ok piece) (body text : Line) {rest : List Line}
    (hrest : rest ≠ []) :
    fillPieces value body (text :: name :: rest) =
      (fillPieces value body rest).map (.ofList text ++ piece ++ ·) := by
  rw [fillPieces_cons value body text name hrest, h]
  cases fillPieces value body rest <;> rfl

theorem fillPieces_cons_of_error {value : String → Except Error String} {name : Line}
    {error : Error} (h : filledPart value name = .error error) (body text : Line) {rest : List Line}
    (hrest : rest ≠ []) :
    fillPieces value body (text :: name :: rest) = .error error := by
  rw [fillPieces_cons value body text name hrest, h]
  rfl

-- The induction follows the recursion of `fillPieces`, which takes two parts at a time, so that a
-- position of the rest is two less than in the whole and has the same parity.
theorem fillPieces_eq_ok_iff {value : String → Except Error String} {body : Line}
    {parts : List Line} {filled : String} (hparts : parts ≠ []) :
    fillPieces value body parts = .ok filled ↔ parts.length % 2 = 1 ∧
      ∃ pieces, Fills (fun part piece => filledPart value part = .ok piece) parts pieces ∧
        filled = String.join pieces := by
  induction parts using arePlain.induct generalizing filled with
  | case1 => exact absurd rfl hparts
  | case2 text =>
    simp only [fills_singleton_iff, exists_eq_left]
    simp [fillPieces, eq_comm]
  | case3 text name => exact iff_of_false (by simp [fillPieces]) (by simp)
  | case4 text name rest hrest ih =>
    have hparity : (text :: name :: rest).length % 2 = rest.length % 2 :=
      Nat.add_mod_right rest.length 2
    simp only [hparity, fills_cons_iff]
    cases hname : filledPart value name with
    | error error =>
      rw [fillPieces_cons_of_error hname body text hrest]
      exact iff_of_false (by simp) (by simp)
    | ok piece =>
      rw [fillPieces_cons_of_ok hname body text hrest, map_eq_ok_iff]
      constructor
      · rintro ⟨remaining, hremaining, rfl⟩
        obtain ⟨hodd, others, hothers, rfl⟩ := (ih hrest).mp hremaining
        refine ⟨hodd, _, ⟨piece, others, rfl, rfl, hothers⟩, ?_⟩
        rw [String.join_cons, String.join_cons, String.append_assoc]
      · rintro ⟨hodd, pieces, ⟨found, others, rfl, hfound, hothers⟩, rfl⟩
        obtain rfl := Except.ok.inj hfound
        refine ⟨String.join others, (ih hrest).mpr ⟨hodd, others, hothers, rfl⟩, ?_⟩
        rw [String.join_cons, String.join_cons, String.append_assoc]

theorem fillPieces_eq_error_iff {value : String → Except Error String} {body : Line}
    {parts : List Line} {error : Error} (hparts : parts ≠ []) :
    fillPieces value body parts = .error error ↔
      FirstFault (fun part error => filledPart value part = .error error) body parts error := by
  induction parts using arePlain.induct with
  | case1 => exact absurd rfl hparts
  | case2 text =>
    refine iff_of_false (by simp [fillPieces]) ?_
    rintro ⟨i, hi, hfault, -⟩
    have hlt : i < 1 := hfault.lt
    omega
  | case3 text name =>
    constructor
    · intro h
      obtain rfl := Except.error.inj h
      exact ⟨1, rfl, .unterminated rfl, fun j hj hodd => by omega⟩
    · rintro ⟨i, hi, hfault, -⟩
      have hlt : i < 2 := hfault.lt
      cases hfault with
      | unterminated last => rfl
      | name inner here fault =>
        have hinner : i + 1 < 2 := inner
        omega
  | case4 text name rest hrest ih =>
    cases hname : filledPart value name with
    | error found =>
      rw [fillPieces_cons_of_error hname body text hrest, firstFault_cons_of_fault hrest hname,
        hname]
    | ok piece =>
      rw [fillPieces_cons_of_ok hname body text hrest, map_eq_error_iff, ih hrest,
        firstFault_cons_of_no_fault hrest (by simp [hname])]

theorem exists_replaces_iff {bindings : Bindings} {name : Line} :
    (∃ piece, Replaces bindings name piece) ↔ (name ≠ [] →
      (∃ content, BindsFirst bindings (.ofList name) (.text content)) ∨
        ∃ action printer, BindsFirst bindings (.ofList name) (.block action) ∧
          action {} = (.ok (), printer)) := by
  constructor
  · rintro ⟨piece, h⟩ hne
    cases h with
    | dollar => exact absurd rfl hne
    | text _ hbound => exact .inl ⟨piece, hbound⟩
    | block _ hbound hprints _ => exact .inr ⟨_, _, hbound, hprints⟩
  · intro h
    by_cases hne : name = []
    · exact ⟨"$", hne ▸ .dollar⟩
    · rcases h hne with ⟨content, hbound⟩ | ⟨action, printer, hbound, hrun⟩
      · exact ⟨content, .text hne hbound⟩
      · cases hinline : (Value.block action).inline with
        | error error =>
          obtain ⟨other, hother⟩ := inline_block_eq_error_iff.mp hinline
          cases hrun.symm.trans hother
        | ok content =>
          obtain ⟨hclosed, breaks, indent, hprints⟩ := inline_block_eq_ok_iff.mp hinline
          exact ⟨content, .block hne hbound hprints hclosed⟩

theorem exists_fills_iff {replaces : Line → String → Prop} {parts : List Line} :
    (∃ pieces, Fills replaces parts pieces) ↔ ∀ (i : Nat) (part : Line), i % 2 = 1 →
      parts[i]? = some part → ∃ piece, replaces part piece := by
  constructor
  · rintro ⟨pieces, h⟩ i part hi hpart
    obtain ⟨piece, -, hpiece⟩ := h.name i part hi hpart
    exact ⟨piece, hpiece⟩
  · intro h
    classical
    let pick : Line → String := fun part =>
      if hpart : ∃ piece, replaces part piece then hpart.choose else ""
    refine ⟨parts.zipIdx.map fun (part, i) => if i % 2 = 0 then .ofList part else pick part,
      by simp, fun i part hi hpart => ?_, fun i part hi hpart => ⟨pick part, ?_, ?_⟩⟩
    · simp [hpart, hi]
    · simp [hpart, hi]
    · have hexists := h i part hi hpart
      simp only [pick, dif_pos hexists]
      exact hexists.choose_spec

/-- Filling a line replaces each name between its dollar signs once, and copies everything else. The
    first name for which that is not possible decides how it fails. -/
theorem substitute_exact (bindings : Bindings) {body : Line} {parts : List Line}
    (hparts : IsSplit '$' body parts) :
    ((∃ filled, substitute bindings body = .ok filled) ↔ parts.length % 2 = 1 ∧
      ∀ (i : Nat) (name : Line), i % 2 = 1 → parts[i]? = some name → name ≠ [] →
        (∃ content, BindsFirst bindings (.ofList name) (.text content)) ∨
          ∃ action printer, BindsFirst bindings (.ofList name) (.block action) ∧
            action {} = (.ok (), printer)) ∧
    (∀ filled, substitute bindings body = .ok filled ↔ parts.length % 2 = 1 ∧
      ∃ pieces, Fills (Replaces bindings) parts pieces ∧ filled = String.join pieces) ∧
    (∀ error, substitute bindings body = .error error ↔
      FirstFault (Irreplaceable bindings) body parts error) := by
  have hsplit : substitute bindings body = fillPieces (inlineValue bindings) body parts := by
    rw [substitute, fill, isSplit_iff.mp hparts]
  have hok : ∀ filled, substitute bindings body = .ok filled ↔ parts.length % 2 = 1 ∧
      ∃ pieces, Fills (Replaces bindings) parts pieces ∧ filled = String.join pieces := by
    intro filled
    rw [hsplit, fillPieces_eq_ok_iff hparts.nonempty]
    simp only [filledPart_eq_ok_iff]
  refine ⟨?_, hok, fun error => ?_⟩
  · simp only [hok, exists_and_left]
    refine and_congr_right fun _ => ?_
    rw [exists_comm]
    simp only [exists_and_left, exists_eq, and_true, exists_fills_iff, exists_replaces_iff]
  · rw [hsplit, fillPieces_eq_error_iff hparts.nonempty]
    simp only [filledPart_eq_error_iff]

/-- A doubled dollar sign, a text with dollar signs of its own and a block, in one line. -/
theorem substitute_exact_nested :
    let bindings : Bindings :=
      [("x", .text "$y$"), ("f", .block (printLine 4 "ok")), ("x", .text "no"), ("y", .text "no")]
    IsSplit '$' "a$$b$x$c$f$".toList [['a'], [], ['b'], ['x'], ['c'], ['f'], []] ∧
      substitute bindings "a$$b$x$c$f$".toList = .ok "a$b$y$c    ok" := by
  intro bindings
  have hsplit : IsSplit '$' "a$$b$x$c$f$".toList [['a'], [], ['b'], ['x'], ['c'], ['f'], []] :=
    isSplit_iff.mpr (by decide)
  refine ⟨hsplit, ((substitute_exact bindings hsplit).2.1 _).mpr
    ⟨rfl, ["a", "$", "b", "$y$", "c", "    ok", ""], ?_, by decide⟩⟩
  have hx : Replaces bindings ['x'] "$y$" := .text (by simp) ⟨[], _, rfl, by simp⟩
  have hprints : printLine 4 "ok" {} =
      (.ok (), ⟨"    ok" ++ .ofList (List.replicate 1 '\n'), 0⟩) := rfl
  have hf : Replaces bindings ['f'] "    ok" :=
    .block (by simp) ⟨[("x", .text "$y$")], _, rfl, by simp⟩ hprints (by decide)
  refine fills_cons_iff.mpr ⟨_, _, rfl, .dollar, fills_cons_iff.mpr ⟨_, _, rfl, hx, ?_⟩⟩
  exact fills_cons_iff.mpr ⟨_, _, rfl, hf, fills_singleton_iff.mpr rfl⟩

end GrpcStubs.Template
