import GrpcStubs.Descriptor.Index
import GrpcStubs.Proofs.Nesting

set_option autoImplicit false

namespace GrpcStubs

namespace Descriptor

/-- Messages with these names, each nested in the one before, are at these positions. -/
inductive Nests : List Message → List Nat → List String → Prop where
  | outermost {messages nested : List Message} {position : Nat} {name : String}
    (found : messages[position]? = some (.mk name nested)) : Nests messages [position] [name]
  | nested {messages nested : List Message} {position : Nat} {name : String} {below : List Nat}
    {names : List String} (found : messages[position]? = some (.mk name nested))
    (inside : Nests nested below names) : Nests messages (position :: below) (name :: names)

/-- The order of places: siblings in their order, and what is nested before what holds it. -/
inductive Before : List Nat → List Nat → Prop where
  | inside (position : Nat) (below : List Nat) : Before (position :: below) []
  | earlier {position next : Nat} (h : position < next) (below other : List Nat) :
    Before (position :: below) (next :: other)
  | same (position : Nat) {below other : List Nat} (h : Before below other) :
    Before (position :: below) (position :: other)

theorem Before.asymm {place other : List Nat} (h : Before place other) : ¬ Before other place := by
  induction h with
  | inside position below => intro hback; cases hback
  | earlier h below other =>
    intro hback
    cases hback with
    | earlier hlt => omega
    | same => omega
  | same position h ih =>
    intro hback
    cases hback with
    | earlier hlt => omega
    | same _ hback => exact ih hback

/-- A message of described files with the messages around it. -/
structure Chain where
  file : File
  place : List Nat
  names : List String

namespace Chain

def In (files : List File) (chain : Chain) : Prop :=
  ∃ position below, chain.place = position :: below ∧ files[position]? = some chain.file ∧
    Nests chain.file.messages below chain.names

def qualifiedName (chain : Chain) : String :=
  (if chain.file.package = "" then "" else "." ++ chain.file.package) ++
    String.join (chain.names.map ("." ++ ·))

def levels (chain : Chain) : List (String × String) :=
  chain.names.map fun name => (name, chain.file.name)

/-- The chain has the name, and all others that have it come before. -/
structure IsLast (files : List File) (name : String) (chain : Chain) : Prop where
  isIn : chain.In files
  hasName : chain.qualifiedName = name
  last : ∀ other : Chain, other.In files → other.qualifiedName = name →
    other = chain ∨ Before other.place chain.place

end Chain

/-- What an index of files finds. -/
structure Index.Faithful (files : List File) (index : Index) : Prop where
  finds_iff : ∀ typeName message, typeName.toList.head? = some '.' →
    (index.find? typeName = some message ↔
      ∃ chain : Chain, chain.IsLast files typeName ∧ message.levels = chain.levels)
  complete : ∀ chain : Chain, chain.In files →
    ∃ message, index.find? chain.qualifiedName = some message
  own : (∀ chain other : Chain, chain.In files → other.In files →
      chain.qualifiedName = other.qualifiedName → chain = other) →
    ∀ chain : Chain, chain.In files →
      ∃ message, index.find? chain.qualifiedName = some message ∧ message.levels = chain.levels
  undotted : ∀ typeName : String, typeName.toList.head? ≠ some '.' →
    index.find? typeName = index.find? ("." ++ typeName)

/-- The message that names lead to from `parent`, each declared in the one before. -/
def Index.reached (file : String) (parent : Option GrpcStubs.Message) (names : List String) :
    Option GrpcStubs.Message :=
  names.foldl (fun parent name => some (declared file parent name)) parent

theorem Index.levels_declared {file : String} {parent : Option GrpcStubs.Message}
    {names : List String} (h : parent.elim [] Message.levels = names.map fun name => (name, file))
    (name : String) :
    (declared file parent name).levels = (names ++ [name]).map fun name => (name, file) := by
  cases parent with
  | none =>
    obtain rfl := List.map_eq_nil_iff.mp h.symm
    rfl
  | some parent =>
    -- the file is taken over from the parent, which is the last of its own levels
    have hfile : parent.file = file := by
      have hmem : (parent.name, parent.file) ∈ parent.levels := parent.mem_levels
      rw [show parent.levels = _ from h, List.mem_map] at hmem
      obtain ⟨other, -, heq⟩ := hmem
      exact (Prod.mk.inj heq).2.symm
    rw [List.map_append, ← h, declared, Message.inside, hfile]
    rfl

theorem Index.levels_reached {file : String} {parent : Option GrpcStubs.Message}
    {names : List String} (h : parent.elim [] Message.levels = names.map fun name => (name, file))
    (below : List String) :
    (reached file parent below).elim [] Message.levels =
      (names ++ below).map fun name => (name, file) := by
  induction below generalizing parent names with
  | nil => rwa [List.append_nil]
  | cons name below ih =>
    rw [List.append_cons]
    exact ih (levels_declared h name)

/-- A place below a message or a list of messages, with the names on the way to it. -/
structure Spot where
  place : List Nat
  around : List String
  name : String

namespace Spot

def names (spot : Spot) : List String :=
  spot.around ++ [spot.name]

def within (outer : String) (spot : Spot) : Spot :=
  { spot with around := outer :: spot.around }

def atPosition (position : Nat) (spot : Spot) : Spot :=
  { spot with place := position :: spot.place }

def entry (file scope : String) (parent : Option GrpcStubs.Message) (spot : Spot) :
    String × GrpcStubs.Message :=
  (scope ++ String.join (spot.names.map ("." ++ ·)),
    Index.declared file (Index.reached file parent spot.around) spot.name)

end Spot

mutual

def Message.spots : Message → List Spot
  | .mk name nested => (Message.allSpots 0 nested).map (Spot.within name) ++ [⟨[], [], name⟩]

def Message.allSpots (start : Nat) : List Message → List Spot
  | [] => []
  | message :: messages =>
    message.spots.map (Spot.atPosition start) ++ Message.allSpots (start + 1) messages

end

theorem Spot.entry_within (file scope outer : String) (parent : Option GrpcStubs.Message)
    (spot : Spot) :
    (spot.within outer).entry file scope parent =
      spot.entry file (scope ++ "." ++ outer) (some (Index.declared file parent outer)) := by
  simp only [Spot.entry, Spot.within, Spot.names, List.cons_append, List.map_cons, String.join_cons,
    String.append_assoc, Index.reached, List.foldl_cons]

mutual

/-- Inserting a message puts the entries of its spots before the others, the last one first. -/
theorem Index.insert_entries (file scope : String) (parent : Option GrpcStubs.Message)
    (index : Index) : (message : Message) →
    (index.insert file scope parent message).entries =
      (message.spots.map (Spot.entry file scope parent)).reverse ++ index.entries
  | .mk name nested => by
    rw [insert, record, insertAll_entries file _ _ index 0 nested, Message.spots, List.map_append,
      List.map_map, List.reverse_append]
    have hwithin : Spot.entry file scope parent ∘ Spot.within name =
        Spot.entry file (scope ++ "." ++ name) (some (declared file parent name)) :=
      funext fun spot => spot.entry_within file scope name parent
    rw [hwithin]
    simp [Spot.entry, Spot.names, reached, String.append_assoc]

theorem Index.insertAll_entries (file scope : String) (parent : Option GrpcStubs.Message)
    (index : Index) (start : Nat) : (messages : List Message) →
    (index.insertAll file scope parent messages).entries =
      ((Message.allSpots start messages).map (Spot.entry file scope parent)).reverse ++ index.entries
  | [] => by rw [insertAll, Message.allSpots, List.map_nil, List.reverse_nil, List.nil_append]
  | message :: messages => by
    rw [insertAll, insertAll_entries file scope parent _ (start + 1) messages,
      insert_entries file scope parent index message, Message.allSpots, List.map_append, List.map_map,
      List.reverse_append, List.append_assoc]
    rfl

end

theorem nests_cons_zero {name : String} {nested messages : List Message} {below : List Nat}
    {names : List String} : Nests (.mk name nested :: messages) (0 :: below) names ↔
      below = [] ∧ names = [name] ∨ ∃ rest, names = name :: rest ∧ Nests nested below rest := by
  constructor
  · intro h
    cases h with
    | outermost found =>
      cases found
      exact .inl ⟨rfl, rfl⟩
    | nested found inside =>
      cases found
      exact .inr ⟨_, rfl, inside⟩
  · rintro (⟨rfl, rfl⟩ | ⟨rest, rfl, inside⟩)
    · exact .outermost rfl
    · exact .nested rfl inside

theorem nests_cons_succ {message : Message} {messages : List Message} {position : Nat}
    {below : List Nat} {names : List String} :
    Nests (message :: messages) ((position + 1) :: below) names ↔
      Nests messages (position :: below) names := by
  constructor
  · intro h
    cases h with
    | outermost found => exact .outermost found
    | nested found inside => exact .nested found inside
  · intro h
    cases h with
    | outermost found => exact .outermost found
    | nested found inside => exact .nested found inside

theorem Nests.ne_nil {messages : List Message} {place : List Nat} {names : List String}
    (h : Nests messages place names) : place ≠ [] ∧ names ≠ [] := by
  cases h with
  | outermost found => exact ⟨List.cons_ne_nil _ _, List.cons_ne_nil _ _⟩
  | nested found inside => exact ⟨List.cons_ne_nil _ _, List.cons_ne_nil _ _⟩

theorem Nests.messages_ne_nil {messages : List Message} {place : List Nat} {names : List String}
    (h : Nests messages place names) : messages ≠ [] := by
  rintro rfl
  cases h with
  | outermost found => cases found
  | nested found inside => cases found

mutual

theorem Message.mem_spots (spot : Spot) : (message : Message) → (messages : List Message) →
    (spot ∈ message.spots ↔ Nests (message :: messages) (0 :: spot.place) spot.names)
  | .mk name nested, messages => by
    rw [Message.spots, nests_cons_zero, List.mem_append, List.mem_map, List.mem_singleton, or_comm]
    refine or_congr ?_ ?_
    · obtain ⟨place, around, own⟩ := spot
      simp [Spot.names, List.append_eq_singleton_iff]
    · constructor
      · rintro ⟨inner, hinner, rfl⟩
        obtain ⟨position, below, hplace, hnests⟩ := (Message.mem_allSpots inner 0 nested).mp hinner
        exact ⟨inner.names, rfl, by rw [Spot.within, hplace, Nat.zero_add]; exact hnests⟩
      · rintro ⟨rest, hnames, hnests⟩
        obtain ⟨place, around, own⟩ := spot
        cases around with
        | nil =>
          obtain ⟨-, rfl⟩ := List.cons.inj hnames
          exact absurd rfl hnests.ne_nil.2
        | cons outer around =>
          obtain ⟨rfl, rfl⟩ := List.cons.inj hnames
          refine ⟨⟨place, around, own⟩, (Message.mem_allSpots _ 0 nested).mpr ?_, rfl⟩
          cases place with
          | nil => exact absurd rfl hnests.ne_nil.1
          | cons position below => exact ⟨position, below, by rw [Nat.zero_add], hnests⟩

theorem Message.mem_allSpots (spot : Spot) (start : Nat) : (messages : List Message) →
    (spot ∈ Message.allSpots start messages ↔ ∃ position below,
      spot.place = (start + position) :: below ∧ Nests messages (position :: below) spot.names)
  | [] => by
    rw [Message.allSpots]
    refine iff_of_false List.not_mem_nil ?_
    rintro ⟨position, below, -, hnests⟩
    exact hnests.messages_ne_nil rfl
  | message :: messages => by
    rw [Message.allSpots, List.mem_append, List.mem_map, Message.mem_allSpots spot (start + 1) messages]
    constructor
    · rintro (⟨inner, hinner, rfl⟩ | ⟨position, below, hplace, hnests⟩)
      · exact ⟨0, inner.place, rfl, (Message.mem_spots inner message messages).mp hinner⟩
      · refine ⟨position + 1, below, ?_, nests_cons_succ.mpr hnests⟩
        rw [hplace, Nat.add_assoc, Nat.add_comm 1]
    · rintro ⟨position, below, hplace, hnests⟩
      obtain ⟨place, around, own⟩ := spot
      cases position with
      | zero =>
        obtain rfl : place = start :: below := hplace
        exact .inl ⟨⟨below, around, own⟩, (Message.mem_spots _ message messages).mpr hnests, rfl⟩
      | succ position =>
        refine .inr ⟨position, below, ?_, nests_cons_succ.mp hnests⟩
        rw [hplace, Nat.add_assoc, Nat.add_comm 1]

end

theorem Message.place_of_mem_allSpots {spot : Spot} {start : Nat} {messages : List Message}
    (h : spot ∈ Message.allSpots start messages) :
    ∃ position below, start ≤ position ∧ spot.place = position :: below := by
  obtain ⟨position, below, hplace, -⟩ := (Message.mem_allSpots spot start messages).mp h
  exact ⟨start + position, below, Nat.le_add_right start position, hplace⟩

mutual

theorem Message.pairwise_spots : (message : Message) →
    message.spots.Pairwise fun spot other => Before spot.place other.place
  | .mk name nested => by
    rw [Message.spots, List.pairwise_append, List.pairwise_map]
    refine ⟨Message.pairwise_allSpots 0 nested, List.pairwise_singleton _ _, ?_⟩
    -- The message itself stands last and has the empty place, which all others are inside of.
    intro spot hspot own hown
    obtain ⟨inner, hinner, rfl⟩ := List.mem_map.mp hspot
    obtain ⟨position, below, -, hplace⟩ := Message.place_of_mem_allSpots hinner
    obtain rfl := List.mem_singleton.mp hown
    rw [Spot.within, hplace]
    exact .inside position below

theorem Message.pairwise_allSpots (start : Nat) : (messages : List Message) →
    (Message.allSpots start messages).Pairwise fun spot other => Before spot.place other.place
  | [] => by
    rw [Message.allSpots]
    exact List.Pairwise.nil
  | message :: messages => by
    rw [Message.allSpots, List.pairwise_append, List.pairwise_map]
    refine ⟨(Message.pairwise_spots message).imp fun h => .same start h,
      Message.pairwise_allSpots (start + 1) messages, ?_⟩
    intro spot hspot other hother
    obtain ⟨inner, -, rfl⟩ := List.mem_map.mp hspot
    obtain ⟨position, below, hle, hplace⟩ := Message.place_of_mem_allSpots hother
    rw [Spot.atPosition, hplace]
    exact .earlier hle inner.place below

end

def File.chains (file : File) (position : Nat) : List Chain :=
  (Message.allSpots 0 file.messages).map fun spot => ⟨file, position :: spot.place, spot.names⟩

def chainsOf (files : List File) : List Chain :=
  files.zipIdx.flatMap fun (file, position) => file.chains position

theorem mem_chainsOf {files : List File} {chain : Chain} : chain ∈ chainsOf files ↔ chain.In files := by
  rw [chainsOf, List.mem_flatMap]
  constructor
  · rintro ⟨⟨file, position⟩, hfile, hchain⟩
    obtain ⟨spot, hspot, rfl⟩ := List.mem_map.mp hchain
    obtain ⟨first, below, hplace, hnests⟩ := (Message.mem_allSpots spot 0 file.messages).mp hspot
    refine ⟨position, spot.place, rfl, List.mem_zipIdx_iff_getElem?.mp hfile, ?_⟩
    rw [hplace, Nat.zero_add]
    exact hnests
  · rintro ⟨position, below, hplace, hfile, hnests⟩
    obtain ⟨file, place, names⟩ := chain
    obtain rfl : place = position :: below := hplace
    refine ⟨(file, position), List.mem_zipIdx_iff_getElem?.mpr hfile, List.mem_map.mpr ?_⟩
    obtain ⟨around, name, rfl⟩ : ∃ around name, names = around ++ [name] :=
      ⟨_, _, (List.dropLast_concat_getLast hnests.ne_nil.2).symm⟩
    refine ⟨⟨below, around, name⟩, (Message.mem_allSpots _ 0 file.messages).mpr ?_, rfl⟩
    cases below with
    | nil => exact absurd rfl hnests.ne_nil.1
    | cons first below => exact ⟨first, below, by rw [Nat.zero_add], hnests⟩

theorem pairwise_chainsOf (files : List File) :
    (chainsOf files).Pairwise fun chain other => Before chain.place other.place := by
  rw [chainsOf, List.pairwise_flatMap]
  refine ⟨fun entry _ => ?_, ?_⟩
  · exact List.pairwise_map.mpr ((Message.pairwise_allSpots 0 _).imp fun h => .same entry.2 h)
  · have hpositions : files.zipIdx.Pairwise fun entry other => entry.2 < other.2 := by
      rw [← List.pairwise_map (f := Prod.snd), List.zipIdx_map_snd]
      exact List.pairwise_lt_range'
    refine hpositions.imp ?_
    intro entry other hlt chain hchain next hnext
    obtain ⟨spot, -, rfl⟩ := List.mem_map.mp hchain
    obtain ⟨spot', -, rfl⟩ := List.mem_map.mp hnext
    exact .earlier hlt _ _

def Chain.message (chain : Chain) : GrpcStubs.Message :=
  Index.declared chain.file.name (Index.reached chain.file.name none chain.names.dropLast)
    (chain.names.getLastD "")

def Chain.entry (chain : Chain) : String × GrpcStubs.Message :=
  (chain.qualifiedName, chain.message)

theorem Chain.levels_message {chain : Chain} (h : chain.names ≠ []) :
    chain.message.levels = chain.levels := by
  obtain ⟨around, name, hnames⟩ : ∃ around name, chain.names = around ++ [name] :=
    ⟨_, _, (List.dropLast_concat_getLast h).symm⟩
  have htop : Option.elim none [] Message.levels =
      ([] : List String).map fun name => (name, chain.file.name) := rfl
  rw [Chain.message, Chain.levels, hnames, List.dropLast_concat, List.getLastD_concat]
  exact Index.levels_declared (Index.levels_reached htop around) name

theorem File.scope_eq (file : File) :
    file.scope = if file.package = "" then "" else "." ++ file.package := by
  simp only [File.scope, String.isEmpty_iff]

theorem File.entries_insertAll (file : File) (position : Nat) (index : Index) :
    (index.insertAll file.name file.scope none file.messages).entries =
      ((file.chains position).map Chain.entry).reverse ++ index.entries := by
  rw [Index.insertAll_entries file.name file.scope none index 0, File.chains, List.map_map]
  congr 2
  refine List.map_congr_left fun spot _ => ?_
  simp [Spot.entry, Chain.entry, Chain.qualifiedName, Chain.message, Spot.names, file.scope_eq]

theorem Index.ofFiles_entries (files : List File) :
    (ofFiles files).entries = ((chainsOf files).map Chain.entry).reverse := by
  have hfold : ∀ (start : Nat) (index : Index),
      (files.foldl (fun index file =>
        index.insertAll file.name file.scope none file.messages) index).entries =
        (((files.zipIdx start).flatMap fun entry => entry.1.chains entry.2).map Chain.entry).reverse ++
          index.entries := by
    induction files with
    | nil => exact fun _ _ => rfl
    | cons file files ih =>
      intro start index
      rw [List.foldl_cons, ih (start + 1), file.entries_insertAll start index, List.zipIdx_cons,
        List.flatMap_cons, List.map_append, List.reverse_append, List.append_assoc]
  rw [ofFiles, hfold 0, List.append_nil]
  rfl

theorem Chain.isLast_iff {files : List File} {name : String} {chain : Chain} :
    chain.IsLast files name ↔ ∃ front back, chainsOf files = front ++ chain :: back ∧
      chain.qualifiedName = name ∧ ∀ other ∈ back, other.qualifiedName ≠ name := by
  have hordered := pairwise_chainsOf files
  constructor
  · rintro ⟨isIn, hasName, last⟩
    obtain ⟨front, back, hsplit⟩ := List.append_of_mem (mem_chainsOf.mpr isIn)
    refine ⟨front, back, hsplit, hasName, fun other hother hname => ?_⟩
    rw [hsplit, List.pairwise_append, List.pairwise_cons] at hordered
    have hafter : Before chain.place other.place := hordered.2.1.1 other hother
    have hmem : other ∈ chainsOf files := by
      rw [hsplit]
      exact List.mem_append_right front (List.mem_cons_of_mem chain hother)
    rcases last other (mem_chainsOf.mp hmem) hname with rfl | hbefore
    · exact hafter.asymm hafter
    · exact hafter.asymm hbefore
  · rintro ⟨front, back, hsplit, hasName, hback⟩
    refine ⟨mem_chainsOf.mp ?_, hasName, fun other hother hname => ?_⟩
    · rw [hsplit]
      exact List.mem_append_right front List.mem_cons_self
    · have hmem := mem_chainsOf.mpr hother
      rw [hsplit, List.mem_append, List.mem_cons] at hmem
      rcases hmem with hfront | rfl | hafter
      · rw [hsplit, List.pairwise_append] at hordered
        exact .inr (hordered.2.2 other hfront chain List.mem_cons_self)
      · exact .inl rfl
      · exact absurd hname (hback other hafter)

theorem Index.find?_ofFiles_eq_some_iff {files : List File} {typeName : String}
    {message : GrpcStubs.Message} :
    (ofFiles files).find? typeName = some message ↔
      ∃ chain : Chain, chain.IsLast files (qualified typeName) ∧ chain.message = message := by
  -- The entries are searched from the last one, so nothing after the one that is found has its name.
  rw [find?, ofFiles_entries, ← List.map_reverse, List.lookup_eq_some_iff]
  constructor
  · rintro ⟨after, before, hsplit, hafter⟩
    obtain ⟨back, rest, hchains, rfl, hrest⟩ := List.map_eq_append_iff.mp hsplit
    obtain ⟨chain, front, rfl, hentry, -⟩ := List.map_eq_cons_iff.mp hrest
    obtain ⟨hname, hmessage⟩ := Prod.mk.inj hentry
    refine ⟨chain, Chain.isLast_iff.mpr ⟨front.reverse, back.reverse, ?_, hname, ?_⟩, hmessage⟩
    · rw [List.reverse_eq_iff.mp hchains, List.reverse_append, List.reverse_cons, List.append_assoc,
        List.singleton_append]
    · intro other hother heq
      have hne := hafter _ (List.mem_map_of_mem (List.mem_reverse.mp hother))
      exact absurd heq.symm (by simpa [Chain.entry] using hne)
  · rintro ⟨chain, hlast, rfl⟩
    obtain ⟨front, back, hchains, hname, hback⟩ := Chain.isLast_iff.mp hlast
    refine ⟨(back.reverse).map Chain.entry, (front.reverse).map Chain.entry, ?_, ?_⟩
    · rw [hchains, List.reverse_append, List.reverse_cons, List.append_assoc, List.singleton_append,
        List.map_append, List.map_cons, Chain.entry, hname]
    · rw [List.forall_mem_map]
      intro other hother
      simpa [Chain.entry] using (hback other (List.mem_reverse.mp hother)).symm

theorem Chain.In.names_ne_nil {files : List File} {chain : Chain} (h : chain.In files) :
    chain.names ≠ [] := by
  obtain ⟨position, below, -, -, hnests⟩ := h
  exact hnests.ne_nil.2

theorem Index.qualified_of_dotted {typeName : String} (h : typeName.toList.head? = some '.') :
    qualified typeName = typeName :=
  if_pos h

theorem Chain.head?_qualifiedName {chain : Chain} (h : chain.names ≠ []) :
    chain.qualifiedName.toList.head? = some '.' := by
  cases hnames : chain.names with
  | nil => exact absurd hnames h
  | cons first rest =>
    rw [Chain.qualifiedName, hnames]
    split <;> simp

/-- An index of files finds exactly their messages, by their qualified names. -/
theorem Index.ofFiles_faithful (files : List File) : (ofFiles files).Faithful files := by
  have hlevels : ∀ {chain : Chain} {message : GrpcStubs.Message}, chain.In files →
      (chain.message = message ↔ message.levels = chain.levels) := by
    intro chain message hchain
    have hmessage := Chain.levels_message hchain.names_ne_nil
    constructor
    · rintro rfl
      exact hmessage
    · intro h
      exact Message.levels_injective (hmessage.trans h.symm)
  have hqualified : ∀ {chain : Chain}, chain.In files →
      qualified chain.qualifiedName = chain.qualifiedName := fun hchain =>
    qualified_of_dotted (Chain.head?_qualifiedName hchain.names_ne_nil)
  constructor
  case finds_iff =>
    intro typeName message hdot
    rw [find?_ofFiles_eq_some_iff, qualified_of_dotted hdot]
    exact exists_congr fun chain => and_congr_right fun hlast => hlevels hlast.isIn
  case complete =>
    intro chain hchain
    refine Option.ne_none_iff_exists'.mp fun hnone => ?_
    rw [find?, ofFiles_entries, hqualified hchain, List.lookup_eq_none_iff] at hnone
    have hne := hnone chain.entry
      (List.mem_reverse.mpr (List.mem_map_of_mem (mem_chainsOf.mpr hchain)))
    simp [Chain.entry] at hne
  case own =>
    intro hdistinct chain hchain
    refine ⟨chain.message, find?_ofFiles_eq_some_iff.mpr ⟨chain, ?_, rfl⟩, (hlevels hchain).mp rfl⟩
    rw [hqualified hchain]
    exact ⟨hchain, rfl, fun other hother hname => .inl (hdistinct other chain hother hchain hname)⟩
  case undotted =>
    intro typeName hdot
    have hprefixed : qualified ("." ++ typeName) = "." ++ typeName := qualified_of_dotted (by simp)
    rw [find?, find?, hprefixed, qualified, if_neg hdot]

-- Three messages share a name here, by nesting, by a dot in the name and by the package.
example :
    let nesting : File :=
      { name := "a.proto", package := "p", messages := [.mk "B" [.mk "C" []], .mk "B.C" []] }
    let packaged : File := { name := "b.proto", package := "p.B", messages := [.mk "C" []] }
    (Index.ofFiles [nesting]).find? ".p.B.C" = some (.outermost "B.C" "a.proto") ∧
      (Index.ofFiles [nesting, packaged]).find? "p.B.C" = some (.outermost "C" "b.proto") ∧
      (Index.ofFiles [packaged, nesting]).find? ".p.B" = some (.outermost "B" "a.proto") := by
  decide +kernel

end Descriptor

end GrpcStubs
