import GrpcStubs.Standalone
import GrpcStubs.Proofs.Answer
import GrpcStubs.Proofs.RegularFiles
import GrpcStubs.Proofs.Roots

set_option autoImplicit false

namespace GrpcStubs

theorem Options.apply_congr {texts other : Texts} {parameter : Parameter}
    (h : parameter.key = "crate_mapping" → texts parameter.value = other parameter.value)
    (options : Options) : options.apply texts parameter = options.apply other parameter := by
  unfold apply
  split
  case h_2 hkey => rw [withMappingFile, withMappingFile, CrateMap.load, CrateMap.load, h hkey]
  all_goals rfl

theorem Options.foldlM_apply_congr {texts other : Texts} {parameters : List Parameter}
    (h : ∀ parameter ∈ parameters, parameter.key = "crate_mapping" →
      texts parameter.value = other parameter.value) (options : Options) :
    parameters.foldlM (apply texts) options = parameters.foldlM (apply other) options := by
  induction parameters generalizing options with
  | nil => rfl
  | cons parameter parameters ih =>
    obtain ⟨hfirst, hrest⟩ := List.forall_mem_cons.mp h
    rw [List.foldlM_cons, List.foldlM_cons, apply_congr hfirst]
    exact bind_congr (ih hrest)

/-- Only the mapping files that a parameter string names have a say in what it means. -/
theorem Options.parse_congr {texts other : Texts} {text : String}
    (h : ∀ path ∈ mappingFiles text, texts path = other path) :
    parse texts text = parse other text := by
  unfold parse
  unfold mappingFiles at h
  cases hparse : Parameter.parseAll text with
  | error fault => rfl
  | ok parameters =>
    rw [hparse] at h
    refine foldlM_apply_congr (fun parameter hparameter hkey => ?_) {}
    exact h _ (List.mem_map_of_mem (List.mem_filter.mpr ⟨hparameter, beq_iff_eq.mpr hkey⟩))

theorem Plugin.outputs_congr {texts other : Texts} {parameter : String}
    (h : ∀ path ∈ Options.mappingFiles parameter, texts path = other path)
    (described : List Descriptor.File) (requested : List String) :
    outputs texts described requested parameter = outputs other described requested parameter := by
  rw [outputs, outputs, options, options, Options.parse_congr h]

theorem lookup_map_self {α : Type} {f : String → α} {keys : List String} {key : String}
    (h : key ∈ keys) : (keys.map fun key => (key, f key)).lookup key = some (f key) := by
  induction keys with
  | nil => exact absurd h List.not_mem_nil
  | cons first keys ih =>
    rw [List.map_cons, List.lookup_cons]
    by_cases hfirst : key = first
    · simp [hfirst]
    · have hne : (key == first) = false := by simp [hfirst]
      rw [hne]
      exact ih ((List.mem_cons.mp h).resolve_left hfirst)

theorem stateBind_eq {σ α β : Type} {x : StateM σ α} {before after : σ} {a : α} (f : α → StateM σ β)
    (h : x before = (a, after)) : (x >>= f) before = f a after := by
  change (match x before with
    | (a, after) => f a after) = _
  rw [h]

theorem Session.mappingTexts_eq (session : Session) (parameter : String) :
    ∃ texts, Session.host.mappingTexts parameter session = (texts, session) ∧
      ∀ path ∈ Options.mappingFiles parameter, texts path = session.disk.readText path := by
  let readAt : String → StateM Session (String × Except String String) := fun path => do
    return (path, Disk.textOf (← Session.host.read path))
  have hread : ∀ paths : List String, paths.mapM readAt session =
      (paths.map fun path => (path, session.disk.readText path), session) := by
    intro paths
    induction paths with
    | nil => rfl
    | cons path paths ih =>
      have hfirst : readAt path session = ((path, session.disk.readText path), session) := rfl
      rw [List.mapM_cons, stateBind_eq _ hfirst, stateBind_eq _ ih]
      rfl
  refine ⟨_, stateBind_eq _ (hread _), fun path hpath => ?_⟩
  have hfound : ((Options.mappingFiles parameter).map fun path =>
      (path, session.disk.readText path)).lookup path = some (session.disk.readText path) :=
    lookup_map_self hpath
  change Option.getD _ _ = _
  rw [hfound]
  rfl

namespace Standalone

abbrev Run := ExceptT Failure (StateM Session)

/-- The names that are asked for: those that are given, or else the files that no file of the set
    imports. -/
def requestedNames (arguments : Arguments) (files : List Descriptor.File) : List String :=
  if arguments.files = [] then
    (files.filter fun file => ∀ other ∈ files, file.name ∉ other.dependencies).map (·.name)
  else arguments.files

/-- The path of an output. A name that starts with a slash stands for itself. -/
def outputPath (outDirectory name : String) : String :=
  if name.toList.head? = some '/' ∨ outDirectory = "" then name
  else if outDirectory.toList.getLast? = some '/' then outDirectory ++ name
  else outDirectory ++ "/" ++ name

/-- The directory for a path is there already, or it is created. -/
inductive Prepared (disk : Disk) (path : String) : Disk → Prop where
  | created {directory : String} {made : Disk} (parent : Disk.parent? path = some directory)
    (done : disk.createDirectories directory = (.ok (), made)) : Prepared disk path made
  | top (parent : Disk.parent? path = none) : Prepared disk path disk

inductive Written (outDirectory : String) (disk : Disk) (file : GeneratedFile) : Disk → Prop where
  | intro {made next : Disk} (prepared : Prepared disk (outputPath outDirectory file.name) made)
    (done : made.write (outputPath outDirectory file.name) file.content.toUTF8.data.toList =
      (.ok (), next)) : Written outDirectory disk file next

/-- Outputs are saved one after the other, each on the disk that the one before left. -/
inductive Saves (outDirectory : String) : Disk → List GeneratedFile → Disk → Prop where
  | nil (disk : Disk) : Saves outDirectory disk [] disk
  | cons {disk next final : Disk} {file : GeneratedFile} {rest : List GeneratedFile}
    (first : Written outDirectory disk file next) (later : Saves outDirectory next rest final) :
    Saves outDirectory disk (file :: rest) final

/-- An output cannot be saved. Directories that were created for it stay. -/
inductive Stuck (outDirectory : String) (disk : Disk) (file : GeneratedFile) :
    Failure → Disk → Prop where
  | directory {directory : String} {fault : Disk.Fault} {final : Disk}
    (parent : Disk.parent? (outputPath outDirectory file.name) = some directory)
    (failed : disk.createDirectories directory = (.error fault, final)) :
    Stuck outDirectory disk file ⟨[.createDirectory directory], .disk fault⟩ final
  | content {made final : Disk} {fault : Disk.Fault}
    (prepared : Prepared disk (outputPath outDirectory file.name) made)
    (failed : made.write (outputPath outDirectory file.name) file.content.toUTF8.data.toList =
      (.error fault, final)) :
    Stuck outDirectory disk file ⟨[.writeFile (outputPath outDirectory file.name)], .disk fault⟩ final

/-- The files of a disk with the outputs in their places, later ones over earlier ones. -/
def filesWith (outDirectory : String) (disk : Disk) (outputs : List GeneratedFile) :
    Location → Option Bytes :=
  outputs.foldl (fun files file =>
    Function.update files (disk.target (outputPath outDirectory file.name))
      (some file.content.toUTF8.data.toList)) disk.files

/-- These files, but for one that may have been left with the start of its content. -/
def FilesUpTo (files : Location → Option Bytes) (location : Location) (content : Bytes)
    (final : Location → Option Bytes) : Prop :=
  final = files ∨ ∃ count, final = Function.update files location (some (content.take count))

def announced (outDirectory : String) (outputs : List GeneratedFile) : String :=
  String.join (outputs.map fun file => "Generated " ++ outputPath outDirectory file.name ++ "\n")

def summary (outDirectory : String) (outputs : List GeneratedFile) : String :=
  if outputs = [] then "No services found; nothing generated\n" else announced outDirectory outputs

theorem selection_eq (arguments : Arguments) (files : List Descriptor.File) :
    selection arguments.files files = requestedNames arguments files := by
  simp only [selection, requestedNames, List.isEmpty_iff, roots_eq_filter]

theorem join_eq (outDirectory name : String) :
    Disk.join outDirectory name = outputPath outDirectory name := by
  simp only [Disk.join, outputPath, Bool.or_eq_true, decide_eq_true_eq, String.isEmpty_iff]

section Sequencing

variable {α β : Type} {x : Run α} {session next : Session}

theorem bind_of_ok {a : α} (f : α → Run β) (h : x session = (.ok a, next)) :
    (x >>= f) session = f a next :=
  stateBind_eq (ExceptT.bindCont f) h

theorem bind_of_error {failure : Failure} (f : α → Run β) (h : x session = (.error failure, next)) :
    (x >>= f) session = (.error failure, next) :=
  stateBind_eq (ExceptT.bindCont f) h

theorem during_eq {task : Failure.Task} {action : StateM Session (Except Disk.Fault α)}
    {result : Except Disk.Fault α} (h : action session = (result, next)) :
    (during task action : Run α) session =
      (result.mapError fun fault => ⟨[task], .disk fault⟩, next) :=
  stateBind_eq _ h

end Sequencing

section Saving

variable {outDirectory path : String} {disk made next reached final : Disk} {file : GeneratedFile}
  {outputs before after : List GeneratedFile} {failure : Failure}

def prepare (path : String) : Run Unit :=
  match Disk.parent? path with
  | some directory =>
    during (.createDirectory directory) (Session.host.createDirectories directory)
  | none => pure ()

theorem save_eq (outDirectory : String) (file : GeneratedFile) :
    (save Session.host outDirectory file : Run Unit) = (do
      prepare (outputPath outDirectory file.name)
      during (.writeFile (outputPath outDirectory file.name))
        (Session.host.write (outputPath outDirectory file.name) file.content.toUTF8.data.toList)
      announce Session.host ("Generated " ++ outputPath outDirectory file.name)) := by
  unfold save prepare
  rw [join_eq]
  dsimp only
  cases Disk.parent? (outputPath outDirectory file.name) with
  | none => rfl
  | some directory => rfl

theorem createDirectories_eq {result : Except Disk.Fault Unit}
    (h : disk.createDirectories path = (result, next)) (printed : String) :
    (during (.createDirectory path) (Session.host.createDirectories path) : Run Unit)
      ⟨disk, printed⟩ =
      (result.mapError fun fault => ⟨[.createDirectory path], .disk fault⟩, ⟨next, printed⟩) := by
  refine during_eq ?_
  change ((disk.createDirectories path).1,
    Session.mk (disk.createDirectories path).2 printed) = _
  rw [h]

theorem write_eq {content : Bytes} {result : Except Disk.Fault Unit}
    (h : disk.write path content = (result, next)) (printed : String) :
    (during (.writeFile path) (Session.host.write path content) : Run Unit) ⟨disk, printed⟩ =
      (result.mapError fun fault => ⟨[.writeFile path], .disk fault⟩, ⟨next, printed⟩) := by
  refine during_eq ?_
  change ((disk.write path content).1, Session.mk (disk.write path content).2 printed) = _
  rw [h]

theorem prepare_of_prepared (h : Prepared disk path made) (printed : String) :
    prepare path ⟨disk, printed⟩ = (.ok (), ⟨made, printed⟩) := by
  cases h with
  | created parent done =>
    rw [prepare, parent]
    exact createDirectories_eq done printed
  | top parent =>
    rw [prepare, parent]
    rfl

theorem save_of_written (h : Written outDirectory disk file next) (printed : String) :
    (save Session.host outDirectory file : Run Unit) ⟨disk, printed⟩ =
      (.ok (), ⟨next, printed ++ announced outDirectory [file]⟩) := by
  obtain ⟨prepared, done⟩ := h
  rw [save_eq, bind_of_ok _ (prepare_of_prepared prepared printed),
    bind_of_ok _ (write_eq done printed)]
  change (Except.ok (), Session.mk next (printed ++ _)) = _
  simp [announced]

theorem save_of_stuck (stuck : Stuck outDirectory disk file failure final) (printed : String) :
    (save Session.host outDirectory file : Run Unit) ⟨disk, printed⟩ =
      (.error failure, ⟨final, printed⟩) := by
  rw [save_eq]
  cases stuck with
  | directory parent failed =>
    refine bind_of_error _ ?_
    rw [prepare, parent]
    exact createDirectories_eq failed printed
  | content prepared failed =>
    rw [bind_of_ok _ (prepare_of_prepared prepared printed)]
    exact bind_of_error _ (write_eq failed printed)

theorem Saves.append (h : Saves outDirectory disk before reached)
    (later : Saves outDirectory reached after final) :
    Saves outDirectory disk (before ++ after) final := by
  induction h with
  | nil disk => exact later
  | cons first _ ih => exact .cons first (ih later)

theorem announced_cons (outDirectory : String) (file : GeneratedFile) (rest : List GeneratedFile) :
    announced outDirectory (file :: rest) =
      announced outDirectory [file] ++ announced outDirectory rest := by
  simp [announced]

def saveAll (outDirectory : String) (outputs : List GeneratedFile) : Run Unit :=
  outputs.forM (save Session.host outDirectory)

theorem saveAll_cons_of_written (h : Written outDirectory disk file next)
    (rest : List GeneratedFile) (printed : String) :
    saveAll outDirectory (file :: rest) ⟨disk, printed⟩ =
      saveAll outDirectory rest ⟨next, printed ++ announced outDirectory [file]⟩ :=
  bind_of_ok (fun _ => saveAll outDirectory rest) (save_of_written h printed)

theorem saveAll_of_saves (h : Saves outDirectory disk outputs final) (printed : String) :
    saveAll outDirectory outputs ⟨disk, printed⟩ =
      (.ok (), ⟨final, printed ++ announced outDirectory outputs⟩) := by
  induction h generalizing printed with
  | nil disk =>
    change (Except.ok (), Session.mk disk printed) = _
    simp [announced]
  | @cons disk next final file rest first later ih =>
    rw [saveAll_cons_of_written first, ih, announced_cons outDirectory file rest,
      String.append_assoc]

theorem saveAll_of_stuck (saved : Saves outDirectory disk before reached)
    (stuck : Stuck outDirectory reached file failure final) (rest : List GeneratedFile)
    (printed : String) :
    saveAll outDirectory (before ++ file :: rest) ⟨disk, printed⟩ =
      (.error failure, ⟨final, printed ++ announced outDirectory before⟩) := by
  -- over the outputs that are saved; what was printed grows by one line at each of them
  induction saved generalizing printed with
  | nil disk =>
    have hstop : saveAll outDirectory (file :: rest) ⟨disk, printed⟩ =
        (.error failure, ⟨final, printed⟩) :=
      bind_of_error (fun _ => saveAll outDirectory rest) (save_of_stuck stuck printed)
    simpa [announced] using hstop
  | @cons disk next reached other others first later ih =>
    rw [List.cons_append, saveAll_cons_of_written first, ih stuck,
      announced_cons outDirectory other others, String.append_assoc]

theorem Prepared.sameFiles (h : Prepared disk path made) : Disk.SameFiles disk made := by
  cases h with
  | created parent done => exact Disk.createDirectories_files done
  | top parent => exact ⟨rfl, rfl⟩

theorem Prepared.oneFile {content : Bytes} (h : Prepared disk path made)
    (hnext : Disk.OneFile made path content next) : Disk.OneFile disk path content next := by
  obtain ⟨hmade, hworking⟩ := h.sameFiles
  refine ⟨?_, hnext.workingDirectory.trans hworking⟩
  rw [hnext.files, hmade, Disk.target_of_workingDirectory hworking]

theorem Written.oneFile (h : Written outDirectory disk file next) :
    Disk.OneFile disk (outputPath outDirectory file.name) file.content.toUTF8.data.toList next := by
  obtain ⟨prepared, done⟩ := h
  rcases Disk.write_cases done with ⟨-, hone⟩ | ⟨fault, herror, -⟩
  · exact prepared.oneFile hone
  · cases herror

theorem filesWith_cons
    (h : Disk.OneFile disk (outputPath outDirectory file.name) file.content.toUTF8.data.toList next)
    (rest : List GeneratedFile) :
    filesWith outDirectory disk (file :: rest) = filesWith outDirectory next rest := by
  -- a path leads to the same location on both disks, since no change moves the working directory
  have htarget : next.target = disk.target :=
    funext (Disk.target_of_workingDirectory h.workingDirectory)
  rw [filesWith, filesWith, List.foldl_cons, h.files, htarget]

theorem Saves.files_eq (h : Saves outDirectory disk outputs final) :
    final.files = filesWith outDirectory disk outputs ∧
      final.workingDirectory = disk.workingDirectory := by
  induction h with
  | nil disk => exact ⟨rfl, rfl⟩
  | @cons disk next final file rest first later ih =>
    have hone := first.oneFile
    exact ⟨ih.1.trans (filesWith_cons hone rest).symm, ih.2.trans hone.workingDirectory⟩

theorem Stuck.filesUpTo (h : Stuck outDirectory disk file failure final) :
    FilesUpTo disk.files (disk.target (outputPath outDirectory file.name))
      file.content.toUTF8.data.toList final.files := by
  cases h with
  | directory parent failed => exact .inl (Disk.createDirectories_files failed).files
  | content prepared failed =>
    rcases Disk.write_cases failed with ⟨hok, -⟩ | ⟨fault, -, hsame | ⟨count, hone⟩⟩
    · cases hok
    · exact .inl (prepared.sameFiles.trans hsame).files
    · exact .inr ⟨count, (prepared.oneFile hone).files⟩

theorem Prepared.written_or_stuck
    (h : Prepared disk (outputPath outDirectory file.name) made) :
    (∃ next, Written outDirectory disk file next) ∨
      ∃ failure final, Stuck outDirectory disk file failure final := by
  cases hwrite : made.write (outputPath outDirectory file.name) file.content.toUTF8.data.toList with
  | mk result next =>
    cases result with
    | ok _ => exact .inl ⟨next, .intro h hwrite⟩
    | error fault => exact .inr ⟨_, _, .content h hwrite⟩

theorem written_or_stuck (outDirectory : String) (disk : Disk) (file : GeneratedFile) :
    (∃ next, Written outDirectory disk file next) ∨
      ∃ failure final, Stuck outDirectory disk file failure final := by
  cases hparent : Disk.parent? (outputPath outDirectory file.name) with
  | none => exact (Prepared.top hparent).written_or_stuck
  | some directory =>
    cases hcreate : disk.createDirectories directory with
    | mk result made =>
      cases result with
      | ok _ => exact (Prepared.created hparent hcreate).written_or_stuck
      | error fault => exact .inr ⟨_, _, .directory hparent hcreate⟩

theorem saves_or_stuck (outDirectory : String) (disk : Disk) (outputs : List GeneratedFile) :
    (∃ final, Saves outDirectory disk outputs final) ∨
    ∃ before file rest reached failure final, outputs = before ++ file :: rest ∧
      Saves outDirectory disk before reached ∧ Stuck outDirectory reached file failure final := by
  induction outputs generalizing disk with
  | nil => exact .inl ⟨disk, .nil disk⟩
  | cons file rest ih =>
    rcases written_or_stuck outDirectory disk file with ⟨next, first⟩ | ⟨failure, final, stuck⟩
    · rcases ih next with
        ⟨final, later⟩ | ⟨before, other, after, reached, failure, final, rfl, saved, stuck⟩
      · exact .inl ⟨final, .cons first later⟩
      · exact .inr ⟨file :: before, other, after, reached, failure, final, rfl, .cons first saved,
          stuck⟩
    · exact .inr ⟨[], file, rest, disk, failure, final, rfl, .nil disk, stuck⟩

end Saving

def afterGenerating (arguments : Arguments) (outputs : List GeneratedFile) : Run Unit := do
  saveAll arguments.outDirectory outputs
  if outputs.isEmpty then announce Session.host nothingGenerated

/-- A run generates what its disk asks for before it changes anything. -/
theorem run_eq {arguments : Arguments} {session : Session} {content : Bytes}
    {files : List Descriptor.File} (read : session.disk.read arguments.descriptorSet = .ok content)
    (decoded : Descriptor.readSet content = some files) :
    (run Session.host arguments : Run Unit) session =
      match Plugin.outputs session.disk.readText files (requestedNames arguments files)
        arguments.parameter with
      | .ok outputs => afterGenerating arguments outputs session
      | .error failure => (.error failure, session) := by
  -- all steps up to the outputs only read, so each of them leaves the session as it is
  obtain ⟨texts, hmapping, htexts⟩ := session.mappingTexts_eq arguments.parameter
  have hread : (during (.readSet arguments.descriptorSet)
      (Session.host.read arguments.descriptorSet) : Run Bytes) session = (.ok content, session) := by
    have hcontent : Session.host.read arguments.descriptorSet session = (.ok content, session) :=
      congrArg (·, session) read
    exact during_eq hcontent
  have hdecode : (liftM (decode arguments.descriptorSet content) : Run _) session =
      (.ok files, session) := by
    rw [decode, decoded]
    rfl
  have htext : (ExceptT.lift (Session.host.mappingTexts arguments.parameter) : Run Texts) session =
      (.ok texts, session) := by
    change (Except.ok (Session.host.mappingTexts arguments.parameter session).1,
      (Session.host.mappingTexts arguments.parameter session).2) = _
    rw [hmapping]
  unfold run
  rw [bind_of_ok _ hread, bind_of_ok _ hdecode, bind_of_ok _ htext, selection_eq,
    Plugin.outputs_congr htexts]
  cases Plugin.outputs session.disk.readText files (requestedNames arguments files)
    arguments.parameter with
  | ok outputs => rfl
  | error failure => rfl

theorem afterGenerating_of_saves {arguments : Arguments} {session : Session} {final : Disk}
    {outputs : List GeneratedFile}
    (h : Saves arguments.outDirectory session.disk outputs final) :
    afterGenerating arguments outputs session =
      (.ok (), ⟨final, session.printed ++ summary arguments.outDirectory outputs⟩) := by
  rw [afterGenerating, bind_of_ok _ (saveAll_of_saves h session.printed), summary]
  cases outputs with
  | nil =>
    change (Except.ok (), Session.mk final (_ ++ (nothingGenerated ++ "\n"))) = _
    simp [announced, nothingGenerated]
  | cons file rest => rfl

theorem afterGenerating_of_stuck {arguments : Arguments} {session : Session} {reached final : Disk}
    {before rest : List GeneratedFile} {file : GeneratedFile} {failure : Failure}
    (saved : Saves arguments.outDirectory session.disk before reached)
    (stuck : Stuck arguments.outDirectory reached file failure final) :
    afterGenerating arguments (before ++ file :: rest) session =
      (.error failure, ⟨final, session.printed ++ announced arguments.outDirectory before⟩) :=
  bind_of_error _ (saveAll_of_stuck saved stuck rest session.printed)

/-- What a run has to do with the answer to the request for the same files. -/
structure Follows (arguments : Arguments) (session : Session) (files : List Descriptor.File)
    (answer : Response) : Prop where
  refused : ∀ message, answer.error = some message → ∃ failure,
    Plugin.outputs session.disk.readText files (requestedNames arguments files)
      arguments.parameter = .error failure ∧
    joined failure.chain = message ∧ run Session.host arguments session = (.error failure, session)
  completed : answer.error = none → ∀ final,
    Saves arguments.outDirectory session.disk answer.files final →
      run Session.host arguments session =
        (.ok (), ⟨final, session.printed ++ summary arguments.outDirectory answer.files⟩) ∧
      final.files = filesWith arguments.outDirectory session.disk answer.files
  stopped : answer.error = none → ∀ before file rest reached failure final,
    answer.files = before ++ file :: rest →
    Saves arguments.outDirectory session.disk before reached →
    Stuck arguments.outDirectory reached file failure final →
      run Session.host arguments session =
        (.error failure, ⟨final, session.printed ++ announced arguments.outDirectory before⟩) ∧
      FilesUpTo (filesWith arguments.outDirectory session.disk before)
        (session.disk.target (outputPath arguments.outDirectory file.name))
        file.content.toUTF8.data.toList final.files
  covered : (∃ final, Saves arguments.outDirectory session.disk answer.files final) ∨
    ∃ before file rest reached failure final, answer.files = before ++ file :: rest ∧
      Saves arguments.outDirectory session.disk before reached ∧
        Stuck arguments.outDirectory reached file failure final

/-- A run does what the request is answered with, and saves it. -/
theorem run_follows_answer {arguments : Arguments} {session : Session} {content : Bytes}
    {files : List Descriptor.File} (read : session.disk.read arguments.descriptorSet = .ok content)
    (decoded : Descriptor.readSet content = some files) :
    Follows arguments session files (Plugin.respond session.disk.readText
      ⟨requestedNames arguments files, arguments.parameter, files⟩) := by
  have hrun := run_eq read decoded
  cases houtputs : Plugin.outputs session.disk.readText files (requestedNames arguments files)
      arguments.parameter with
  | error failure =>
    rw [houtputs] at hrun
    have hanswer : Plugin.respond session.disk.readText
        ⟨requestedNames arguments files, arguments.parameter, files⟩ =
        { error := some failure.message } := Plugin.respond_of_error houtputs
    rw [hanswer]
    refine ⟨fun message hmessage => ?_, fun hnone => ?_, fun hnone => ?_, saves_or_stuck _ _ _⟩
    · have hjoined := failure.message_eq_joined.symm.trans (Option.some.inj hmessage)
      exact ⟨failure, houtputs, hjoined, hrun⟩
    · cases hnone
    · cases hnone
  | ok outputs =>
    rw [houtputs] at hrun
    have hanswer : Plugin.respond session.disk.readText
        ⟨requestedNames arguments files, arguments.parameter, files⟩ =
        { files := outputs } := Plugin.respond_of_ok houtputs
    rw [hanswer]
    refine ⟨fun message hmessage => ?_, fun _ final saved => ?_, ?_, saves_or_stuck _ _ _⟩
    · cases hmessage
    · exact ⟨hrun.trans (afterGenerating_of_saves saved), saved.files_eq.1⟩
    · rintro - before file rest reached failure final rfl saved stuck
      obtain ⟨hfiles, hworking⟩ := saved.files_eq
      have hcut := stuck.filesUpTo
      rw [hfiles, Disk.target_of_workingDirectory hworking] at hcut
      exact ⟨hrun.trans (afterGenerating_of_stuck saved stuck), hcut⟩

/-- An output is saved over a file that is there, and one in a directory that is not. If the machine
    does not let the second file be written, its directory stays. -/
theorem run_follows_answer_nested :
    let content : Bytes := [0x0a, 0x0e, 0x0a, 0x07, 0x61, 0x2e, 0x70, 0x72, 0x6f, 0x74, 0x6f, 0x32,
      0x03, 0x0a, 0x01, 0x53, 0x0a, 0x10, 0x0a, 0x09, 0x6e, 0x2f, 0x62, 0x2e, 0x70, 0x72, 0x6f,
      0x74, 0x6f, 0x32, 0x03, 0x0a, 0x01, 0x54]
    let files : List Descriptor.File := [{ name := "a.proto", services := [{ name := "S" }] },
      { name := "n/b.proto", services := [{ name := "T" }] }]
    let arguments : Arguments := ⟨"set.bin", "out", [], "build_client=false,build_server=false"⟩
    let set := ("set.bin", Disk.Entry.file content)
    let disk (last : Option Disk.Refusal) : Disk :=
      { entries := [set, ("out", .directory [("a_grpc.pb.rs", .file [0x78])])],
        refusals := [none, none, none, last] }
    let saved : Disk :=
      { entries := [("out", .directory [("n", .directory [("b_grpc.pb.rs", .file [])]),
          ("a_grpc.pb.rs", .file [])]), set] }
    let stopped : Disk :=
      { entries := [("out", .directory [("n", .directory []), ("a_grpc.pb.rs", .file [])]), set] }
    let denied : Disk.Fault := .other "Permission denied (os error 13)"
    Descriptor.readSet content = some files ∧ (∀ last, (disk last).read "set.bin" = .ok content) ∧
    run Session.host arguments ⟨disk none, ""⟩ =
      (.ok (), ⟨saved, "Generated out/a_grpc.pb.rs\nGenerated out/n/b_grpc.pb.rs\n"⟩) ∧
    saved.files = Function.update
      (Function.update (disk none).files ["out", "a_grpc.pb.rs"] (some []))
      ["out", "n", "b_grpc.pb.rs"] (some []) ∧
    run Session.host arguments ⟨disk (some ⟨denied, none⟩), ""⟩ =
      (.error ⟨[.writeFile "out/n/b_grpc.pb.rs"], .disk denied⟩,
        ⟨stopped, "Generated out/a_grpc.pb.rs\n"⟩) := by
  intro content files arguments set disk saved stopped denied
  have hdecoded : Descriptor.readSet content = some files := by with_unfolding_all rfl
  have hread : ∀ last, (disk last).read "set.bin" = .ok content := fun last => by rfl
  have houtputs : ∀ texts, Plugin.outputs texts files (requestedNames arguments files)
      arguments.parameter = .ok [⟨"a_grpc.pb.rs", ""⟩, ⟨"n/b_grpc.pb.rs", ""⟩] := by
    intro texts
    -- no mapping file is named, so that the outputs can be evaluated with any texts
    have hnone : Options.mappingFiles arguments.parameter = [] := by decide +kernel
    have hcongr : ∀ path ∈ Options.mappingFiles arguments.parameter,
        texts path = .error "" := by simp [hnone]
    rw [Plugin.outputs_congr hcongr]
    decide +kernel
  have hfollows : ∀ last, Follows arguments ⟨disk last, ""⟩ files
      { files := [⟨"a_grpc.pb.rs", ""⟩, ⟨"n/b_grpc.pb.rs", ""⟩] } := by
    intro last
    have hanswer : Plugin.respond (disk last).readText
        ⟨requestedNames arguments files, arguments.parameter, files⟩ = _ :=
      Plugin.respond_of_ok (houtputs _)
    rw [← hanswer]
    exact run_follows_answer (hread last) hdecoded
  -- up to the last change both runs do the same
  let reached (last : Option Disk.Refusal) : Disk :=
    { entries := [("out", .directory [("a_grpc.pb.rs", .file [])]), set], refusals := [none, last] }
  have hfirst : ∀ last, Saves "out" (disk last) [⟨"a_grpc.pb.rs", ""⟩] (reached last) := by
    intro last
    have hparent : Disk.parent? "out/a_grpc.pb.rs" = some "out" := by rfl
    have hthere : (disk last).createDirectories "out" =
        (.ok (), { disk last with refusals := [none, none, last] }) := by rfl
    exact .cons (.intro (.created hparent hthere) rfl) (.nil _)
  have hmade : ∀ last, Prepared (reached last) "out/n/b_grpc.pb.rs"
      { stopped with refusals := [last] } := by
    intro last
    have hparent : Disk.parent? "out/n/b_grpc.pb.rs" = some "out/n" := by rfl
    exact .created hparent rfl
  have hboth : Saves "out" (disk none) [⟨"a_grpc.pb.rs", ""⟩, ⟨"n/b_grpc.pb.rs", ""⟩] saved :=
    (hfirst none).append (.cons (.intro (hmade none) rfl) (.nil _))
  have hstuck : Stuck "out" (reached (some ⟨denied, none⟩)) ⟨"n/b_grpc.pb.rs", ""⟩
      ⟨[.writeFile "out/n/b_grpc.pb.rs"], .disk denied⟩ stopped :=
    .content (hmade _) rfl
  obtain ⟨hcompleted, hfiles⟩ := (hfollows none).completed rfl saved hboth
  obtain ⟨hstopped, -⟩ := (hfollows (some ⟨denied, none⟩)).stopped rfl [⟨"a_grpc.pb.rs", ""⟩] _ []
    _ _ _ rfl (hfirst _) hstuck
  have hlines : "" ++ summary "out" [⟨"a_grpc.pb.rs", ""⟩, ⟨"n/b_grpc.pb.rs", ""⟩] =
      "Generated out/a_grpc.pb.rs\nGenerated out/n/b_grpc.pb.rs\n" := by decide +kernel
  have hline : "" ++ announced "out" [⟨"a_grpc.pb.rs", ""⟩] = "Generated out/a_grpc.pb.rs\n" := by
    decide +kernel
  refine ⟨hdecoded, hread, hlines ▸ hcompleted, hfiles.trans ?_, hline ▸ hstopped⟩
  have hplace : (disk none).target (outputPath "out" "a_grpc.pb.rs") = ["out", "a_grpc.pb.rs"] := by
    rfl
  have hnested : (disk none).target (outputPath "out" "n/b_grpc.pb.rs") =
      ["out", "n", "b_grpc.pb.rs"] := by rfl
  simp only [filesWith, List.foldl_cons, List.foldl_nil, arguments, hplace, hnested]
  rfl

end Standalone

end GrpcStubs
