import GrpcStubs.Standalone
import GrpcStubs.Wire.Exchange

set_option autoImplicit false

namespace GrpcStubs.CommandLine
open Text

inductive Command where
  | plugin
  | generate (arguments : Standalone.Arguments)
  | version
  | help
deriving DecidableEq, Repr

inductive Flag where
  | descriptorSet
  | outDirectory
  | file
  | parameter
deriving DecidableEq, Repr

def Flag.ofLong? (name : List Char) : Option Flag :=
  match String.ofList name with
  | "descriptor-set" => some .descriptorSet
  | "out-dir" => some .outDirectory
  | "file" => some .file
  | "param" => some .parameter
  | _ => none

def Flag.ofShort? : Char → Option Flag
  | 'd' => some .descriptorSet
  | 'o' => some .outDirectory
  | 'f' => some .file
  | 'p' => some .parameter
  | _ => none

/-- A flag, and its value if it is part of the same argument. -/
def readFlag : List Char → Option (Flag × Option String)
  | '-' :: '-' :: text =>
    match splitFirst '=' text with
    | some (name, value) => (Flag.ofLong? name).map (·, some (.ofList value))
    | none => (Flag.ofLong? text).map (·, none)
  | '-' :: name :: [] => (Flag.ofShort? name).map (·, none)
  | '-' :: name :: '=' :: value => (Flag.ofShort? name).map (·, some (.ofList value))
  | '-' :: name :: value => (Flag.ofShort? name).map (·, some (.ofList value))
  | _ => none

/-- An argument that starts with a hyphen is a value only if it is nothing else. -/
def isValue (argument : String) : Bool :=
  argument == "-" || argument.toList.head? != some '-'

structure Draft where
  descriptorSet : Option String := none
  outDirectory : Option String := none
  files : List String := []
  parameter : Option String := none

namespace Draft

/-- Only `file` may be given more than once, and a path is never empty. -/
def set? (draft : Draft) (value : String) : Flag → Option Draft
  | .descriptorSet =>
    if draft.descriptorSet.isSome || value.isEmpty then none
    else some { draft with descriptorSet := some value }
  | .outDirectory =>
    if draft.outDirectory.isSome || value.isEmpty then none
    else some { draft with outDirectory := some value }
  | .file => some { draft with files := draft.files ++ [value] }
  | .parameter =>
    if draft.parameter.isSome then none else some { draft with parameter := some value }

/-- The descriptor set and the output directory are required. -/
def finish? (draft : Draft) : Option Command :=
  match draft.descriptorSet, draft.outDirectory with
  | some descriptorSet, some outDirectory =>
    some (.generate ⟨descriptorSet, outDirectory, draft.files, draft.parameter.getD ""⟩)
  | _, _ => none

end Draft

def isHelp (argument : String) : Bool :=
  argument == "--help" || (afterStart ['-', 'h'] argument.toList).isSome

/-- The arguments after `generate`. Two hyphens end the options, and nothing may follow them. -/
def parseGenerate? (draft : Draft) : List String → Option Command
  | [] | ["--"] => draft.finish?
  | [argument] =>
    if isHelp argument then some .help
    else
      match readFlag argument.toList with
      | some (flag, some value) => draft.set? value flag >>= Draft.finish?
      | _ => none
  | argument :: next :: rest =>
    if isHelp argument then some .help
    else
      match readFlag argument.toList with
      | some (flag, some value) => do parseGenerate? (← draft.set? value flag) (next :: rest)
      | some (flag, none) =>
        if isValue next then do parseGenerate? (← draft.set? next flag) rest else none
      | none => none

def isVersion (argument : String) : Bool :=
  argument == "--version" || (afterStart ['-', 'V'] argument.toList).isSome

/-- The arguments after `help` name a command, or nothing. -/
def isHelpTopic : List String → Bool
  | [] | ["generate"] | ["help"] => true
  | _ => false

/-- The command that the arguments ask for, if they are those of one. Two hyphens alone are no
    argument. -/
def parse? : List String → Option Command
  | [] | ["--"] => some .plugin
  | "generate" :: rest => parseGenerate? {} rest
  | "help" :: topic => if isHelpTopic topic then some .help else none
  | argument :: _ =>
    if isVersion argument then some .version
    else if isHelp argument then some .help
    else none

def versionText : String :=
  "protoc-gen-rust-grpc 0.1.0\n"

def usageText : String :=
  "Usage: protoc-gen-rust-grpc\n" ++
  "       protoc-gen-rust-grpc generate -d <SET> -o <DIRECTORY> [-f <FILE>]... [-p <PARAMETER>]\n"

inductive Reply where
  | response (content : Response)
  | text (content : String)
deriving DecidableEq, Repr

def Reply.bytes : Reply → Bytes
  | .response content => content.write
  | .text content => .ofText content

structure Outcome where
  exitCode : Nat := 0
  reply : Reply := .text ""
  report : String := ""
  disk : Disk

def answer (texts : Texts) (input : Bytes) : Except Failure Response :=
  match Request.read input with
  | some request => .ok (Plugin.respond texts request)
  | none => .error ⟨[.decodeRequest], .undecodable⟩

def runPlugin (disk : Disk) (input : Bytes) : Outcome :=
  match answer disk.readText input with
  | .ok response => { reply := .response response, disk }
  | .error failure => { exitCode := 1, report := failure.report, disk }

def runGenerate (disk : Disk) (arguments : Standalone.Arguments) : Outcome :=
  match Standalone.run Session.host arguments { disk } with
  | (.ok _, session) => { reply := .text session.printed, disk := session.disk }
  | (.error failure, session) =>
    { exitCode := 1, reply := .text session.printed, report := failure.report,
      disk := session.disk }

def run (disk : Disk) (arguments : List String) (input : Bytes) : Outcome :=
  match parse? arguments with
  | some .plugin => runPlugin disk input
  | some (.generate arguments) => runGenerate disk arguments
  | some .version => { reply := .text versionText, disk }
  | some .help => { reply := .text usageText, disk }
  | none => { exitCode := 2, report := usageText, disk }

end GrpcStubs.CommandLine
