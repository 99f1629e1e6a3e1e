import GalleryCatalog.CommandLine.Word
import GalleryCatalog.Path
import GalleryCatalog.Text.Integer

/-!
# Commands

One command adds an archive; the other one reconciles an archive with a metadata
file. Names of commands are exact. Whatever a command has no use for is refused at
the end, when everything else has been read.
-/

set_option autoImplicit false

namespace GalleryCatalog.CommandLine

/-- An option of a command may have been given without its value. -/
inductive Command where
  | create (hash title : Option String)
  | reconcile (archive : Option Int) (metadata : Option Path) (verbose merge : Bool)
  deriving DecidableEq, Repr

/-- What was read, and whether there was anything else. -/
abbrev Parsed := Except Stop (Command × Bool)

/-- Choose by the first value among the words. Only help may come before it. -/
def choose (branch : String → Option (List String → Parsed)) : List String → Parsed
  | [] => .error .usage
  | text :: rest =>
    if text = "--" then .error .usage
    else
      match wordOf [] text with
      | .error stop => .error stop
      | .ok (.option _) => .error .help
      | .ok .unknown => (choose branch rest).map fun p => (p.1, true)
      | .ok (.value name) =>
        match branch name with
        | some parse => parse rest
        | none => .error .usage
      | .ok _ => .error .usage

/-- Read the options of a command and make the command of them. -/
def ofOptions (options : List Opt) (make : Given → Option Command) (texts : List String) :
    Parsed := do
  let g ← given (← wordsOf options texts)
  match make g with
  | some command => return (command, g.extra)
  | none => .error .usage

def anyText : Use :=
  .value fun _ => true

def integerText : Use :=
  .value fun s => (Text.integer? s).isSome

def create : List String → Parsed :=
  ofOptions [⟨"--hash", anyText⟩, ⟨"--title", anyText⟩] fun g => do
    return .create (← g.last? "--hash") (← g.last? "--title")

def reconcile : List String → Parsed :=
  ofOptions
    [⟨"--archive-id", integerText⟩, ⟨"--metadata", anyText⟩, ⟨"--verbose", .flag⟩,
      ⟨"--merge-sources", .flag⟩]
    fun g => do
      let id ← g.last? "--archive-id"
      let metadata ← g.last? "--metadata"
      return .reconcile (id.bind Text.integer?) (metadata.map Path.ofString)
        (g.has "--verbose") (g.has "--merge-sources")

def archiveBranch : String → Option (List String → Parsed)
  | "create" => some create
  | _ => none

def mainBranch : String → Option (List String → Parsed)
  | "archive" => some (choose archiveBranch)
  | "reconcile" => some reconcile
  | _ => none

/-- The command that a list of words gives. -/
def parse (texts : List String) : Except Stop Command := do
  let (command, extra) ← choose mainBranch texts
  if extra then .error .usage else return command

end GalleryCatalog.CommandLine
