import GalleryCatalog.Text.Digit
import GalleryCatalog.Text.Search

/-!
# Words of a command line

A word is an option, a value or neither. Long options may be shortened as long as
only one option is meant, and may carry their value behind an equals sign; two dashes
there stand for no value at all. Every command has the option for help, which also has
a short form. Words that look like negative numbers or hold a space are values.
-/

set_option autoImplicit false

namespace GalleryCatalog.CommandLine

/-- Why no command comes of the words. -/
inductive Stop where
  | help
  | usage
  deriving DecidableEq, Repr

inductive Use where
  | help
  | flag
  | value (accepts : String → Bool)

structure Opt where
  name : String
  use : Use

def helpOption : Opt := ⟨"--help", .help⟩

inductive Word where
  | option (o : Opt)
  | optionWith (o : Opt) (value : String)
  /-- An option with a value that it does not take. -/
  | misused
  | unknown
  | value (text : String)

/-- A word behind the short option for help. Short options may be joined, also by one
equals sign, and all of them must be for help. -/
def shortWord : List Char → Word
  | ['='] => .misused
  | '=' :: cs => if cs.all (· == 'h') then .option helpOption else .misused
  | cs => if cs.all (· == 'h') then .option helpOption else .misused

def isDecimal (c : Char) : Bool :=
  (Text.decimalValue c).isSome

/-- Drop one line end. -/
def withoutLineEnd (cs : List Char) : List Char :=
  if cs.getLast? = some '\n' then cs.dropLast else cs

/-- A minus sign and digits, perhaps with a point before the last ones. -/
def looksNegative (cs : List Char) : Bool :=
  match withoutLineEnd cs with
  | '-' :: ds =>
    match Text.cutAt '.' ds with
    | (whole, none) => whole ≠ [] && whole.all isDecimal
    | (whole, some part) => whole.all isDecimal && part ≠ [] && part.all isDecimal
  | _ => false

/-- An option, with its value if it has one. -/
def optionWord (o : Opt) : Option (List Char) → Word
  | none => .option o
  | some value =>
    match o.use with
    | .value _ => .optionWith o (String.ofList value)
    | _ => .misused

/-- The options that a word may stand for. -/
def meant (options : List Opt) (beginning : List Char) : List Opt :=
  options.filter fun o => beginning.isPrefixOf o.name.toList

def otherWord (cs : List Char) : Word :=
  if looksNegative cs ∨ cs.contains ' ' then .value (String.ofList cs) else .unknown

/-- A word that starts with two dashes and more. -/
def longWord (options : List Opt) (cs : List Char) : Except Stop Word :=
  let (name, value) := Text.cutAt '=' cs
  match options.find? fun o => o.name.toList = cs with
  | some o => .ok (.option o)
  | none =>
    match options.find? fun o => o.name.toList = name with
    | some o => .ok (optionWord o value)
    | none =>
      match meant options name with
      | [] => .ok (otherWord cs)
      | [o] => .ok (optionWord o value)
      | _ => .error .usage

/-- A word among the options of a command. -/
def wordOf (options : List Opt) (text : String) : Except Stop Word :=
  match text.toList with
  | '-' :: '-' :: _ => longWord (helpOption :: options) text.toList
  | '-' :: 'h' :: cs => .ok (shortWord cs)
  | '-' :: c :: cs => .ok (otherWord ('-' :: c :: cs))
  | _ => .ok (.value text)

/-- The words of a command. All that comes after two dashes is a value. -/
def wordsOf (options : List Opt) : List String → Except Stop (List Word)
  | [] => .ok []
  | text :: rest =>
    if text = "--" then .ok (.unknown :: rest.map .value)
    else do return (← wordOf options text) :: (← wordsOf options rest)

/-- The options that were given, with their values if they have one, and whether there was
anything else. -/
structure Given where
  values : List (String × Option String) := []
  extra : Bool := false
  deriving DecidableEq, Repr

def Given.add (name : String) (value : Option String) (g : Given) : Given :=
  { g with values := (name, value) :: g.values }

def Given.withExtra (g : Given) : Given :=
  { g with extra := true }

/-- Read words one after another. The first help or fault decides. -/
def given : List Word → Except Stop Given
  | [] => .ok {}
  | .option ⟨_, .help⟩ :: _ => .error .help
  | .option ⟨name, .flag⟩ :: rest => (given rest).map (Given.add name none)
  | .option ⟨name, .value accepts⟩ :: .value v :: rest =>
    if accepts v then (given rest).map (Given.add name (some v)) else .error .usage
  | .option _ :: _ => .error .usage
  | .optionWith ⟨name, .value accepts⟩ v :: rest =>
    if v = "--" then (given rest).map (Given.add name none)
    else if accepts v then (given rest).map (Given.add name (some v))
    else .error .usage
  | .optionWith _ _ :: _ => .error .usage
  | .misused :: _ => .error .usage
  | .unknown :: rest => (given rest).map Given.withExtra
  | .value _ :: rest => (given rest).map Given.withExtra

/-- What was given last for an option that was given. -/
def Given.last? (g : Given) (name : String) : Option (Option String) :=
  ((g.values.filter fun v => v.1 = name).getLast?).map Prod.snd

def Given.has (g : Given) (name : String) : Bool :=
  (g.last? name).isSome

end GalleryCatalog.CommandLine
