import GalleryCatalog.Path
import GalleryCatalog.Text.Blank

/-!
# Environment

The variables of the application and the home directories of other users. A variable
that is set to nothing counts as unset wherever a path is asked for.
-/

set_option autoImplicit false

namespace GalleryCatalog

structure Environment where
  bindings : List (String × String) := []
  homes : List (String × String) := []
  deriving DecidableEq, Repr

namespace Environment

def get? (env : Environment) (name : String) : Option String :=
  env.bindings.lookup name

def nonEmpty? (env : Environment) (name : String) : Option String :=
  (env.get? name).filter (· ≠ "")

/-- The home directory of the user, or of another one. -/
def home? (env : Environment) (user : String) : Option String :=
  if user = "" then env.get? "HOME" else env.homes.lookup user

/-- A home directory as a path; one that starts with a tilde is no directory. -/
def homePath? (env : Environment) (user : String) : Option Path :=
  match env.home? user with
  | none => none
  | some home =>
    let cs := (home.toList.reverse.dropWhile (· == '/')).reverse
    if cs.head? = some '~' then none
    else if cs = [] then some ⟨.slash, []⟩
    else some (Path.ofString (String.ofList cs))

/-- Replace a leading `~` or `~user` by the home directory, which may be unknown. -/
def expand? (env : Environment) (p : Path) : Option Path :=
  match p.user? with
  | none => some p
  | some user =>
    (env.homePath? user).map fun home => { home with names := home.names ++ p.names.tail }

end Environment

/-- The words for yes and no. No letter outside ASCII has one of their letters as its
lower case. -/
def trueWords : List String := ["1", "true", "yes", "on"]

def falseWords : List String := ["0", "false", "no", "off"]

def lowerAscii (s : String) : String :=
  String.ofList (s.toList.map Char.toLower)

inductive FlagText where
  | unset
  | flag (value : Bool)
  | unknown (text : String)
  deriving DecidableEq, Repr

/-- Read a flag from a variable. A blank variable is unset. -/
def Environment.flag (env : Environment) (name : String) : FlagText :=
  match env.get? name with
  | none => .unset
  | some text =>
    let word := lowerAscii (Text.trim text)
    if word = "" then .unset
    else if trueWords.contains word then .flag true
    else if falseWords.contains word then .flag false
    else .unknown text

end GalleryCatalog
