import GalleryCatalog.Text.Search

/-!
# Paths

A path is a root and a list of names. Empty names and single dots vanish when text
is read; double dots stay, for they depend on the directory that they leave.
Exactly two slashes at the start are a root of their own.
-/

set_option autoImplicit false

namespace GalleryCatalog

inductive PathRoot where
  | relative
  | slash
  | slashes
  deriving DecidableEq, Repr

structure Path where
  root : PathRoot
  names : List String
  deriving DecidableEq, Repr

/-- The names that lead from the top directory to a file or directory. -/
abbrev Location := List String

def PathRoot.ofChars : List Char → PathRoot
  | '/' :: '/' :: '/' :: _ => .slash
  | '/' :: '/' :: _ => .slashes
  | '/' :: _ => .slash
  | _ => .relative

def PathRoot.text : PathRoot → String
  | .relative => ""
  | .slash => "/"
  | .slashes => "//"

/-- The names between slashes. -/
def namesBetween (cs : List Char) : List String :=
  ((Text.splitAll '/' cs).map String.ofList).filter fun name => name ≠ "" ∧ name ≠ "."

namespace Path

def ofString (s : String) : Path :=
  ⟨PathRoot.ofChars s.toList, namesBetween s.toList⟩

def text (p : Path) : String :=
  if p.root = .relative ∧ p.names = [] then "."
  else p.root.text ++ "/".intercalate p.names

/-- A rooted path replaces the one that it is joined to. -/
def join (p q : Path) : Path :=
  if q.root = .relative then { p with names := p.names ++ q.names } else q

/-- Whether a name holds the character zero, as no file's name does. -/
def hasZero (p : Path) : Bool :=
  p.names.any fun name => name.toList.contains '\x00'

/-- The last name, empty for a bare root. -/
def name (p : Path) : String :=
  p.names.getLastD ""

/-- The user that a leading `~` or `~user` names. The user of the program has no name. -/
def user? (p : Path) : Option String :=
  match p.root, p.names with
  | .relative, first :: _ =>
    match first.toList with
    | '~' :: user => some (String.ofList user)
    | _ => none
  | _, _ => none

def ofLocation (l : Location) : Path :=
  ⟨.slash, l⟩

/-- One name further; two dots go back. -/
def walk (here : Location) (name : String) : Location :=
  if name = ".." then here.dropLast else here ++ [name]

/-- The location that a path names from a working directory, when nothing on the
way is a link. -/
def resolved (here : Location) (p : Path) : Location :=
  p.names.foldl walk (if p.root = .relative then here else [])

end Path

/-- A text that is the name of a file or directory, and leads nowhere else. -/
structure IsPlainName (name : String) : Prop where
  nonempty : name ≠ ""
  not_here : name ≠ "."
  not_back : name ≠ ".."
  no_slash : '/' ∉ name.toList

theorem IsPlainName.ofString {name : String} (h : IsPlainName name) :
    Path.ofString name = ⟨.relative, [name]⟩ := by
  have hnames : namesBetween name.toList = [name] := by
    rw [namesBetween, Text.splitAll_of_not_mem h.no_slash]
    simp [h.nonempty, h.not_here]
  have hroot : PathRoot.ofChars name.toList = .relative := by
    have hslash := h.no_slash
    unfold PathRoot.ofChars
    split <;> simp_all
  rw [Path.ofString, hnames, hroot]

end GalleryCatalog
