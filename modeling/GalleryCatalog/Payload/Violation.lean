/-!
# Violations

A violation says where in a document a value has the wrong form, and how.
-/

set_option autoImplicit false

namespace GalleryCatalog.Payload

inductive Step where
  | key (name : String)
  | index (i : Nat)
  deriving DecidableEq, Repr

inductive Fault where
  | notJson
  | notObject
  | notArray
  | notText
  | emptyText
  | missing
  | notNumber
  | notWholeText
  | tooLarge
  | fractional
  | notFinite
  | negative
  | notPositive
  deriving DecidableEq, Repr

structure Violation where
  place : List Step
  fault : Fault
  deriving DecidableEq, Repr

/-- The record types of the document, by the names under which they are reported. -/
inductive Model where
  | source
  | image
  | tag
  | document
  deriving DecidableEq, Repr

def Model.title : Model → String
  | .source => "MetadataSource"
  | .image => "MetadataImage"
  | .tag => "MetadataTag"
  | .document => "ArchiveMetadataPayload"

/-- A record that was accepted although it has members of no known meaning. -/
structure Carrier where
  model : Model
  keys : List String
  deriving DecidableEq, Repr

/-- The outcome for a value, and the carriers found on the way, inner ones first. -/
structure Check (α : Type) where
  outcome : Except (List Violation) α
  carriers : List Carrier := []

namespace Check

variable {α β : Type}

def accept (a : α) : Check α := ⟨.ok a, []⟩

def refuse (f : Fault) : Check α := ⟨.error [⟨[], f⟩], []⟩

/-- Pair two outcomes, or join their violations. -/
def pair : Except (List Violation) α → Except (List Violation) β →
    Except (List Violation) (α × β)
  | .ok a, .ok b => .ok (a, b)
  | .ok _, .error vs => .error vs
  | .error vs, .ok _ => .error vs
  | .error vs, .error ws => .error (vs ++ ws)

/-- Both must be accepted. All violations of both are reported. -/
def both (x : Check α) (y : Check β) : Check (α × β) :=
  ⟨pair x.outcome y.outcome, x.carriers ++ y.carriers⟩

def map (f : α → β) (x : Check α) : Check β :=
  ⟨x.outcome.map f, x.carriers⟩

/-- The check of a part, at its place within the whole. -/
def within (step : Step) (x : Check α) : Check α :=
  ⟨x.outcome.mapError fun vs => vs.map fun v => { v with place := step :: v.place }, x.carriers⟩

def all : List (Check α) → Check (List α)
  | [] => accept []
  | x :: xs => (both x (all xs)).map fun p => p.1 :: p.2

/-- The accepted record carries its members of no known meaning. -/
def carrying (model : Model) (keys : List String) (x : Check α) : Check α :=
  match x.outcome with
  | .ok _ => if keys = [] then x else { x with carriers := x.carriers ++ [⟨model, keys⟩] }
  | .error _ => x

end Check

end GalleryCatalog.Payload
