import GalleryCatalog.Toml.Lexeme

/-!
# Configuration files

A file is a sequence of statements: a key with its value, or a header that opens a
table or a new element of an array of tables. A table is opened by one header
only, a value is written once, and arrays and tables written on one line are
closed for good.
-/

set_option autoImplicit false

namespace GalleryCatalog.Toml

open Document (Value Entries put)

/-- Change the entries of the table that a key leads to, making tables on the way.
An array leads to its last element where that is allowed. -/
def alter (throughArrays : Bool) (change : Entries → Option Entries) :
    Key → Entries → Option Entries
  | [], es => change es
  | k :: ks, es =>
    match es.lookup k with
    | none => (alter throughArrays change ks []).map fun sub => put k (.table sub) es
    | some (.table sub) =>
      (alter throughArrays change ks sub).map fun sub => put k (.table sub) es
    | some (.array items) =>
      match throughArrays, items.getLast? with
      | true, some (.table sub) =>
        (alter throughArrays change ks sub).map fun sub =>
          put k (.array (items.dropLast ++ [.table sub])) es
      | _, _ => none
    | some _ => none

/-- Add an entry that is not there yet. -/
def addNew (name : String) (v : Value) (es : Entries) : Option Entries :=
  if (es.lookup name).isSome then none else some (put name v es)

/-- Add an empty table to an array of tables. -/
def addElement (name : String) (es : Entries) : Option Entries :=
  match es.lookup name with
  | none => some (put name (.array [.table []]) es)
  | some (.array items) => some (put name (.array (items ++ [.table []])) es)
  | some _ => none

/-- Whether a key is one of the closed keys or lies within one. -/
def withinAny (closed : List Key) (key : Key) : Bool :=
  key ≠ [] && closed.any (·.isPrefixOf key)

/-- Write one entry of a table on one line. `closed` are its entries that are closed. -/
def addInline (closed : List Key) (key : Key) (v : Value) (es : Entries) : Option Entries :=
  if withinAny closed key then none
  else alter false (addNew (key.getLastD "") v) key.dropLast es

mutual

def readValue : Nat → Read Value
  | 0, _ => .error .malformed
  | fuel + 1, cs =>
    match cs with
    | '"' :: '"' :: '"' :: rest =>
      (readBasic true (rest.length + 1) (dropLineEnd rest)).map fun r =>
        let (body, rest) := readTrailing '"' r.1 r.2
        (.text (String.ofList body), rest)
    | '"' :: rest =>
      (readBasic false (rest.length + 1) rest).map fun r => (.text (String.ofList r.1), r.2)
    | '\'' :: '\'' :: '\'' :: rest =>
      (readLiteralLines (dropLineEnd rest)).map fun r =>
        let (body, rest) := readTrailing '\'' r.1 r.2
        (.text (String.ofList body), rest)
    | '\'' :: rest => (readLiteral rest).map fun r => (.text (String.ofList r.1), r.2)
    | 't' :: 'r' :: 'u' :: 'e' :: rest => .ok (.flag true, rest)
    | 'f' :: 'a' :: 'l' :: 's' :: 'e' :: rest => .ok (.flag false, rest)
    | '[' :: rest => do
      let (items, rest) ← readItems fuel (← skipLines rest.length rest)
      return (.array items, rest)
    | '{' :: rest =>
      match skipMargin rest with
      | '}' :: rest => .ok (.table [], rest)
      | rest => do
        let (entries, rest) ← readInline fuel [] [] rest
        return (.table entries, rest)
    | _ =>
      match readMoment cs with
      | some r => r
      | none =>
        match readClock cs with
        | some (t, rest) => .ok (.clock t, rest)
        | none =>
          match readMarked cs with
          | some r => .ok r
          | none =>
            match readDecimal cs with
            | some r => r
            | none =>
              match readSpecial cs with
              | some r => .ok r
              | none => .error .malformed

/-- The elements of an array up to its closing bracket. -/
def readItems : Nat → Read (List Value)
  | 0, _ => .error .malformed
  | _ + 1, ']' :: rest => .ok ([], rest)
  | fuel + 1, cs => do
    let (item, rest) ← readValue fuel cs
    match ← skipLines rest.length rest with
    | ']' :: rest => return ([item], rest)
    | ',' :: rest => do
      let (items, rest) ← readItems fuel (← skipLines rest.length rest)
      return (item :: items, rest)
    | _ => .error .malformed

/-- The entries of a table on one line up to its closing brace. -/
def readInline : Nat → List Key → Entries → Read Entries
  | 0, _, _, _ => .error .malformed
  | fuel + 1, closed, es, cs => do
    let (key, rest) ← readKey cs.length cs
    match rest with
    | '=' :: rest => do
      let (v, rest) ← readValue fuel (skipMargin rest)
      match addInline closed key v es with
      | none => .error .malformed
      | some es =>
        match skipMargin rest with
        | '}' :: rest => return (es, rest)
        | ',' :: rest =>
          readInline fuel (if v.isNested then key :: closed else closed) es (skipMargin rest)
        | _ => .error .malformed
    | _ => .error .malformed

end

/-- The tables read so far. `declared` were opened by a header, `closed` are values
that nothing may change, `dotted` were opened by dotted keys of the current table
and count as declared from the next header on. -/
structure Draft where
  entries : Entries := []
  header : Key := []
  declared : List Key := []
  closed : List Key := []
  dotted : List Key := []

namespace Draft

/-- The tables that a dotted key opens below the current header. -/
def opened (d : Draft) (key : Key) : List Key :=
  (List.range (key.length - 1)).map fun i => d.header ++ key.take (i + 1)

def addPair (d : Draft) (key : Key) (v : Value) : Option Draft :=
  let parent := d.header ++ key.dropLast
  if (d.opened key).any d.declared.contains ∨ withinAny d.closed parent then none
  else
    (alter true (addNew (key.getLastD "") v) parent d.entries).map fun es =>
      { d with
        entries := es
        dotted := d.opened key ++ d.dotted
        closed := if v.isNested then (d.header ++ key) :: d.closed else d.closed }

/-- A header ends the current table. -/
def settled (d : Draft) : Draft :=
  { d with declared := d.dotted ++ d.declared, dotted := [] }

def openTable (d : Draft) (key : Key) : Option Draft :=
  if d.declared.contains key ∨ withinAny d.closed key then none
  else
    (alter true some key d.entries).map fun es =>
      { d with entries := es, header := key, declared := key :: d.declared }

/-- What is known of the tables within an earlier element says nothing of the new one. -/
def openElement (d : Draft) (key : Key) : Option Draft :=
  if withinAny d.closed key then none
  else
    (alter true (addElement (key.getLastD "")) key.dropLast d.entries).map fun es =>
      { d with
        entries := es
        header := key
        declared := key :: d.declared.filter fun k => ¬ key.isPrefixOf k
        closed := d.closed.filter fun k => ¬ key.isPrefixOf k }

end Draft

def orMalformed {α : Type} : Option α → Except Fault α
  | some a => .ok a
  | none => .error .malformed

/-- One statement, which starts with neither a margin nor a line end. -/
def readStatement (d : Draft) (cs : List Char) : Except Fault (Draft × List Char) :=
  match cs with
  | '#' :: _ => .ok (d, cs)
  | '[' :: '[' :: rest => do
    let (key, rest) ← readKey (rest.length + 1) (skipMargin rest)
    let d ← orMalformed (d.settled.openElement key)
    match rest with
    | ']' :: ']' :: rest => return (d, rest)
    | _ => .error .malformed
  | '[' :: rest => do
    let (key, rest) ← readKey (rest.length + 1) (skipMargin rest)
    let d ← orMalformed (d.settled.openTable key)
    match rest with
    | ']' :: rest => return (d, rest)
    | _ => .error .malformed
  | _ => do
    let (key, rest) ← readKey (cs.length + 1) cs
    match rest with
    | '=' :: rest => do
      let (v, rest) ← readValue (2 * rest.length + 2) (skipMargin rest)
      return (← orMalformed (d.addPair key v), rest)
    | _ => .error .malformed

def readStatements : Nat → Draft → List Char → Except Fault Entries
  | 0, d, _ => .ok d.entries
  | fuel + 1, d, cs =>
    match skipMargin cs with
    | [] => .ok d.entries
    | '\n' :: rest => readStatements fuel d rest
    | cs => do
      let (d, rest) ← readStatement d cs
      match ← skipComment (skipMargin rest) with
      | [] => return d.entries
      | '\n' :: rest => readStatements fuel d rest
      | _ => .error .malformed

/-- Line ends of two characters count as one. -/
def joinLineEnds : List Char → List Char
  | '\r' :: '\n' :: cs => '\n' :: joinLineEnds cs
  | c :: cs => c :: joinLineEnds cs
  | [] => []

def read (s : String) : Except Fault Entries :=
  let cs := joinLineEnds s.toList
  readStatements (cs.length + 1) {} cs

end GalleryCatalog.Toml
