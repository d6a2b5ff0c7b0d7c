import SchemaQuery.Collection.Entry
import SchemaQuery.Number.Binary64

/-!
Documents of TOML as trees, and how statements build them up. A table remembers how it came into being,
because that decides what may still be added to it: a table with a header of its own is never given
another, dotted keys only add to tables that dotted keys made, and an inline table is complete.
-/

namespace SchemaQuery.Toml

/-- How a table came into being. -/
inductive Origin where
  /-- It has a header of its own. -/
  | header
  /-- It lies on the way to the table of a header. -/
  | implied
  /-- It lies on the way of a dotted key. -/
  | dotted
  /-- It is written as one value. -/
  | inline
deriving DecidableEq, Repr

/-- A node of a document. -/
inductive Node where
  | text (s : String)
  | integer (n : Int64)
  | float (x : Binary64)
  | bool (b : Bool)
  /-- A date, a time of day or both, by its standard text. -/
  | moment (text : String)
  | array (items : List Node)
  | table (origin : Origin) (entries : List (String × Node))
  /-- The tables of all headers in double brackets of one path. -/
  | tables (items : List (List (String × Node)))

/-- The entries of a table. -/
abbrev Entries := List (String × Node)

namespace Entries

/-- The entries with the value of a key changed by `f`, which is given nothing for a new key. -/
def alter (key : String) (f : Option Node → Option Node) : Entries → Option Entries
  | [] => (f none).map fun node => [(key, node)]
  | (k, node) :: rest =>
    if k = key then (f (some node)).map fun node => (k, node) :: rest
    else (alter key f rest).map ((k, node) :: ·)

/-- The entries with a new key; a key that is there is refused. -/
def add (es : Entries) (key : String) (node : Node) : Option Entries :=
  es.alter key fun
    | none => some node
    | some _ => none

/-- A list with its last item changed. -/
def onLast (f : Entries → Option Entries) : List Entries → Option (List Entries)
  | [] => none
  | [es] => (f es).map fun es => [es]
  | es :: rest => (onLast f rest).map (es :: ·)

/-- Changes the table that a path of a header leads to. Of several tables with one path the last is
meant; tables on the way that are missing are made. -/
def within (f : Entries → Option Entries) : List String → Entries → Option Entries
  | [], es => f es
  | key :: path, es =>
    es.alter key fun
      | none => (within f path []).map (.table .implied)
      | some (.table .inline _) => none
      | some (.table origin es) => (within f path es).map (.table origin)
      | some (.tables items) => (onLast (within f path) items).map .tables
      | some _ => none

/-- Changes the table that the front of a dotted key leads to, from a table of the given origin on.
The last table on the way has to be one that a dotted key made. -/
def withinDotted (f : Entries → Option Entries) (origin : Origin) :
    List String → Entries → Option Entries
  | [], es => if origin = .dotted then f es else none
  | key :: path, es =>
    es.alter key fun
      | none => (withinDotted f .dotted path []).map (.table .dotted)
      | some (.table .dotted es) => (withinDotted f .dotted path es).map (.table .dotted)
      | some (.table .implied es) => (withinDotted f .implied path es).map (.table .implied)
      | some (.tables items) => (onLast (withinDotted f .header path) items).map .tables
      | some _ => none

/-- The entries with a value under a key, which may be dotted. -/
def put (es : Entries) (path : List String) (node : Node) : Option Entries :=
  match path.reverse with
  | [] => none
  | [key] => es.add key node
  | key :: front => withinDotted (fun es => es.add key node) .header front.reverse es

/-- The entries of an inline table of some keys and values. -/
def ofPairs? (pairs : List (List String × Node)) : Option Entries :=
  pairs.foldlM (fun es (path, node) => put es path node) []

/-- The entries once a header names a table. -/
def define (es : Entries) (path : List String) : Option Entries :=
  match path.reverse with
  | [] => none
  | key :: front =>
    es.within (fun es => es.alter key fun
      | none => some (.table .header [])
      | some (.table .implied es) => some (.table .header es)
      | some _ => none) front.reverse

/-- The entries once a header in double brackets names one more table. -/
def append (es : Entries) (path : List String) : Option Entries :=
  match path.reverse with
  | [] => none
  | key :: front =>
    es.within (fun es => es.alter key fun
      | none => some (.tables [[]])
      | some (.tables items) => some (.tables (items ++ [[]]))
      | some _ => none) front.reverse

end Entries

/-! ### Statements -/

/-- A statement of a document. -/
inductive Statement where
  /-- The following entries belong to this table. -/
  | header (path : List String)
  /-- The following entries belong to one more table of this path. -/
  | nextTable (path : List String)
  | entry (path : List String) (value : Node)

/-- The entries so far, and the path of the table to which the next entries belong. -/
structure Draft where
  entries : Entries
  current : List String

/-- The draft after a statement, if the statement can stand there. -/
def Draft.add (d : Draft) : Statement → Option Draft
  | .header path => (d.entries.define path).map fun es => ⟨es, path⟩
  | .nextTable path => (d.entries.append path).map fun es => ⟨es, path⟩
  | .entry path value =>
    (d.entries.within (fun es => es.put path value) d.current).map fun es => { d with entries := es }

/-- The entries that statements make. -/
def Entries.ofStatements? (statements : List Statement) : Option Entries :=
  (statements.foldlM Draft.add ⟨[], []⟩).map (·.entries)

end SchemaQuery.Toml
