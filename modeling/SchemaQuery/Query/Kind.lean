/-!
The four kinds of query a template can be.
-/

namespace SchemaQuery

/-- What a query does to the data. -/
inductive QueryKind where
  | read
  | insert
  | update
  | delete
deriving DecidableEq, Repr

namespace QueryKind

/-- Every kind. -/
def all : List QueryKind := [.read, .insert, .update, .delete]

/-- The name of a kind. -/
def name : QueryKind → String
  | .read => "read"
  | .insert => "insert"
  | .update => "update"
  | .delete => "delete"

/-- The leading keyword of a template of this kind. -/
def keyword : QueryKind → List Char
  | .read => ['S', 'E', 'L', 'E', 'C', 'T']
  | .insert => ['I', 'N', 'S', 'E', 'R', 'T']
  | .update => ['U', 'P', 'D', 'A', 'T', 'E']
  | .delete => ['D', 'E', 'L', 'E', 'T', 'E']

/-- Only a reading query is expected to answer with rows. -/
def yieldsRows : QueryKind → Bool
  | .read => true
  | _ => false

end QueryKind

end SchemaQuery
