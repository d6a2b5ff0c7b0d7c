import SchemaQuery.Json.Value

/-!
Records of results: values by the names of their columns.
-/

namespace SchemaQuery

/-- One record of a result. -/
abbrev Record := Dictionary Json

namespace Record

/-- One field taken over from a record that gives up a column each time it is asked for it. -/
def takeField (taken : Record × Record) (name : String) : Record × Record :=
  (taken.1.erase name, taken.2.insert name ((taken.1.get? name).getD .null))

/-- The declared fields of a record, in place of all its columns; null for a column that is missing.
A name that is declared twice finds its column gone the second time. -/
def shape (fields : List String) (row : Record) : Record :=
  (fields.foldl takeField (row, ∅)).2

end Record

end SchemaQuery
