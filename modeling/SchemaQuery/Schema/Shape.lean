import SchemaQuery.Query.Classification
import SchemaQuery.Schema.Metadata

/-!
Return shapes that nobody declared. A mutation without a declared shape gets one from its template: a
reading one gives rows or one row, as the field is a list or not, any other an acknowledgement. Declared
shapes stay, and so does a field whose template has no kind.
-/

namespace SchemaQuery

/-- The shape of a field whose query is of this kind. -/
def ReturnShape.ofKind (kind : QueryKind) (list : Bool) : ReturnShape :=
  match kind with
  | .read => if list then .rows else .row
  | _ => .ack

/-- The shape that a field is given because it declares none. -/
def FieldInfo.inferredShape? (f : FieldInfo) : Option ReturnShape :=
  if f.returnShape.isSome then none
  else do
    let template ← f.template?
    let kind ← (classify template).toOption
    return .ofKind kind f.list

/-- The field with the shape that it is given, if it is given one. -/
def FieldInfo.inferShape (f : FieldInfo) : FieldInfo :=
  match f.inferredShape? with
  | some shape => { f with returnShape := some shape }
  | none => f

namespace Metadata

/-- The metadata with shapes for the mutations. -/
def inferShapes (m : Metadata) : Metadata := { m with mutations := m.mutations.map FieldInfo.inferShape }

/-- How many mutations are given a shape. -/
def inferredCount (m : Metadata) : Nat := m.mutations.countP fun f => f.inferredShape?.isSome

end Metadata

end SchemaQuery
