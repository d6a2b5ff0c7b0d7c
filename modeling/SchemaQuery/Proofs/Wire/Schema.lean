import SchemaQuery.Proofs.Wire.Reading
import SchemaQuery.Wire.Schema

/-!
The decoders of templates, operations and metadata invert their encodings, and no encoding of one of them
is nested deeply.
-/

namespace SchemaQuery

open Decoder
open Json (Within)

/-! ### Templates and queries -/

theorem QueryKind.inverts (kind : QueryKind) : Inverts decoder kind.toJson kind :=
  inverts_choice (by cases kind <;> rfl)

theorem QueryKind.within {k : Nat} (kind : QueryKind) : kind.toJson.Within k := .string _

theorem PreparedTemplate.inverts (t : PreparedTemplate) : Inverts decoder t.toJson t := by
  refine inverts_record (by simp) fun room => ?_
  refine Eq.trans (bind_eq_ite (member_ofFields (inverts_string t.text) rfl room)
    (bind_eq_ite (member_ofFields t.kind.inverts rfl room) (pure_eq_ite _))) ?_
  simp

theorem PreparedTemplate.within (t : PreparedTemplate) : t.toJson.Within 1 :=
  .ofFields (by simp) (by simp [t.kind.within])

theorem CompiledQuery.inverts (q : CompiledQuery) : Inverts decoder q.toJson q := by
  refine inverts_record (by simp) fun room => ?_
  refine Eq.trans (bind_eq_ite (member_ofFields (inverts_string q.query) rfl room)
    (bind_eq_ite (member_ofFields q.kind.inverts rfl room) (pure_eq_ite _))) ?_
  simp

theorem CompiledQuery.within (q : CompiledQuery) : q.toJson.Within 1 :=
  .ofFields (by simp) (by simp [q.kind.within])

/-! ### Owners and operations -/

theorem FieldOwner.inverts (owner : FieldOwner) : Inverts decoder owner.toJson owner := by
  intro room
  cases room with
  | zero => cases owner <;> rfl
  | succ room => cases owner <;> rfl

theorem FieldOwner.within (owner : FieldOwner) : owner.toJson.Within 1 := by
  cases owner <;> exact .ofFields (by simp) (by simp)

theorem ReturnShape.inverts (shape : ReturnShape) : Inverts decoder shape.toJson shape :=
  inverts_choice (by cases shape <;> rfl)

theorem ReturnShape.inverts_ofOption (shape : Option ReturnShape) :
    Inverts (nullable decoder) (.ofOption toJson shape) shape :=
  Decoder.inverts_ofOption (fun shape _ => shape.inverts) fun _ => nofun

theorem ReturnShape.within {k : Nat} (shape : Option ReturnShape) : (Json.ofOption toJson shape).Within k :=
  .ofOption (fun _ => .string _) shape

theorem Operation.inverts (op : Operation) : Inverts decoder op.toJson op := by
  refine inverts_record (by simp) fun room => ?_
  refine Eq.trans (bind_eq_ite (member_ofFields op.owner.inverts rfl room)
    (bind_eq_ite (member_ofFields (inverts_string op.field) rfl room)
    (bind_eq_ite (member_ofFields op.template.inverts rfl room)
    (bind_eq_ite (member_ofFields (inverts_bool op.task) rfl room)
    (bind_eq_ite (member_ofFields (inverts_string op.responseType) rfl room)
    (bind_eq_ite (member_ofFields (inverts_bool op.list) rfl room)
    (bind_eq_ite (memberOrNull_ofFields (ReturnShape.inverts_ofOption op.returnShape) rfl room)
      (pure_eq_ite _)))))))) ?_
  simp

theorem Operation.within (op : Operation) : op.toJson.Within 2 :=
  .ofFields (by simp) (by simp [op.owner.within, op.template.within, ReturnShape.within])

theorem OperationSet.inverts (s : OperationSet) : Inverts decoder s.toJson s := by
  refine inverts_record (by simp) fun room => ?_
  refine Eq.trans (bind_eq_ite (member_ofFields (inverts_list fun op _ => op.inverts) rfl room)
    (bind_eq_ite (member_ofFields (inverts_nameSet s.joinTables) rfl room) (pure_eq_ite _))) ?_
  simp

theorem NameSet.within (s : NameSet) : (NameSet.toJson s).Within 1 := .array Within.string s.names

theorem OperationSet.within (s : OperationSet) : s.toJson.Within 4 :=
  .ofFields (by simp) (by
    simp [Within.array Operation.within s.operations, s.joinTables.within.mono (by decide : 1 ≤ 3)])

/-! ### Metadata -/

theorem Behaviour.inverts (b : Behaviour) : Inverts decoder b.toJson b := by
  cases b with
  | plain => exact inverts_tagged_alone fun _ => rfl
  | taskResponse => exact inverts_tagged_alone fun _ => rfl
  | resolver => exact inverts_tagged_alone fun _ => rfl
  | dataAccess template =>
    refine inverts_tagged (by decide) trivial trivial (inverts_record (by simp) fun room => ?_)
    refine Eq.trans (bind_eq_ite (member_ofFields (inverts_string template) rfl room) (pure_eq_ite _)) ?_
    simp

theorem Behaviour.within (b : Behaviour) : b.toJson.Within 1 := by
  cases b <;> exact .ofFields (by simp) (by simp)

theorem ArgumentInfo.inverts (a : ArgumentInfo) : Inverts decoder a.toJson a := by
  refine inverts_record (by simp) fun room => ?_
  refine Eq.trans (bind_eq_ite (member_ofFields (inverts_string a.name) rfl room)
    (bind_eq_ite (member_ofFields (inverts_string a.typeName) rfl room)
    (bind_eq_ite (member_ofFields (inverts_bool a.required) rfl room)
    (bind_eq_ite (member_ofFields (inverts_bool a.list) rfl room) (pure_eq_ite _))))) ?_
  simp

theorem ArgumentInfo.within (a : ArgumentInfo) : a.toJson.Within 1 := .ofFields (by simp) (by simp)

theorem FieldInfo.inverts (f : FieldInfo) : Inverts decoder f.toJson f := by
  refine inverts_record (by simp) fun room => ?_
  refine Eq.trans (bind_eq_ite (member_ofFields (inverts_string f.name) rfl room)
    (bind_eq_ite (member_ofFields (inverts_string f.typeName) rfl room)
    (bind_eq_ite (member_ofFields (inverts_bool f.required) rfl room)
    (bind_eq_ite (member_ofFields (inverts_bool f.list) rfl room)
    (bind_eq_ite (member_ofFields (inverts_list fun a _ => a.inverts) rfl room)
    (bind_eq_ite (member_ofFields f.behaviour.inverts rfl room)
    (bind_eq_ite (member_ofFields (inverts_bool f.task) rfl room)
    (bind_eq_ite (memberOrNull_ofFields (ReturnShape.inverts_ofOption f.returnShape) rfl room)
      (pure_eq_ite _))))))))) ?_
  simp

theorem FieldInfo.within (f : FieldInfo) : f.toJson.Within 3 :=
  .ofFields (by simp) (by
    simp [Within.array ArgumentInfo.within f.arguments, f.behaviour.within.mono (by decide : 1 ≤ 2),
      ReturnShape.within])

theorem TypeInfo.inverts (t : TypeInfo) : Inverts decoder t.toJson t := by
  refine inverts_record (by simp) fun room => ?_
  refine Eq.trans (bind_eq_ite (member_ofFields (inverts_string t.name) rfl room)
    (bind_eq_ite (member_ofFields (inverts_list fun f _ => f.inverts) rfl room)
    (bind_eq_ite (member_ofFields (inverts_bool t.resolver) rfl room)
    (bind_eq_ite (member_ofFields (inverts_bool t.primitive) rfl room)
    (bind_eq_ite (member_ofFields (inverts_bool t.taskResponse) rfl room) (pure_eq_ite _)))))) ?_
  simp

theorem TypeInfo.within (t : TypeInfo) : t.toJson.Within 5 :=
  .ofFields (by simp) (by simp [Within.array FieldInfo.within t.fields])

theorem Metadata.inverts (m : Metadata) : Inverts decoder m.toJson m := by
  refine inverts_record (by simp) fun room => ?_
  refine Eq.trans (bind_eq_ite (member_ofFields (inverts_list fun t _ => t.inverts) rfl room)
    (bind_eq_ite (member_ofFields (inverts_list fun f _ => f.inverts) rfl room)
    (bind_eq_ite (member_ofFields (inverts_list fun f _ => f.inverts) rfl room)
    (bind_eq_ite (member_ofFields (inverts_list fun name _ => inverts_string name) rfl room)
    (bind_eq_ite (member_ofFields (inverts_nameSet m.joinTables) rfl room) (pure_eq_ite _)))))) ?_
  simp

theorem Metadata.within (m : Metadata) : m.toJson.Within 7 := by
  have hfields (fs : List FieldInfo) : (Json.array (fs.map FieldInfo.toJson)).Within 6 :=
    (Within.array FieldInfo.within fs).mono (by decide)
  exact .ofFields (by simp) (by
    simp [Within.array TypeInfo.within m.types, hfields, Within.array (k := 5) Within.string m.enums,
      m.joinTables.within.mono (by decide : 1 ≤ 6)])

end SchemaQuery
