import SchemaQuery.Proofs.Wire.Reading
import SchemaQuery.Wire.Config

/-!
The decoder of configurations inverts their encodings, and no encoding of one is nested deeply.
-/

namespace SchemaQuery

open Decoder
open Json (Within)

theorem TableNaming.inverts (naming : TableNaming) : Inverts decoder naming.toJson naming := by
  have hoverrides : Inverts (dictionary string) (.ofDictionary (naming.overrides.map .string))
      naming.overrides := inverts_dictionary fun e _ => inverts_string e.2
  refine inverts_record (by simp) fun room => ?_
  refine Eq.trans (bind_eq_ite (memberOr_ofFields (inverts_string naming.leading) "" rfl room)
    (bind_eq_ite (memberOr_ofFields hoverrides ∅ rfl room) (pure_eq_ite _))) ?_
  simp

theorem TableNaming.within (naming : TableNaming) : naming.toJson.Within 2 :=
  .ofFields (by simp) (by simp [Within.ofDictionary (k := 0) Within.string naming.overrides])

theorem TaskConfig.inverts (c : TaskConfig) : Inverts decoder c.toJson c := by
  have hage : Inverts (nullable word) (.ofOption .ofWord c.maxAgeSecs) c.maxAgeSecs :=
    inverts_ofOption (fun n _ => inverts_word n) fun _ => nofun
  refine inverts_record (by simp) fun room => ?_
  refine Eq.trans (bind_eq_ite (memberOrNull_ofFields hage rfl room)
    (bind_eq_ite (memberOr_ofFields (inverts_word c.sweepIntervalSecs) _ rfl room)
    (bind_eq_ite (memberOr_ofFields (inverts_word c.engineTimeoutSecs) _ rfl room) (pure_eq_ite _)))) ?_
  simp

theorem TaskConfig.within (c : TaskConfig) : c.toJson.Within 1 :=
  .ofFields (by simp) (by simp [Within.ofOption Within.ofWord c.maxAgeSecs])

theorem Config.inverts (c : Config) : Inverts decoder c.toJson c := by
  refine inverts_record (by simp) fun room => ?_
  refine Eq.trans (bind_eq_ite (memberOr_ofFields c.joinTables.inverts _ rfl room)
    (bind_eq_ite (memberOr_ofFields c.tasks.inverts _ rfl room) (pure_eq_ite _))) ?_
  simp

theorem Config.within (c : Config) : c.toJson.Within 3 :=
  .ofFields (by simp) (by simp [c.joinTables.within, c.tasks.within.mono (by decide : 1 ≤ 2)])

end SchemaQuery
