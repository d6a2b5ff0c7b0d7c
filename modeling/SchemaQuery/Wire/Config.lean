import SchemaQuery.Config
import SchemaQuery.Wire.Decoder

/-!
The JSON form of the configuration. Every part that is missing has its standard value.
-/

namespace SchemaQuery

open Decoder (member memberOrNull memberOr)

/-- An integer of 64 bits without sign. -/
def Json.ofWord (n : UInt64) : Json := .nat n.toNat

/-- The naming of join tables is written as a record. -/
def TableNaming.toJson (naming : TableNaming) : Json :=
  .ofFields [("prefix", .string naming.leading),
    ("overrides", .ofDictionary (naming.overrides.map .string))]

/-- Reads the naming of join tables. -/
def TableNaming.decoder : Decoder TableNaming :=
  .record ["prefix", "overrides"] fun room slot => do
    return {
      leading := ← memberOr Decoder.string "" room (slot "prefix")
      overrides := ← memberOr (Decoder.dictionary Decoder.string) ∅ room (slot "overrides") }

/-- The keeping of tasks is written as a record. -/
def TaskConfig.toJson (c : TaskConfig) : Json :=
  .ofFields [("max_age_secs", .ofOption .ofWord c.maxAgeSecs),
    ("sweep_interval_secs", .ofWord c.sweepIntervalSecs),
    ("engine_timeout_secs", .ofWord c.engineTimeoutSecs)]

/-- Reads the keeping of tasks. -/
def TaskConfig.decoder : Decoder TaskConfig :=
  .record ["max_age_secs", "sweep_interval_secs", "engine_timeout_secs"] fun room slot => do
    return {
      maxAgeSecs := ← memberOrNull Decoder.word room (slot "max_age_secs")
      sweepIntervalSecs :=
        ← memberOr Decoder.word TaskConfig.standard.sweepIntervalSecs room (slot "sweep_interval_secs")
      engineTimeoutSecs :=
        ← memberOr Decoder.word TaskConfig.standard.engineTimeoutSecs room (slot "engine_timeout_secs") }

/-- A configuration is written as a record. -/
def Config.toJson (c : Config) : Json :=
  .ofFields [("join_tables", c.joinTables.toJson), ("tasks", c.tasks.toJson)]

/-- Reads a configuration. -/
def Config.decoder : Decoder Config :=
  .record ["join_tables", "tasks"] fun room slot => do
    return {
      joinTables := ← memberOr TableNaming.decoder default room (slot "join_tables")
      tasks := ← memberOr TaskConfig.decoder default room (slot "tasks") }

end SchemaQuery
