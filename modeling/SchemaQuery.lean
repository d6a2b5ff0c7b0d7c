import SchemaQuery.Collection.Dictionary
import SchemaQuery.Collection.Entry
import SchemaQuery.Collection.Keyed
import SchemaQuery.CommandLine.Grammar
import SchemaQuery.CommandLine.Invocation
import SchemaQuery.CommandLine.Run
import SchemaQuery.Config
import SchemaQuery.Config.File
import SchemaQuery.Error
import SchemaQuery.Execution.Memory
import SchemaQuery.Execution.Record
import SchemaQuery.Execution.State
import SchemaQuery.Json.Node
import SchemaQuery.Json.Print
import SchemaQuery.Json.Value
import SchemaQuery.Main
import SchemaQuery.Number.Binary64
import SchemaQuery.Number.Decimal
import SchemaQuery.Number.Shortest
import SchemaQuery.Query.Argument
import SchemaQuery.Query.ByteScan
import SchemaQuery.Query.Classification
import SchemaQuery.Query.JoinTable
import SchemaQuery.Query.Kind
import SchemaQuery.Query.Placeholder
import SchemaQuery.Query.Segment
import SchemaQuery.Query.Template
import SchemaQuery.Schema.Extraction
import SchemaQuery.Schema.Metadata
import SchemaQuery.Schema.Operation
import SchemaQuery.Schema.Shape
import SchemaQuery.Sdl.Document
import SchemaQuery.Sdl.Grammar
import SchemaQuery.Sdl.Token
import SchemaQuery.Task.Basic
import SchemaQuery.Task.Registry
import SchemaQuery.Text.Blank
import SchemaQuery.Text.Utf8
import SchemaQuery.Text.Word
import SchemaQuery.Text.Invisible
import SchemaQuery.Text.Occurrence
import SchemaQuery.Time.Instant
import SchemaQuery.Time.Span
import SchemaQuery.Toml.Document
import SchemaQuery.Toml.Node
import SchemaQuery.Toml.Quoted
import SchemaQuery.Toml.Scalar
import SchemaQuery.Tracker.Call
import SchemaQuery.Tracker.Machine
import SchemaQuery.Tracker.Protocol
import SchemaQuery.Tracker.Reaper
import SchemaQuery.Tracker.Run
import SchemaQuery.Tracker.Simulation
import SchemaQuery.Wire.Argument
import SchemaQuery.Wire.Config
import SchemaQuery.Wire.Decoder
import SchemaQuery.Wire.Execution
import SchemaQuery.Wire.Query
import SchemaQuery.Wire.Schema
import SchemaQuery.Wire.Task
import SchemaQuery.Proofs.Fallible
import SchemaQuery.Proofs.Query.Outline
import SchemaQuery.Proofs.Query.ValueText
import SchemaQuery.Proofs.Query.Fragment
import SchemaQuery.Proofs.Query.Placeholder
import SchemaQuery.Proofs.Query.Rendering
import SchemaQuery.Proofs.Query.Injection
import SchemaQuery.Proofs.Collection.Keyed
import SchemaQuery.Proofs.Task.Lifecycle
import SchemaQuery.Proofs.Task.Registry
import SchemaQuery.Proofs.Task.Garbage
import SchemaQuery.Proofs.Tracker.Ensures
import SchemaQuery.Proofs.Tracker.Machine
import SchemaQuery.Proofs.Tracker.Sound
import SchemaQuery.Proofs.Tracker.WriteOnce
import SchemaQuery.Proofs.Task.Tables
import SchemaQuery.Proofs.Task.Record
import SchemaQuery.Proofs.Tracker.Requests
import SchemaQuery.Proofs.Tracker.Records
import SchemaQuery.Proofs.Tracker.Phase
import SchemaQuery.Proofs.Tracker.Trigger
import SchemaQuery.Proofs.Tracker.Reservation
import SchemaQuery.Proofs.Tracker.TriggerOnce
import SchemaQuery.Proofs.Tracker.Thinned
import SchemaQuery.Proofs.Tracker.Pace
import SchemaQuery.Proofs.Tracker.Unseen
import SchemaQuery.Proofs.Text.Blank
import SchemaQuery.Proofs.Text.Marked
import SchemaQuery.Proofs.Query.JoinTable
import SchemaQuery.Proofs.Query.Resolution
import SchemaQuery.Proofs.Query.Zone
import SchemaQuery.Proofs.Query.Opacity
import SchemaQuery.Proofs.Query.Fusion
import SchemaQuery.Proofs.Query.Classification
import SchemaQuery.Proofs.Query.ReportedKind
import SchemaQuery.Proofs.Schema.Extraction
import SchemaQuery.Proofs.Schema.Discovery
import SchemaQuery.Proofs.Query.Refusal
import SchemaQuery.Proofs.Schema.Preparation
import SchemaQuery.Proofs.Schema.Objects
import SchemaQuery.Proofs.Schema.Placement
import SchemaQuery.Proofs.Schema.Reordering
import SchemaQuery.Proofs.Tracker.Turns
import SchemaQuery.Proofs.Tracker.Linearization
import SchemaQuery.Proofs.Tracker.Sweep
import SchemaQuery.Proofs.Tracker.SweepCount
import SchemaQuery.Proofs.Collection.Dictionary
import SchemaQuery.Proofs.Number.Digits
import SchemaQuery.Proofs.Toml.Quoted
import SchemaQuery.Proofs.Toml.Document
import SchemaQuery.Proofs.Config.File
import SchemaQuery.Proofs.Json.Scalar
import SchemaQuery.Proofs.Json.Text
import SchemaQuery.Proofs.Json.Value
import SchemaQuery.Proofs.Wire.Decoder
import SchemaQuery.Proofs.Wire.Reading
import SchemaQuery.Proofs.Wire.Schema
import SchemaQuery.Proofs.Wire.Config
import SchemaQuery.Proofs.Wire.Task
import SchemaQuery.Proofs.Tracker.Checked
import SchemaQuery.Proofs.Wire.RoundTrip
import SchemaQuery.Proofs.Query.Arrival
import SchemaQuery.Proofs.Tracker.Poll
import SchemaQuery.Proofs.Execution.Record
import SchemaQuery.Proofs.Tracker.Shaping
import SchemaQuery.Proofs.Query.Reference
import SchemaQuery.Proofs.Sdl.Names
import SchemaQuery.Proofs.Schema.Addressing
import SchemaQuery.Proofs.Schema.Inference
import SchemaQuery.Proofs.Tracker.Attempt
import SchemaQuery.Proofs.Text.Dotted
import SchemaQuery.Proofs.Query.Delimiter
import SchemaQuery.Proofs.Query.Replacement
import SchemaQuery.Proofs.Execution.Memory
import SchemaQuery.Proofs.Query.Keyword
import SchemaQuery.Proofs.Tracker.Reaper
import SchemaQuery.Proofs.Query.ByteScan
