import ObjectStore.Text.Basic
import ObjectStore.Text.Lower
import ObjectStore.Text.Outline
import ObjectStore.Binary64.Basic
import ObjectStore.Binary64.Rounding
import ObjectStore.Decimal.Digits
import ObjectStore.Binary64.Notation
import ObjectStore.Keyed
import ObjectStore.Calendar.Civil
import ObjectStore.Calendar.Day
import ObjectStore.Calendar.Reader
import ObjectStore.Calendar.Writer
import ObjectStore.Json
import ObjectStore.Value.Basic
import ObjectStore.Value.Order
import ObjectStore.Schema.AttributeType
import ObjectStore.Schema.DisplayFormat
import ObjectStore.Value.SortOrder
import ObjectStore.Record
import ObjectStore.Record.Reader
import ObjectStore.Schema.ObjectType
import ObjectStore.Filter.Error
import ObjectStore.Filter.Lexer
import ObjectStore.Filter.Condition
import ObjectStore.Filter.Parser
import ObjectStore.Filter.Compile
import ObjectStore.Filter.NormalForm
import ObjectStore.Query.Basic
import ObjectStore.Adapter.Basic
import ObjectStore.Adapter.Read
import ObjectStore.Entity.Basic
import ObjectStore.Entity.Copy
import ObjectStore.World.Basic
import ObjectStore.World.Batch
import ObjectStore.World.Load
import ObjectStore.World.Task
import ObjectStore.World.Outline
import ObjectStore.Proofs.Keyed
import ObjectStore.Proofs.Filter.NormalForm
import ObjectStore.Proofs.Filter.Grammar
import ObjectStore.Proofs.Filter.Parser
import ObjectStore.Proofs.Filter.Pieces
import ObjectStore.Proofs.Filter.Printer
import ObjectStore.Proofs.Filter.RoundTrip
import ObjectStore.Proofs.Value.SortOrder
import ObjectStore.Proofs.Calendar.Civil
import ObjectStore.Proofs.Calendar.Digits
import ObjectStore.Proofs.Calendar.RoundTrip
import ObjectStore.Proofs.Binary64.Rounding
import ObjectStore.Proofs.Value.TotalOrder
import ObjectStore.Proofs.Json
import ObjectStore.Proofs.Value.Comparison
import ObjectStore.Proofs.Schema.Cast
import ObjectStore.Proofs.Schema.Operands
import ObjectStore.Proofs.Filter.Binding
import ObjectStore.Proofs.Filter.Trichotomy
import ObjectStore.Proofs.Filter.Choice
import ObjectStore.Proofs.Filter.Placeholders
import ObjectStore.Proofs.Filter.Entries
import ObjectStore.Proofs.Filter.Distribution
import ObjectStore.Proofs.Filter.ClauseLimit
import ObjectStore.Proofs.Filter.CanonicalForm
import ObjectStore.Proofs.Entity.Hydration
import ObjectStore.Proofs.Entity.StoredTimes
import ObjectStore.Proofs.Schema.StoredValues
import ObjectStore.Proofs.Schema.StoredScalars
import ObjectStore.Proofs.Adapter.Sort
import ObjectStore.Proofs.Adapter.Content
import ObjectStore.Proofs.Adapter.OneByOne
import ObjectStore.Proofs.Adapter.Matching
import ObjectStore.Proofs.Adapter.Query
import ObjectStore.Proofs.Adapter.Lookup
import ObjectStore.Proofs.Entity.Links
import ObjectStore.Proofs.Entity.Parts
import ObjectStore.Proofs.Entity.WellTyped
import ObjectStore.Proofs.World.Batch
import ObjectStore.Proofs.World.Frame
import ObjectStore.Proofs.World.Handle
import ObjectStore.Proofs.World.PendingWrite
import ObjectStore.Proofs.World.Run
import ObjectStore.Proofs.World.Lookup
import ObjectStore.Proofs.Entity.Writes
import ObjectStore.Proofs.World.EditSession
import ObjectStore.Proofs.World.Lifecycle
import ObjectStore.Proofs.World.Intents
import ObjectStore.Proofs.World.Execution
import ObjectStore.Proofs.World.Coherence
import ObjectStore.Proofs.World.Loads
import ObjectStore.Proofs.World.Preloads
import ObjectStore.Proofs.World.Tasks
import ObjectStore.Proofs.World.WellTyped
import ObjectStore.Proofs.World.ValueSession
import ObjectStore.Proofs.World.LinkSession
import ObjectStore.Proofs.World.SharedLoad
import ObjectStore.Proofs.World.AskSession
import ObjectStore.Proofs.Entity.Edits
import ObjectStore.Proofs.Adapter.ValueQuery
import ObjectStore.Proofs.Entity.ReverseLookup
import ObjectStore.Proofs.Entity.EditedValues
import ObjectStore.Proofs.World.SavedEdits
import ObjectStore.Proofs.World.SavePlacement
import ObjectStore.Proofs.World.SavedParts
import ObjectStore.Proofs.World.FoundAgain
import ObjectStore.Proofs.World.PreloadPlan
import ObjectStore.Proofs.World.PreloadArrival
import ObjectStore.Proofs.World.PreloadProgress
import ObjectStore.Proofs.World.PreloadLevels
import ObjectStore.Proofs.World.PreloadSteps
import ObjectStore.Proofs.World.PreloadFetch
import ObjectStore.Proofs.World.PreloadWalk
import ObjectStore.Proofs.Schema.ReadBack
import ObjectStore.Proofs.Value.SortAgreement
import ObjectStore.Proofs.Entity.PatchedRecord
import ObjectStore.Proofs.Value.Untyped
import ObjectStore.Proofs.Entity.StoredLists
import ObjectStore.Proofs.World.ReloadedLists
import ObjectStore.Proofs.World.SaveWalk
import ObjectStore.Proofs.World.SaveReach
import ObjectStore.Proofs.World.SaveAgain
import ObjectStore.Proofs.World.IntentOrder
import ObjectStore.Proofs.Calendar.DateOrder
import ObjectStore.Proofs.Calendar.WrittenDay
import ObjectStore.Proofs.Schema.TextForm
import ObjectStore.Proofs.Schema.DayOperand
import ObjectStore.Proofs.Text.Search
import ObjectStore.Proofs.World.FreshId
import ObjectStore.Proofs.Entity.FaithfulCopy
import ObjectStore.Proofs.World.FailedCalls
import ObjectStore.Proofs.World.OwnSave
import ObjectStore.Proofs.World.ReloadedEdits
import ObjectStore.Proofs.World.CopiedEntity
import ObjectStore.Proofs.World.PreloadPaths
import ObjectStore.Proofs.World.AcceptedPaths
import ObjectStore.Proofs.World.PreloadErrors
import ObjectStore.Proofs.Filter.Lexeme
import ObjectStore.Proofs.Filter.Layout
import ObjectStore.Proofs.Filter.Respacing
import ObjectStore.Proofs.Filter.Placement
import ObjectStore.Proofs.Filter.Peeking
import ObjectStore.Proofs.Filter.LostWords
import ObjectStore.Proofs.Filter.Formation
import ObjectStore.Proofs.Filter.SourcePlaces
import ObjectStore.Proofs.Filter.LineColumn
import ObjectStore.Proofs.Filter.Underline
import ObjectStore.Proofs.Filter.PositionOrder
import ObjectStore.Proofs.Schema.Template
