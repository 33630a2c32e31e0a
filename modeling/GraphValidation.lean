import GraphValidation.Path
import GraphValidation.Text.Blank
import GraphValidation.Json.Outline
import GraphValidation.Type.Ref
import GraphValidation.Access
import GraphValidation.Message
import GraphValidation.Validator
import GraphValidation.Metadata.Cache
import GraphValidation.Metadata.Features
import GraphValidation.Path.Reader
import GraphValidation.Constraint.Node
import GraphValidation.Constraint.Builtin
import GraphValidation.Pattern.Basic
import GraphValidation.Mapping.Loader
import GraphValidation.Inspection
import GraphValidation.Proofs.Findings
import GraphValidation.Proofs.Survey
import GraphValidation.Proofs.Tracking
import GraphValidation.Proofs.AtStop
import GraphValidation.Proofs.Passage
import GraphValidation.Proofs.Calls
import GraphValidation.Proofs.Metadata
import GraphValidation.Proofs.Itinerary
import GraphValidation.Proofs.Duties
import GraphValidation.Proofs.Location
import GraphValidation.Proofs.Depth
import GraphValidation.Proofs.DepthFirst
import GraphValidation.Proofs.Sweeps
import GraphValidation.Proofs.Exploration
import GraphValidation.Proofs.Settling
import GraphValidation.Proofs.Sequences
import GraphValidation.Proofs.Shadowing
import GraphValidation.Proofs.Covering
import GraphValidation.Proofs.Tracing
import GraphValidation.Proofs.Independence
import GraphValidation.Proofs.Ancestry
import GraphValidation.Proofs.Hierarchy
import GraphValidation.Proofs.Inheritance
import GraphValidation.Proofs.CascadeTargets
import GraphValidation.Proofs.Spelling
import GraphValidation.Proofs.Navigation
import GraphValidation.Proofs.PropertyCalls
import GraphValidation.Proofs.Placeless
import GraphValidation.Proofs.Reordering
import GraphValidation.Proofs.PropertyOrder
import GraphValidation.Proofs.Fetching
import GraphValidation.Proofs.Tasks
import GraphValidation.Proofs.SideBySide
import GraphValidation.Proofs.Abreast
import GraphValidation.Proofs.Asking
import GraphValidation.Proofs.Histories
import GraphValidation.Proofs.Whereabouts
import GraphValidation.Proofs.Fence
import GraphValidation.Proofs.Anew
import GraphValidation.Proofs.DefaultSequences
import GraphValidation.Proofs.Yields
import GraphValidation.Proofs.Rows
import GraphValidation.Proofs.ValueCalls
import GraphValidation.Proofs.Outlasting
import GraphValidation.Proofs.Fresh
import GraphValidation.Proofs.Instanceless
import GraphValidation.Proofs.Accounts
import GraphValidation.Proofs.Hindsight
import GraphValidation.Proofs.RootProperty
import GraphValidation.Proofs.Descent
import GraphValidation.Proofs.OwnSequences
import GraphValidation.Proofs.NearestFirst
import GraphValidation.Proofs.Registration
import GraphValidation.Proofs.StandIns
import GraphValidation.Proofs.Expansions
import GraphValidation.Proofs.Compositions
import GraphValidation.Proofs.Rereading
import GraphValidation.Proofs.TypeExpressions
import GraphValidation.Proofs.OneReading
import GraphValidation.Proofs.Recording
import GraphValidation.Proofs.ValidatorChoice
import GraphValidation.Proofs.HandingDown
import GraphValidation.Proofs.DeclaredTypes
import GraphValidation.Proofs.LivePaths
import GraphValidation.Proofs.SubPaths
import GraphValidation.Proofs.Insertions
import GraphValidation.Proofs.SelfEquality
import GraphValidation.Proofs.RecordedOnce
import GraphValidation.Proofs.Answering
import GraphValidation.Proofs.Identifiers
import GraphValidation.Proofs.Members
import GraphValidation.Proofs.EntryOrder
import GraphValidation.Proofs.DocumentRoundTrip
import GraphValidation.Proofs.Directories
import GraphValidation.Proofs.Returning
import GraphValidation.Proofs.Remembering
import GraphValidation.Proofs.Economy
