import PortableTypes.CommandLine.LogFormat
import PortableTypes.CommandLine.Run
import PortableTypes.Main
import PortableTypes.Program.Query
import PortableTypes.Proofs.Json.Decoded
import PortableTypes.Proofs.Json.Escapes
import PortableTypes.Proofs.Json.Numerals
import PortableTypes.Proofs.Json.Parts
import PortableTypes.Proofs.Json.Record
import PortableTypes.Proofs.Json.RoundTrip
import PortableTypes.Proofs.Json.Steps
import PortableTypes.Proofs.Number.BigIntegers
import PortableTypes.Proofs.Number.Exact
import PortableTypes.Proofs.Number.Whole
import PortableTypes.Proofs.Program.Ancestors
import PortableTypes.Proofs.Program.Building
import PortableTypes.Proofs.Program.Extension
import PortableTypes.Proofs.Program.Handles
import PortableTypes.Proofs.Program.NodeAt
import PortableTypes.Proofs.Program.Steps
import PortableTypes.Proofs.Projection.Extension
import PortableTypes.Proofs.Projection.Extraction
import PortableTypes.Proofs.Projection.Failures
import PortableTypes.Proofs.Projection.Ledger
import PortableTypes.Proofs.Projection.Locations
import PortableTypes.Proofs.Projection.Mirrors
import PortableTypes.Proofs.Projection.Modules
import PortableTypes.Proofs.Projection.Offers
import PortableTypes.Proofs.Projection.Outline
import PortableTypes.Proofs.Projection.Room
import PortableTypes.Proofs.Projection.Rules
import PortableTypes.Proofs.Projection.Shapes
import PortableTypes.Proofs.Projection.StartOffsets
import PortableTypes.Proofs.Projection.Statements
import PortableTypes.Proofs.Projection.Variants
import PortableTypes.Proofs.Session.Expansion
import PortableTypes.Proofs.Session.Extension
import PortableTypes.Proofs.Session.FreshKeys
import PortableTypes.Proofs.Session.GenericFilter
import PortableTypes.Proofs.Session.History
import PortableTypes.Proofs.Session.LiveKeys
import PortableTypes.Proofs.Session.Locations
import PortableTypes.Proofs.Session.Properties
import PortableTypes.Proofs.Session.Reexports
import PortableTypes.Proofs.Session.Relays
import PortableTypes.Proofs.Session.Results
import PortableTypes.Proofs.Session.Run
import PortableTypes.Proofs.Session.Statements
import PortableTypes.Proofs.Session.Violations
import PortableTypes.Proofs.Session.Wholesale
import PortableTypes.Proofs.Source.LineMap
import PortableTypes.Proofs.Source.LineStarts
import PortableTypes.Proofs.Source.Lines
import PortableTypes.Proofs.Source.Positions
import PortableTypes.Proofs.Store.Generations
import PortableTypes.Proofs.Store.Key
import PortableTypes.Proofs.Store.KeyTexts
import PortableTypes.Proofs.Text.Boundaries
import PortableTypes.Proofs.Text.Digits
import PortableTypes.Proofs.Text.Figures
import PortableTypes.Proofs.TypeObject.Leaves
import PortableTypes.Proofs.TypeObject.Nesting
import PortableTypes.Proofs.TypeObject.Rekey
import PortableTypes.Proofs.Wire.Form
import PortableTypes.Proofs.Wire.Program
import PortableTypes.Proofs.Wire.Snapshot
import PortableTypes.Proofs.Wire.Text
import PortableTypes.Proofs.Wire.TypeObject
import PortableTypes.Proofs.Wire.UnknownTypes
import PortableTypes.TypeObject.SameValue
import PortableTypes.Wire.Program
