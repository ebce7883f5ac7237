import ShapeContracts.Main
import ShapeContracts.Command.Rehearsal
import ShapeContracts.Model.Writer
import ShapeContracts.Proofs.Entries
import ShapeContracts.Proofs.Resolution
import ShapeContracts.Proofs.Discovery
import ShapeContracts.Proofs.Run
import ShapeContracts.Proofs.Fatal
import ShapeContracts.Proofs.FatalExact
import ShapeContracts.Proofs.References
import ShapeContracts.Proofs.Termination
import ShapeContracts.Proofs.Agreement
import ShapeContracts.Proofs.LoadOrder
import ShapeContracts.Proofs.Simulation
import ShapeContracts.Proofs.Bindings
import ShapeContracts.Proofs.Printing
import ShapeContracts.Proofs.Emitted
import ShapeContracts.Proofs.ImportPaths
import ShapeContracts.Proofs.Links
import ShapeContracts.Proofs.DeclaredNames
import ShapeContracts.Proofs.Places
import ShapeContracts.Proofs.Placeholders
import ShapeContracts.Proofs.TraitMarkers
import ShapeContracts.Proofs.Correspondence
import ShapeContracts.Proofs.Locality
import ShapeContracts.Proofs.PassOrder
import ShapeContracts.Proofs.Routing
import ShapeContracts.Proofs.Deferral
import ShapeContracts.Proofs.RecursiveMarkers
import ShapeContracts.Proofs.VisitationStack
import ShapeContracts.Proofs.Placement
import ShapeContracts.Proofs.Serialisation
import ShapeContracts.Proofs.InlineExpansion
import ShapeContracts.Proofs.IssuePaths
import ShapeContracts.Proofs.Defaults
import ShapeContracts.Proofs.Presence
import ShapeContracts.Proofs.DayCount
import ShapeContracts.Proofs.DateTimes
import ShapeContracts.Proofs.ImportBindings
import ShapeContracts.Proofs.Scanning
import ShapeContracts.Proofs.ClosedTexts
import ShapeContracts.Proofs.ClosedCode
import ShapeContracts.Proofs.CodePoints
import ShapeContracts.Proofs.DateTimeTexts
import ShapeContracts.Proofs.HttpDates
import ShapeContracts.Proofs.PatternMatches
import ShapeContracts.Proofs.PatternPieces
import ShapeContracts.Proofs.PatternReading
import ShapeContracts.Proofs.FullMatch
import ShapeContracts.Proofs.UniqueItems
import ShapeContracts.Proofs.RangeBounds
import ShapeContracts.Proofs.ReportedTraits
import ShapeContracts.Proofs.Idempotence
import ShapeContracts.Proofs.DocBlocks
import ShapeContracts.Proofs.Signatures
import ShapeContracts.Proofs.Interfaces
import ShapeContracts.Proofs.LineMarkers
import ShapeContracts.Proofs.Throws
import ShapeContracts.Proofs.Registration
import ShapeContracts.Proofs.Delivery
import ShapeContracts.Proofs.WideIntegers
import ShapeContracts.Proofs.Base64Texts
import ShapeContracts.Proofs.BlobDefaults
import ShapeContracts.Proofs.SchemaForms
import ShapeContracts.Proofs.FilesApart
