import JsonTypeDefinition.Checks.Forms
import JsonTypeDefinition.Extension.EmptyMappings
import JsonTypeDefinition.Extension.LeapSeconds
import JsonTypeDefinition.Json.Reader
import JsonTypeDefinition.Schema.Compile
import JsonTypeDefinition.Validation.Walk
import JsonTypeDefinition.Proofs.Circuits
import JsonTypeDefinition.Proofs.SchemaForms
import JsonTypeDefinition.Proofs.SchemaErrors
import JsonTypeDefinition.Proofs.Origins
import JsonTypeDefinition.Proofs.DefinitionEdges
import JsonTypeDefinition.Proofs.DocumentErrors
import JsonTypeDefinition.Proofs.CircularDefinitions
import JsonTypeDefinition.Proofs.LibraryFaults
import JsonTypeDefinition.Proofs.StandsFor
import JsonTypeDefinition.Proofs.Arena
import JsonTypeDefinition.Proofs.Grammar
import JsonTypeDefinition.Proofs.Acceptance
import JsonTypeDefinition.Proofs.WalkTrace
import JsonTypeDefinition.Proofs.ReferenceChains
import JsonTypeDefinition.Proofs.WalkTermination
import JsonTypeDefinition.Proofs.Interpreter
import JsonTypeDefinition.Proofs.ErrorBlocks
import JsonTypeDefinition.Proofs.NodeOrErrors
import JsonTypeDefinition.Proofs.Limits
import JsonTypeDefinition.Proofs.SitePaths
import JsonTypeDefinition.Proofs.ArenaLayout
import JsonTypeDefinition.Proofs.ArenaInvariant
import JsonTypeDefinition.Proofs.Entries
import JsonTypeDefinition.Proofs.Places
import JsonTypeDefinition.Proofs.FaultPlaces
import JsonTypeDefinition.Proofs.UniqueLocations
import JsonTypeDefinition.Proofs.Stripping
import JsonTypeDefinition.Proofs.DeclaredKeys
import JsonTypeDefinition.Proofs.CoreErrors
import JsonTypeDefinition.Proofs.CoreViolations
import JsonTypeDefinition.Proofs.ChecksReading
import JsonTypeDefinition.Proofs.LegalChecks
import JsonTypeDefinition.Proofs.AcceptedChecks
import JsonTypeDefinition.Proofs.EnforcedChecks
import JsonTypeDefinition.Proofs.Interleaving
import JsonTypeDefinition.Proofs.ErrorPlans
import JsonTypeDefinition.Proofs.HeldExtensions
import JsonTypeDefinition.Proofs.ExtensionOrder
import JsonTypeDefinition.Proofs.Reordered
import JsonTypeDefinition.Proofs.ReorderedChecks
import JsonTypeDefinition.Proofs.ValueEquality
import JsonTypeDefinition.Proofs.ReorderedErrors
import JsonTypeDefinition.Proofs.ReorderedWalks
import JsonTypeDefinition.Proofs.TimestampTexts
import JsonTypeDefinition.Proofs.CivilDates
import JsonTypeDefinition.Proofs.WholeNumbers
import JsonTypeDefinition.Proofs.IntegerTypes
import JsonTypeDefinition.Proofs.TimestampInstants
import JsonTypeDefinition.Proofs.LeapSecondRejections
import JsonTypeDefinition.Proofs.KeySorting
import JsonTypeDefinition.Proofs.KeyClasses
import JsonTypeDefinition.Proofs.BoundReports
import JsonTypeDefinition.Proofs.CycleOrder
import JsonTypeDefinition.Proofs.SupplementRuns
import JsonTypeDefinition.Proofs.HookTurns
import JsonTypeDefinition.Proofs.Multiples
import JsonTypeDefinition.Proofs.FramedWalks
