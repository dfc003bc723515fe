import JavaStructure.Analysis
import JavaStructure.Command.Run
import JavaStructure.Dependencies.Cache
import JavaStructure.Files.Run
import JavaStructure.Grammar.RowText
import JavaStructure.Interchange.Output
import JavaStructure.Main
import JavaStructure.Settings
import JavaStructure.Proofs.Syntax.Preorder
import JavaStructure.Proofs.Syntax.Trails
import JavaStructure.Proofs.Grammar.Lowering
import JavaStructure.Proofs.Model.Balance
import JavaStructure.Proofs.Model.Growth
import JavaStructure.Proofs.Model.Entries
import JavaStructure.Proofs.Model.Arena
import JavaStructure.Proofs.Model.History
import JavaStructure.Proofs.Model.Indexes
import JavaStructure.Proofs.Building.Visit
import JavaStructure.Proofs.Building.Outline
import JavaStructure.Proofs.Building.Statements
import JavaStructure.Proofs.Building.Balance
import JavaStructure.Proofs.Building.Nesting
import JavaStructure.Proofs.Building.CaseConditions
import JavaStructure.Proofs.Building.Emissions
import JavaStructure.Proofs.Building.Attribution
import JavaStructure.Proofs.Files.Places
import JavaStructure.Proofs.Files.Steps
import JavaStructure.Proofs.Files.Directories
import JavaStructure.Proofs.Dependencies.Neighbours
import JavaStructure.Proofs.Files.Interleaving
import JavaStructure.Proofs.Dependencies.Contest
import JavaStructure.Proofs.Dependencies.Obedience
import JavaStructure.Proofs.Dependencies.Serialization
import JavaStructure.Proofs.Dependencies.StaleLocks
import JavaStructure.Proofs.Dependencies.Records
import JavaStructure.Proofs.Dependencies.RoundTrip
import JavaStructure.Proofs.Dependencies.Alone
import JavaStructure.Proofs.Dependencies.LatestRecords
import JavaStructure.Proofs.Building.Closure
import JavaStructure.Proofs.Building.Independence
import JavaStructure.Proofs.Interchange.References
import JavaStructure.Proofs.Resolution.Places
import JavaStructure.Proofs.Resolution.Visit
import JavaStructure.Proofs.Resolution.Notes
import JavaStructure.Proofs.Resolution.Fields
import JavaStructure.Proofs.Resolution.Variables
import JavaStructure.Proofs.Interchange.StatementLines
import JavaStructure.Proofs.Resolution.Snapshots
import JavaStructure.Proofs.Grammar.Numbering
import JavaStructure.Proofs.Resolution.Positions
import JavaStructure.Proofs.Resolution.Faithful
import JavaStructure.Proofs.Resolution.Condensed
import JavaStructure.Proofs.Model.Renaming
import JavaStructure.Proofs.Building.Condensed
import JavaStructure.Proofs.Grammar.Chains
import JavaStructure.Proofs.Grammar.CallNames
import JavaStructure.Proofs.Model.Signatures
import JavaStructure.Proofs.Building.Definitions
import JavaStructure.Proofs.Building.Signatures
import JavaStructure.Proofs.Building.NameSources
import JavaStructure.Proofs.Resolution.DeclaredClasses
import JavaStructure.Proofs.Resolution.Agreement
import JavaStructure.Proofs.Resolution.ContextOrder
import JavaStructure.Proofs.Interchange.AttributeValues
import JavaStructure.Proofs.Interchange.Markup
import JavaStructure.Proofs.Interchange.DocumentValues
import JavaStructure.Proofs.Interchange.DocumentTrees
import JavaStructure.Proofs.Building.GuardRuns
import JavaStructure.Proofs.Dependencies.ImportTexts
import JavaStructure.Proofs.Dependencies.ImportRecords
import JavaStructure.Proofs.Files.Endings
import JavaStructure.Proofs.Dependencies.Untouched
import JavaStructure.Proofs.Resolution.Refilled
import JavaStructure.Proofs.Resolution.Scoping
import JavaStructure.Proofs.Grammar.Switches
import JavaStructure.Proofs.Names.TypeTexts
import JavaStructure.Proofs.Resolution.Receivers
import JavaStructure.Proofs.Resolution.DeclaredVariables
import JavaStructure.Proofs.Files.FileNames
import JavaStructure.Proofs.Files.Parents
import JavaStructure.Proofs.Files.Ways
import JavaStructure.Proofs.Files.MakingDirectories
import JavaStructure.Proofs.Files.Deliveries
import JavaStructure.Proofs.Files.Obstacles
import JavaStructure.Proofs.Dependencies.Footprint
import JavaStructure.Proofs.Command.Isolation
import JavaStructure.Proofs.Command.Reading
import JavaStructure.Proofs.Command.Stages
import JavaStructure.Proofs.Interchange.DocumentNames
import JavaStructure.Proofs.Building.Constructors
import JavaStructure.Proofs.Building.Skeleton
import JavaStructure.Proofs.Building.Moments
import JavaStructure.Proofs.Text.LineHashes
import JavaStructure.Proofs.Files.Footprints
import JavaStructure.Proofs.Resolution.Superclasses
import JavaStructure.Proofs.Resolution.MemberSearches
