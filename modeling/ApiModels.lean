import ApiModels.Main
import ApiModels.Proofs.Report.Failures
import ApiModels.Proofs.Report.InheritedViews
import ApiModels.Proofs.Report.UnionLinks
import ApiModels.Proofs.Document.Ancestry
import ApiModels.Proofs.Report.CyclicParents
import ApiModels.Proofs.Resolution.Origins
import ApiModels.Proofs.Resolution.Courses
import ApiModels.Proofs.Report.ParentsBuilt
import ApiModels.Proofs.Resolution.Askers
import ApiModels.Proofs.Report.NameClashes
import ApiModels.Proofs.Report.Reorderings
import ApiModels.Proofs.Document.Orders
import ApiModels.Proofs.Model.Twins
import ApiModels.Proofs.Resolution.Mirrors
import ApiModels.Proofs.Resolution.Tidiness
import ApiModels.Proofs.Resolution.Forecasts
import ApiModels.Proofs.Report.SteadyRuns
import ApiModels.Proofs.Report.SteadyModels
import ApiModels.Proofs.Report.ParentLines
import ApiModels.Proofs.Report.MutualLinks
import ApiModels.Proofs.Resolution.Calls
import ApiModels.Proofs.Model.Partitions
import ApiModels.Proofs.Report.ConsistentModels
import ApiModels.Proofs.Resolution.Warnings
import ApiModels.Proofs.Report.ReportedFailures
import ApiModels.Proofs.Resolution.Memoization
import ApiModels.Proofs.Document.Arms
import ApiModels.Proofs.Resolution.Termination
import ApiModels.Proofs.Resolution.Isolation
import ApiModels.Proofs.Report.IsolatedFailures
import ApiModels.Proofs.Report.BareAliases
import ApiModels.Proofs.Report.CompleteImports
import ApiModels.Proofs.Report.SoundImports
import ApiModels.Proofs.Document.Rereading
import ApiModels.Proofs.Document.Pointers
import ApiModels.Proofs.Resolution.Rounds
import ApiModels.Proofs.Report.RequiredProperties
import ApiModels.Proofs.Report.KeptDeclarations
import ApiModels.Proofs.Report.InheritedAliases
import ApiModels.Proofs.Document.Walks
import ApiModels.Proofs.Resolution.ItemChains
import ApiModels.Proofs.Resolution.AliasedProperties
import ApiModels.Proofs.Report.Remarks
import ApiModels.Proofs.Report.ReportedBranches
import ApiModels.Proofs.Model.Layouts
import ApiModels.Proofs.Report.MergedViews
import ApiModels.Proofs.Document.Routes
import ApiModels.Proofs.Resolution.Signatures
import ApiModels.Proofs.Schema.Containers
import ApiModels.Proofs.Resolution.NamedTypes
import ApiModels.Proofs.Resolution.ContainerModels
import ApiModels.Proofs.Document.SchemaFiles
import ApiModels.Proofs.Document.Fingerprints
import ApiModels.Proofs.Naming.Identifiers
import ApiModels.Proofs.Naming.EscapedTexts
import ApiModels.Proofs.Handlers.DerivedNames
import ApiModels.Proofs.Model.Precedence
