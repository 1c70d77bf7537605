import FactCube.Main
import FactCube.Cube.Collecting
import FactCube.Cube.Report
import FactCube.Model.Notation
import FactCube.Model.Validation
import FactCube.Source.Rows
import FactCube.Proofs.ValueOrder
import FactCube.Proofs.MixedOrder
import FactCube.Proofs.RowMapping
import FactCube.Proofs.Identity
import FactCube.Proofs.Batches
import FactCube.Proofs.TypedFacts
import FactCube.Proofs.GroupBy
import FactCube.Proofs.Partitions
import FactCube.Proofs.Reordering
import FactCube.Proofs.Paths
import FactCube.Proofs.Collections
import FactCube.Proofs.Acceptance
import FactCube.Proofs.ViewQueries
import FactCube.Proofs.OrderedMap
import FactCube.Proofs.LenientLoads
import FactCube.Proofs.KeylessLoads
import FactCube.Proofs.DocumentText
import FactCube.Proofs.ConsecutiveLoads
import FactCube.Proofs.Selection
import FactCube.Proofs.Paging
import FactCube.Proofs.ExportedFacts
import FactCube.Proofs.RowOrder
import FactCube.Proofs.Columns
import FactCube.Proofs.TaxonomyIndexes
import FactCube.Proofs.DateParts
import FactCube.Proofs.Members
import FactCube.Proofs.RollUps
import FactCube.Proofs.DistinctValues
import FactCube.Proofs.GrowingCollections
import FactCube.Proofs.ConditionGroups
import FactCube.Proofs.RejectedDimensions
import FactCube.Proofs.TablesReadBack
import FactCube.Proofs.TableColumns
import FactCube.Proofs.CheckedRuns
