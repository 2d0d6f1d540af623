import StepGraph.Document.Encoding
import StepGraph.Main
import StepGraph.Proofs.Addressing
import StepGraph.Proofs.DepthBound
import StepGraph.Proofs.Descent
import StepGraph.Proofs.Distinctness
import StepGraph.Proofs.Equivalence
import StepGraph.Proofs.ExecutedNames
import StepGraph.Proofs.FieldSelection
import StepGraph.Proofs.FieldSetting
import StepGraph.Proofs.Hiding
import StepGraph.Proofs.Indexing
import StepGraph.Proofs.Inlining
import StepGraph.Proofs.IntegerComparison
import StepGraph.Proofs.Isolation
import StepGraph.Proofs.Iteration
import StepGraph.Proofs.Memoization
import StepGraph.Proofs.Merging
import StepGraph.Proofs.NestedCalls
import StepGraph.Proofs.NestingBound
import StepGraph.Proofs.OrderIndependence
import StepGraph.Proofs.Output
import StepGraph.Proofs.Projection
import StepGraph.Proofs.RoundTrip
import StepGraph.Proofs.Segments
import StepGraph.Proofs.Selection
import StepGraph.Proofs.Settling
import StepGraph.Proofs.Spelling
import StepGraph.Proofs.StepTypes
import StepGraph.Proofs.Tracing
