import EntityModel.Context.PathAccess
import EntityModel.Context.Paths
import EntityModel.Path.Cache
import EntityModel.Report.Entity
import EntityModel.Report.Path
import EntityModel.Report.Repository
import EntityModel.Report.Value
import EntityModel.Repository.Publisher
import EntityModel.Repository.Shared
import EntityModel.Proofs.Context.Answers
import EntityModel.Proofs.Context.Closure
import EntityModel.Proofs.Context.History
import EntityModel.Proofs.Context.Rollback
import EntityModel.Proofs.Context.Shape
import EntityModel.Proofs.Context.Deliveries
import EntityModel.Proofs.Path.Hump
import EntityModel.Proofs.Path.Parts
import EntityModel.Proofs.Path.Reading
import EntityModel.Proofs.Path.Greedy
import EntityModel.Proofs.Path.Typing
import EntityModel.Proofs.Path.Remembered
import EntityModel.Proofs.Path.Dotted
import EntityModel.Proofs.Path.Deepest
import EntityModel.Proofs.Path.Depth
import EntityModel.Proofs.Path.Nested
import EntityModel.Proofs.Path.Respelling
import EntityModel.Proofs.Path.Shared
import EntityModel.Proofs.Access.Lens
import EntityModel.Proofs.Access.FanOut
import EntityModel.Proofs.Access.Nulls
import EntityModel.Proofs.Repository.Unremembered
import EntityModel.Proofs.Repository.Direct
import EntityModel.Proofs.Repository.Validation
import EntityModel.Proofs.Repository.Publisher
import EntityModel.Proofs.Value.Hash
import EntityModel.Proofs.Value.RoundTrip
import EntityModel.Proofs.Context.Resolved
import EntityModel.Proofs.Search.Optional
import EntityModel.Proofs.Declaration.RoundTrip
import EntityModel.Proofs.Catalog.Ascent
import EntityModel.Proofs.Catalog.Closed
import EntityModel.Proofs.Catalog.Subtypes
import EntityModel.Proofs.Catalog.Shadowing
import EntityModel.Proofs.Repository.Marker
import EntityModel.Proofs.Entity.Path
import EntityModel.Proofs.Entity.Partition
import EntityModel.Proofs.Entity.Settled
import EntityModel.Proofs.Search.Strict
import EntityModel.Proofs.Value.Distinct
import EntityModel.Proofs.Repository.BaseClass
import EntityModel.Proofs.Entity.Constructor
import EntityModel.Proofs.Path.Instances
import EntityModel.Proofs.Repository.Fitting
