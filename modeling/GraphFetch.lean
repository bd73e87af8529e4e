import GraphFetch.Blog.Basic
import GraphFetch.Schema.Metadata
import GraphFetch.Settings.Reader
import GraphFetch.Proofs.Cache.Runs
import GraphFetch.Proofs.Database.Statements
import GraphFetch.Proofs.Engine.Hoisted
import GraphFetch.Proofs.Engine.InBounds
import GraphFetch.Proofs.Engine.Isolation
import GraphFetch.Proofs.Engine.Undefined
import GraphFetch.Proofs.Engine.Transparency
import GraphFetch.Proofs.Engine.SelectOptimization
import GraphFetch.Proofs.Engine.Offences
import GraphFetch.Proofs.Engine.RootKeys
import GraphFetch.Proofs.Database.Windows
import GraphFetch.Proofs.Database.IgnoringCase
import GraphFetch.Proofs.Database.IntegerKeys
import GraphFetch.Proofs.Plan.WellFormed
import GraphFetch.Proofs.Database.Operators
import GraphFetch.Proofs.Database.Ranges
import GraphFetch.Proofs.Schema.FilterNames
import GraphFetch.Proofs.Engine.Shapes
import GraphFetch.Proofs.Plan.Resolution
import GraphFetch.Proofs.Expression.Offsets
