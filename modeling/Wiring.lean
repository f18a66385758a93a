import Wiring.Book
import Wiring.Book.Defect
import Wiring.Book.Survey
import Wiring.Component
import Wiring.Component.Draft
import Wiring.Facade
import Wiring.Failure
import Wiring.Inspection
import Wiring.Instance
import Wiring.Lifetime
import Wiring.Notice
import Wiring.Origin
import Wiring.Parameter
import Wiring.Recipe
import Wiring.Script.Conduct
import Wiring.Script.Exhibit
import Wiring.Script.Race
import Wiring.Script.Registration
import Wiring.Script.Run
import Wiring.Script.Session
import Wiring.Script.Step
import Wiring.Script.Token
import Wiring.Script.World
import Wiring.Settings
import Wiring.Table
import Wiring.Text.Outline
import Wiring.Text.Quoted
import Wiring.Text.Unprintable
import Wiring.TypeRef
import Wiring.Workshop
import Wiring.Workshop.Opening
import Wiring.Workshop.Request
import Wiring.Workshop.Resolve
import Wiring.Proofs.Book.Graph
import Wiring.Proofs.Survey.Walk
import Wiring.Proofs.Survey.Completeness
import Wiring.Proofs.Workshop.Aftermath
import Wiring.Proofs.Workshop.Singleton
import Wiring.Proofs.Component.Accumulation
import Wiring.Proofs.Meaning.Agreement
import Wiring.Proofs.Floor.Locks
import Wiring.Proofs.Floor.Order
import Wiring.Proofs.Floor.FirstUse
import Wiring.Proofs.Floor.Waiting
import Wiring.Proofs.Floor.Alone
import Wiring.Proofs.Workshop.Given
import Wiring.Proofs.Workshop.Nesting
import Wiring.Proofs.Workshop.Record
import Wiring.Proofs.Workshop.Descent
import Wiring.Proofs.Workshop.Extent
import Wiring.Proofs.Workshop.Fresh
import Wiring.Proofs.Book.Listing
import Wiring.Proofs.Component.Merging
import Wiring.Proofs.Survey.Lacks
import Wiring.Proofs.Component.Grouping
import Wiring.Proofs.Component.Order
import Wiring.Proofs.Component.Layers
import Wiring.Proofs.Workshop.Turns
import Wiring.Proofs.Facade.Composition
import Wiring.Proofs.Floor.Inside
import Wiring.Proofs.Floor.Queue
import Wiring.Proofs.Survey.Circles
import Wiring.Proofs.Survey.Reports
import Wiring.Proofs.Survey.Visits
import Wiring.Proofs.Survey.Effort
import Wiring.Proofs.Settings.Offers
import Wiring.Proofs.Settings.Delivery
import Wiring.Proofs.Workshop.Delivery
import Wiring.Proofs.Workshop.Optional
import Wiring.Proofs.Workshop.Outside
import Wiring.Proofs.Yard.Stocks
import Wiring.Proofs.Yard.Isolation
import Wiring.Proofs.Yard.Views
import Wiring.Proofs.Workshop.Ascent
import Wiring.Proofs.Component.Imports
import Wiring.Proofs.Book.Names
import Wiring.Proofs.Workshop.Names
import Wiring.Proofs.Workshop.Fitting
import Wiring.Proofs.Floor.Fitting
import Wiring.Proofs.Survey.Visits
import Wiring.Proofs.Floor.Places
