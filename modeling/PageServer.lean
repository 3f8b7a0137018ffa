import PageServer.Connection.Serve
import PageServer.Logging.Settings
import PageServer.Main
import PageServer.Pool.Basic
import PageServer.Session.Ident
import PageServer.Proofs.Exchange.Calls
import PageServer.Proofs.Template.Calls
import PageServer.Proofs.Exchange.Framing
import PageServer.Proofs.Template.Lexical
import PageServer.Proofs.Template.Scoping
import PageServer.Proofs.Template.Draining
import PageServer.Proofs.Template.WellFormed
import PageServer.Proofs.Decimal.ReadBack
import PageServer.Proofs.Template.RoundTrip
import PageServer.Proofs.Connection.Receiving
import PageServer.Proofs.Exchange.HeadBlock
import PageServer.Proofs.Site.Calls
import PageServer.Proofs.Exchange.Accepted
import PageServer.Proofs.Session.Resolving
import PageServer.Proofs.Connection.Serving
import PageServer.Proofs.Decimal.Packing
import PageServer.Proofs.Decimal.Reading
import PageServer.Proofs.Decimal.Nearness
import PageServer.Proofs.Session.Lifetime
import PageServer.Proofs.Connection.Isolation
import PageServer.Proofs.Site.PrivateFiles
import PageServer.Proofs.Exchange.HeadLines
import PageServer.Proofs.Template.Canonical
import PageServer.Proofs.Template.Brackets
import PageServer.Proofs.Template.Items
import PageServer.Proofs.Template.Layout
import PageServer.Proofs.Template.Postorder
import PageServer.Proofs.Connection.SessionCookies
import PageServer.Proofs.Exchange.Refusals
import PageServer.Proofs.Request.CookieReading
import PageServer.Proofs.Exchange.CookieRoundTrip
import PageServer.Proofs.Decimal.Finiteness
import PageServer.Proofs.Template.Visits
import PageServer.Proofs.Template.FiniteStacks
import PageServer.Proofs.Session.LateResolves
import PageServer.Proofs.Request.HeadSpelling
import PageServer.Proofs.Request.QuerySpelling
import PageServer.Proofs.Decimal.Whole
import PageServer.Proofs.Template.WholeArithmetic
import PageServer.Proofs.Template.Counters
import PageServer.Proofs.Template.Progression
import PageServer.Proofs.Decimal.Order
import PageServer.Proofs.Decimal.Absorption
import PageServer.Proofs.Template.Steps
import PageServer.Proofs.Template.Endings
import PageServer.Proofs.Template.CounterReading
import PageServer.Proofs.Template.Depths
import PageServer.Proofs.Template.Arity
import PageServer.Proofs.Site.Mounting
import PageServer.Proofs.Site.NestedCalls
import PageServer.Proofs.Site.TemplateSources
import PageServer.Proofs.Site.Recursion
import PageServer.Proofs.Exchange.FileSending
import PageServer.Proofs.Exchange.ErrorPages
import PageServer.Proofs.Site.StaticFiles
import PageServer.Proofs.Response.Markup
import PageServer.Proofs.Site.BuiltPages
import PageServer.Proofs.Decimal.Fixed
import PageServer.Proofs.Template.Patterns
import PageServer.Proofs.Decimal.Conversion
import PageServer.Proofs.Template.WholePatterns
import PageServer.Proofs.Site.ContentTypes
import PageServer.Proofs.Text.Lines
import PageServer.Proofs.Config.Properties
import PageServer.Proofs.Pool.Moves
import PageServer.Proofs.Pool.Accounting
import PageServer.Proofs.Template.Advancing
import PageServer.Proofs.Template.OnDemand
