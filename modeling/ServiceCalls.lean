import ServiceCalls.Group.Assembly
import ServiceCalls.Proofs.Calls.HeaderPrecedence
import ServiceCalls.Proofs.Forms.MapFields
import ServiceCalls.Proofs.Group.Isolation
import ServiceCalls.Proofs.Parts.Routes
import ServiceCalls.Proofs.Template.Origin
import ServiceCalls.Proofs.Text.Percent
import ServiceCalls.Proofs.Url.Dots
import ServiceCalls.Proofs.Url.Segments
import ServiceCalls.Proofs.Url.Below
import ServiceCalls.Proofs.Template.Pieces
import ServiceCalls.Proofs.Template.PathVariables
import ServiceCalls.Proofs.Url.Pairs
import ServiceCalls.Proofs.Url.Tails
import ServiceCalls.Proofs.Url.Appended
import ServiceCalls.Proofs.Request.QueryVariables
import ServiceCalls.Proofs.Template.Resolution
import ServiceCalls.Proofs.Request.Delivery
import ServiceCalls.Proofs.Request.BodyShapes
import ServiceCalls.Proofs.Binding.NamedValues
import ServiceCalls.Proofs.Template.EmbeddedText
import ServiceCalls.Proofs.Calls.Creation
import ServiceCalls.Proofs.Binding.BuiltIn
import ServiceCalls.Proofs.Binding.Absence
import ServiceCalls.Proofs.Calls.Methods
import ServiceCalls.Proofs.Binding.Annotations
import ServiceCalls.Proofs.Binding.Contributions
import ServiceCalls.Proofs.Calls.ArgumentOrder
import ServiceCalls.Proofs.Group.Lookup
import ServiceCalls.Proofs.Calls.MissingValues
import ServiceCalls.Proofs.Exchange.Cookies
import ServiceCalls.Proofs.Exchange.ContentType
import ServiceCalls.Proofs.Parts.Elements
import ServiceCalls.Proofs.Exchange.Hooks
import ServiceCalls.Proofs.Template.Substitution
import ServiceCalls.Proofs.Parts.FileNames
import ServiceCalls.Proofs.Binding.AttributeValues
import ServiceCalls.Proofs.Template.Prefixes
import ServiceCalls.Proofs.Template.AbsoluteText
import ServiceCalls.Proofs.Template.RelativeTargets
import ServiceCalls.Proofs.Group.Declared
import ServiceCalls.Proofs.Group.BaseUrls
import ServiceCalls.Proofs.Calls.FormOrQuery
import ServiceCalls.Proofs.Exchange.BasicAuth
import ServiceCalls.Proofs.Request.FailedEdits
import ServiceCalls.Proofs.Request.Targets
import ServiceCalls.Proofs.Calls.Responses
import ServiceCalls.Proofs.Request.FreshVariables
import ServiceCalls.Proofs.Group.Packages
import ServiceCalls.Proofs.Template.EmbeddedPass
