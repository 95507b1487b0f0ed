import ToolServer.Main
import ToolServer.Proofs.Api.Direct
import ToolServer.Proofs.Composition.RoundTrip
import ToolServer.Proofs.Composition.Declared
import ToolServer.Proofs.Reference.History
import ToolServer.Session
import ToolServer.Proofs.Decimal.Double
import ToolServer.Proofs.Document.Equality
import ToolServer.Proofs.Json.Representable
import ToolServer.Proofs.Diff.Emitted
import ToolServer.Proofs.Diff.Breaking
import ToolServer.Proofs.Diff.Calls
import ToolServer.Proofs.Diff.Names
import ToolServer.Proofs.Diff.Account
import ToolServer.Proofs.Diff.Mirror
import ToolServer.Proofs.Diff.Exact
import ToolServer.Proofs.Emit.Body
import ToolServer.Proofs.Tool.Routes
import ToolServer.Proofs.Tool.Required
import ToolServer.Proofs.Diff.Addition
import ToolServer.Proofs.Diff.Served
import ToolServer.Proofs.Emit.Authentication
import ToolServer.Proofs.Emit.Manifest
import ToolServer.Proofs.Emit.Rendered
import ToolServer.Proofs.Api.Outcomes
import ToolServer.Proofs.Emit.Offered
import ToolServer.Proofs.Emit.Shadowing
import ToolServer.Proofs.Emit.Embedded
import ToolServer.Proofs.Emit.Lines
import ToolServer.Proofs.Emit.Address
import ToolServer.Proofs.Emit.Documentation
import ToolServer.Proofs.Emit.Assignment
import ToolServer.Proofs.Reference.Repetition
import ToolServer.Proofs.Reference.Placeholder
import ToolServer.Proofs.Emit.Header
import ToolServer.Proofs.Emit.Member
import ToolServer.Proofs.Diff.Order
import ToolServer.Proofs.Document.Pointer
import ToolServer.Proofs.Naming.Renaming
import ToolServer.Proofs.Schema.Composition
import ToolServer.Proofs.Tool.Correspondence
import ToolServer.Proofs.Tool.Parameters
import ToolServer.Proofs.Naming.Slug
import ToolServer.Proofs.Emit.Environment
import ToolServer.Proofs.Tool.Levels
import ToolServer.Proofs.Command.Run
