import RouteRegistry.Relational.Calls
import RouteRegistry.Formats.Templates
import RouteRegistry.Registry.Wire
import RouteRegistry.Registry.Routing
import RouteRegistry.Registry.Jwts
import RouteRegistry.Registry.Endpoints
import RouteRegistry.Registry.Answers
import RouteRegistry.Registry.Tasks
import RouteRegistry.Registry.Deployment
import RouteRegistry.Registry.Mediation
import RouteRegistry.Registry.Privileges
import RouteRegistry.Registry.Queue
import RouteRegistry.Registry.Credentials
import RouteRegistry.Registry.Registrants
import RouteRegistry.Registry.Visibility
import RouteRegistry.Registry.Seeding
import RouteRegistry.Registry.Fetching
import RouteRegistry.Registry.Authentication
import RouteRegistry.Registry.Adapter
import RouteRegistry.Registry.AdminTokens
import RouteRegistry.Registry.Classification
import RouteRegistry.Registry.CommitLaw
import RouteRegistry.Registry.Consent
import RouteRegistry.Registry.NameRace
import RouteRegistry.Registry.Names
import RouteRegistry.Registry.Orphans
import RouteRegistry.Registry.Availability
import RouteRegistry.Registry.RuleRace
import RouteRegistry.Registry.RuleSets
import RouteRegistry.Registry.Staleness
import RouteRegistry.Registry.Reregistration
import RouteRegistry.Registry.SetDefault
import RouteRegistry.Registry.Undo
import RouteRegistry.Registry.Listing
import RouteRegistry.Registry.Namespaces
import RouteRegistry.Registry.Handlers
import RouteRegistry.Registry.Migrations
import RouteRegistry.Registry.Grants
import RouteRegistry.Registry.Rotation
import RouteRegistry.Registry.Deletion
import RouteRegistry.Registry.Resolution
import RouteRegistry.Registry.Upgrades
import RouteRegistry.Registry.Broker
import RouteRegistry.Registry.Engine
import RouteRegistry.Registry.Login
import RouteRegistry.Registry.Downgrades
