import RoomGateway.Spec.ActionItems
import RoomGateway.Spec.Audience
import RoomGateway.Spec.CanonicalText
import RoomGateway.Spec.Catalog
import RoomGateway.Spec.CatalogListing
import RoomGateway.Spec.CatalogPages
import RoomGateway.Spec.Citations
import RoomGateway.Spec.ClaimQueue
import RoomGateway.Spec.Coalescing
import RoomGateway.Spec.Concurrent
import RoomGateway.Spec.Connections
import RoomGateway.Spec.Cursors
import RoomGateway.Spec.Deadlines
import RoomGateway.Spec.Decisions
import RoomGateway.Spec.Disclosure
import RoomGateway.Spec.Governance
import RoomGateway.Spec.Leases
import RoomGateway.Spec.MentionTokens
import RoomGateway.Spec.Noninterference
import RoomGateway.Spec.OldestClaim
import RoomGateway.Spec.Ordinals
import RoomGateway.Spec.OwnEvents
import RoomGateway.Spec.Packets
import RoomGateway.Spec.Presence
import RoomGateway.Spec.Refusals
import RoomGateway.Spec.ReplyBindings
import RoomGateway.Spec.Retries
import RoomGateway.Spec.Rosters
import RoomGateway.Spec.Session
import RoomGateway.Spec.StickySettings
import RoomGateway.Spec.StrictJson
import RoomGateway.Spec.TaskLog
import RoomGateway.Spec.TaskResults
import RoomGateway.Spec.Visibility
