import AccessRights.Actor
import AccessRights.Cluster
import AccessRights.Codec.Record
import AccessRights.Codec.Scalar
import AccessRights.Config
import AccessRights.Error
import AccessRights.Group
import AccessRights.Group.Index
import AccessRights.Json
import AccessRights.Json.Fields
import AccessRights.Json.Reader
import AccessRights.Json.Writer
import AccessRights.KeyOrder
import AccessRights.Policy
import AccessRights.Policy.Index
import AccessRights.Request
import AccessRights.Rights
import AccessRights.RightsCache
import AccessRights.Roster
import AccessRights.Roster.Record
import AccessRights.Site
import AccessRights.Site.Grants
import AccessRights.Site.Groups
import AccessRights.Site.Policies
import AccessRights.Site.Resolution
import AccessRights.Store
import AccessRights.Store.Backend
import AccessRights.Store.Fault
import AccessRights.Store.Groups
import AccessRights.Store.Policies
import AccessRights.Table
import AccessRights.Text.Blank
import AccessRights.Text.FlagWord
import AccessRights.Text.Numeral
import AccessRights.Timestamp
import AccessRights.Timestamp.Text
import AccessRights.Trail
import AccessRights.Proofs.View
import AccessRights.Proofs.Parents
import AccessRights.Proofs.Roster
import AccessRights.Proofs.Index
import AccessRights.Proofs.Learning
import AccessRights.Proofs.Store
import AccessRights.Proofs.Backend
import AccessRights.Proofs.Reading
import AccessRights.Proofs.Resolution
import AccessRights.Proofs.Sound
import AccessRights.Proofs.Event
import AccessRights.Proofs.Counting
import AccessRights.Proofs.Groups
import AccessRights.Proofs.Policies
import AccessRights.Proofs.Grants
import AccessRights.Proofs.Answering
import AccessRights.Proofs.Reachable
import AccessRights.Proofs.Rollback
import AccessRights.Proofs.Freshness
import AccessRights.Proofs.History
import AccessRights.Proofs.Reached
import AccessRights.Proofs.Serving
import AccessRights.Proofs.Registry
import AccessRights.Proofs.Rights
import AccessRights.Proofs.Spread
import AccessRights.Proofs.Tidy
import AccessRights.Proofs.Delegation
import AccessRights.Proofs.Persistence
import AccessRights.Proofs.Reflection
import AccessRights.Proofs.Faults
import AccessRights.Proofs.Idling
import AccessRights.Proofs.Upkeep
import AccessRights.Proofs.Twins
import AccessRights.Proofs.PolicyTree
import AccessRights.Proofs.Refusals
import AccessRights.Proofs.Cycles
import AccessRights.Proofs.Integrity
import AccessRights.Proofs.GroupForest
import AccessRights.Proofs.Ancestry
import AccessRights.Proofs.Handover
import AccessRights.Proofs.Uniqueness
import AccessRights.Proofs.Pairing
import AccessRights.Proofs.Authority
import AccessRights.Proofs.Moves
import AccessRights.Proofs.Overwriting
import AccessRights.Proofs.WellFormed
import AccessRights.Proofs.Identity
import AccessRights.Proofs.Genuine
import AccessRights.Proofs.Outline
import AccessRights.Proofs.Lifetime
import AccessRights.Proofs.Amending
import AccessRights.Proofs.Locality
import AccessRights.Proofs.Renewal
import AccessRights.Proofs.Disbanding
import AccessRights.Proofs.Transparency
import AccessRights.Proofs.Reloading
import AccessRights.Proofs.Editing
import AccessRights.Proofs.Alignment
import AccessRights.Proofs.Creation
import AccessRights.Proofs.Caching
import AccessRights.Proofs.Joining
import AccessRights.Proofs.Courses
import AccessRights.Proofs.Browsing
import AccessRights.Proofs.Visiting
import AccessRights.Proofs.Membership
import AccessRights.Proofs.Numerals
import AccessRights.Proofs.JsonText
import AccessRights.Proofs.FlagText
import AccessRights.Proofs.MomentText
import AccessRights.Proofs.RoundTrip
import AccessRights.Proofs.Matching
