import BirthHub.Workflow.Completion
import BirthHub.Workflow.AtMostOnce
import BirthHub.Workflow.Retry
import BirthHub.Auth.ApiKeys
import BirthHub.Auth.SingleUse
import BirthHub.Agents.Breaker
import BirthHub.Quota.Monthly
import BirthHub.Agents.DenyWins
import BirthHub.Tasks.Agreement
import BirthHub.Tasks.Authenticity
import BirthHub.Agents.Exclusive
import BirthHub.Workflow.Orphans
import BirthHub.Workflow.Depth
import BirthHub.Workflow.CronFirings
import BirthHub.Webhooks.Failures
import BirthHub.Billing.Transparent
import BirthHub.Webhooks.Signature
import BirthHub.Workflow.Submission
import BirthHub.Packs.Connectors
import BirthHub.Packs.Uninstall
import BirthHub.Policies.Intact
import BirthHub.Members.Coherence
import BirthHub.Registry.Refinement
import BirthHub.Memory.Backends
import BirthHub.Agents.DenyOverrides
import BirthHub.Agents.PolicyAdmin
import BirthHub.Workflow.StepCache
import BirthHub.Workflow.Acyclic
import BirthHub.Workflow.HttpRequest
import BirthHub.Agents.HttpTool
import BirthHub.Agents.Ceilings
import BirthHub.Agents.Alerts
import BirthHub.Memory.Sessions
import BirthHub.Http.Sanitized
import BirthHub.Agents.Redaction
import BirthHub.Integrations.PostJson
import BirthHub.Worker.AuditFlush
import BirthHub.Listings.AuditExport
import BirthHub.Registry.Listing
import BirthHub.Registry.Digest
import BirthHub.Connectors.Sessions
import BirthHub.Billing.Health
import BirthHub.Tenancy.Atomicity
import BirthHub.Conversations.Threads
import BirthHub.Workflow.Notifications
import BirthHub.Billing.CheckoutBan
import BirthHub.Tasks.QueueRate
import BirthHub.Worker.RateLimiter
import BirthHub.Auth.Totp
import BirthHub.Orchestrator.TaskWorker
import BirthHub.Runtime.GoalLoop
import BirthHub.Integrations.Hubspot
import BirthHub.Gateway.StateStore
import BirthHub.Runtime.SlidingLimit
import BirthHub.Billing.Export
import BirthHub.Orchestrator.Tenants
import BirthHub.Webhooks.Deduplication
import BirthHub.Billing.Events
