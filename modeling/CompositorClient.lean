import CompositorClient.Client.Events
import CompositorClient.Config.Settings
import CompositorClient.Protocol.AnimationTargets
import CompositorClient.Proofs.Padded
import CompositorClient.Proofs.Layout
import CompositorClient.Proofs.Payload
import CompositorClient.Proofs.Splitting
import CompositorClient.Proofs.ReplyRuns
import CompositorClient.Proofs.Conversation
import CompositorClient.Proofs.Session
import CompositorClient.Proofs.Teardown
import CompositorClient.Proofs.Numbers
import CompositorClient.Proofs.Echo
import CompositorClient.Proofs.Inbound
import CompositorClient.Proofs.Framing
import CompositorClient.Proofs.Calls
import CompositorClient.Proofs.Outbound
import CompositorClient.Proofs.Errand
import CompositorClient.Proofs.Dialogue
import CompositorClient.Proofs.Aftermath
import CompositorClient.Proofs.Switchboard
import CompositorClient.Proofs.Resolution
import CompositorClient.Proofs.Outcomes
import CompositorClient.Proofs.Isolation
import CompositorClient.Proofs.Buckets
import CompositorClient.Proofs.Cursor
import CompositorClient.Proofs.Acceptance
import CompositorClient.Proofs.Lossy
import CompositorClient.Proofs.Stability
import CompositorClient.Proofs.Truncation
import CompositorClient.Proofs.Separation
import CompositorClient.Proofs.Undecodable
import CompositorClient.Proofs.Listeners
import CompositorClient.Proofs.Draining
import CompositorClient.Proofs.HalfClose
import CompositorClient.Proofs.Lengths
import CompositorClient.Proofs.WindowHistory
import CompositorClient.Proofs.Creation
import CompositorClient.Proofs.Withdrawal
import CompositorClient.Proofs.Boundary
import CompositorClient.Proofs.Slack
import CompositorClient.Proofs.Minting
import CompositorClient.Proofs.Targets
import CompositorClient.Proofs.Headers
import CompositorClient.Proofs.Progress
import CompositorClient.Proofs.Rounds
import CompositorClient.Proofs.Freshness
