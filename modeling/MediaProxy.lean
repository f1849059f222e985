import MediaProxy.Config.Document
import MediaProxy.Json.Reader
import MediaProxy.Log
import MediaProxy.Proofs.Pool.Accounting
import MediaProxy.Proofs.Pool.Distinct
import MediaProxy.Scenario.Leasing
import MediaProxy.Scenario.Session.Run
import MediaProxy.Proofs.Pool.Custody
import MediaProxy.Proofs.Pool.Queue
import MediaProxy.Proofs.Object.Growth
import MediaProxy.Proofs.System.Action
import MediaProxy.Proofs.System.Change
import MediaProxy.Proofs.System.Frame
import MediaProxy.Proofs.Object.Reply
import MediaProxy.Proofs.System.Course
import MediaProxy.Proofs.System.Dispatch
import MediaProxy.Proofs.System.Work
import MediaProxy.Proofs.System.Failure
import MediaProxy.Proofs.System.Fetch
import MediaProxy.Proofs.System.Post
import MediaProxy.Proofs.System.Quiet
import MediaProxy.Proofs.System.Forms
import MediaProxy.Proofs.System.Sharing
import MediaProxy.Proofs.System.Identity
import MediaProxy.Proofs.System.Isolation
import MediaProxy.Proofs.System.Release
import MediaProxy.Proofs.System.Lease
import MediaProxy.Proofs.System.Traffic
import MediaProxy.Proofs.System.Round
import MediaProxy.Proofs.System.Halt
import MediaProxy.Proofs.System.Punctual
import MediaProxy.Proofs.System.Pulse
import MediaProxy.Proofs.System.Unsubscription
import MediaProxy.Proofs.System.Residue
import MediaProxy.Proofs.System.Table
import MediaProxy.Proofs.System.Upkeep
import MediaProxy.Proofs.Pool.Sparing
import MediaProxy.Proofs.System.Pipeline
import MediaProxy.Proofs.System.Patience
import MediaProxy.Proofs.System.Rhythm
import MediaProxy.Proofs.Config.Span
import MediaProxy.Proofs.Json.RoundTrip
