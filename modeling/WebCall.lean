import WebCall.Call.Crowd
import WebCall.Main
import WebCall.Scheduler.Crew
import WebCall.Call.History
import WebCall.Proofs.Text.Trim
import WebCall.Proofs.Text.Utf8
import WebCall.Proofs.Text.Digits
import WebCall.Proofs.Text.Pieces
import WebCall.Proofs.Http.Fields
import WebCall.Proofs.Http.FieldLines
import WebCall.Proofs.Http.Settings
import WebCall.Proofs.Wire.HeaderLines
import WebCall.Proofs.Wire.LastBlock
import WebCall.Proofs.Json.Grammar
import WebCall.Proofs.Json.Strings
import WebCall.Proofs.Json.Numbers
import WebCall.Proofs.Json.Reader
import WebCall.Proofs.Json.Values
import WebCall.Proofs.ErrorBody
import WebCall.Proofs.Url.Percent
import WebCall.Proofs.Url.Ipv4
import WebCall.Proofs.Url.Ipv6
import WebCall.Proofs.Url.Host
import WebCall.Proofs.Url.Authority
import WebCall.Proofs.Url.Parser
import WebCall.Proofs.Url.Path
import WebCall.Proofs.Call.Reply
import WebCall.Proofs.Call.Course
import WebCall.Proofs.Call.Retries
import WebCall.Proofs.Call.Cancellation
import WebCall.Proofs.Call.View
import WebCall.Proofs.Call.Custody
import WebCall.Proofs.Call.Phases
import WebCall.Proofs.Call.Independence
import WebCall.Proofs.Call.Integrity
import WebCall.Proofs.Call.Kinds
import WebCall.Proofs.Call.Reasons
import WebCall.Proofs.Call.Results
import WebCall.Proofs.Call.Budget
import WebCall.Proofs.Call.Steps
import WebCall.Proofs.Call.Release
import WebCall.Proofs.Scheduler.Accounts
import WebCall.Proofs.Scheduler.DueOrder
import WebCall.Proofs.Scheduler.Delays
import WebCall.Proofs.Command.HeaderTexts
import WebCall.Proofs.Command.Request
import WebCall.Proofs.Command.Fields
import WebCall.Proofs.Command.Origin
import WebCall.Proofs.Command.Seam
import WebCall.Contest
import WebCall.Proofs.Contest
import WebCall.Proofs.Retry.RetryAfter
import WebCall.Proofs.Call.RateLimit
import WebCall.Proofs.Files.Path
import WebCall.Proofs.Files.Tree
import WebCall.Proofs.Files.Access
import WebCall.Proofs.Toml.Grammar
import WebCall.Proofs.Toml.Values
import WebCall.Proofs.Toml.Lines
import WebCall.Proofs.Toml.Entries
import WebCall.Proofs.Config.Load
import WebCall.Proofs.Config.Draft
import WebCall.Proofs.Config.Written
