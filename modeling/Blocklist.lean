import Blocklist.Dataset.Load
import Blocklist.Domain.Collector
import Blocklist.Fetch.Client
import Blocklist.Files.Disk
import Blocklist.Log.Filter
import Blocklist.Pool.Generator
import Blocklist.Program.Run
import Blocklist.Rules.Json
import Blocklist.Service.Basic
import Blocklist.Settings.Arguments
import Blocklist.Settings.Document
import Blocklist.Main
import Blocklist.Proofs.Pool.Trace
import Blocklist.Proofs.Pool.Delivery
import Blocklist.Proofs.Pool.Progress
import Blocklist.Proofs.Domain.Collector
import Blocklist.Proofs.Pool.Settled
import Blocklist.Proofs.Pool.Gathering
import Blocklist.Proofs.Pool.Stopping
import Blocklist.Proofs.Pool.Ticks
import Blocklist.Proofs.Pool.Deadline
import Blocklist.Proofs.Pool.Generator
import Blocklist.Proofs.Text.Number
import Blocklist.Proofs.Rules.Build
import Blocklist.Proofs.Pool.Limit
import Blocklist.Proofs.Json.RoundTrip
import Blocklist.Proofs.Rules.RoundTrip
import Blocklist.Proofs.Pool.Sequential
import Blocklist.Proofs.Fetch.Body
import Blocklist.Proofs.Fetch.Served
import Blocklist.Proofs.Service.Form
import Blocklist.Proofs.Service.Query
import Blocklist.Proofs.Files.Tree
import Blocklist.Proofs.Program.Run
import Blocklist.Proofs.Program.Refinement
import Blocklist.Proofs.Text.Utf8
import Blocklist.Proofs.Dataset.Columns
import Blocklist.Proofs.Pool.Slots
import Blocklist.Proofs.Pool.Ceiling
import Blocklist.Proofs.Pool.Shared
import Blocklist.Proofs.Dataset.Parts
import Blocklist.Proofs.Files.System
import Blocklist.Proofs.Program.Course
import Blocklist.Proofs.Program.Failing
import Blocklist.Proofs.Settings.Verbosity
import Blocklist.Proofs.Program.Limits
import Blocklist.Proofs.Toml.Distinct
import Blocklist.Proofs.Settings.Arguments
import Blocklist.Proofs.Settings.Setting
import Blocklist.Proofs.Program.Precedence
import Blocklist.Proofs.Pool.Idle
import Blocklist.Proofs.Domain.Stream
import Blocklist.Proofs.Domain.Matcher
import Blocklist.Proofs.Log.Filter
import Blocklist.Proofs.Program.Logging
import Blocklist.Proofs.Text.Blank
import Blocklist.Proofs.Domain.Extract
import Blocklist.Proofs.Text.LetterCase
import Blocklist.Proofs.Domain.Sound
import Blocklist.Proofs.Domain.LetterCase
import Blocklist.Proofs.Domain.FixedPoint
import Blocklist.Proofs.Domain.HostsLine
import Blocklist.Proofs.Domain.Underscore
import Blocklist.Proofs.Fetch.Chunks
import Blocklist.Proofs.Text.Cut
import Blocklist.Proofs.Domain.CutLine
import Blocklist.Proofs.Fetch.Capped
import Blocklist.Proofs.Text.Longest
import Blocklist.Proofs.Fetch.WholeCharacters
import Blocklist.Proofs.Text.Numeral
import Blocklist.Proofs.Dataset.Tags
import Blocklist.Proofs.Dataset.TextTable
import Blocklist.Proofs.Dataset.Wanted
import Blocklist.Proofs.Service.Answer
import Blocklist.Proofs.Rules.Numbering
