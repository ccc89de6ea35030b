import CacheCheck.Backend
import CacheCheck.Backend.Reading
import CacheCheck.Check
import CacheCheck.Client
import CacheCheck.CommandLine.Environment
import CacheCheck.CommandLine.Flag
import CacheCheck.CommandLine.Given
import CacheCheck.CommandLine.Invocation
import CacheCheck.CommandLine.Problem
import CacheCheck.CommandLine.Reading
import CacheCheck.Failure
import CacheCheck.Json
import CacheCheck.Log
import CacheCheck.Main
import CacheCheck.Memcached.Address
import CacheCheck.Memcached.BinaryWire
import CacheCheck.Memcached.Cache
import CacheCheck.Memcached.Endpoint
import CacheCheck.Memcached.Entries
import CacheCheck.Memcached.Fault
import CacheCheck.Memcached.Frame
import CacheCheck.Memcached.TextWire
import CacheCheck.Memory
import CacheCheck.Network
import CacheCheck.Number.Binary64
import CacheCheck.Number.Shortest
import CacheCheck.Program
import CacheCheck.Proofs.Check.Plan
import CacheCheck.Proofs.CommandLine.Addresses
import CacheCheck.Proofs.CommandLine.Arguments
import CacheCheck.Proofs.CommandLine.Lists
import CacheCheck.Proofs.CommandLine.Sources
import CacheCheck.Proofs.Contents
import CacheCheck.Proofs.Exchange
import CacheCheck.Proofs.Json.Numbers
import CacheCheck.Proofs.Json.Reading
import CacheCheck.Proofs.Json.RoundTrip
import CacheCheck.Proofs.Memcached.Access
import CacheCheck.Proofs.Memcached.BinarySession
import CacheCheck.Proofs.Memcached.Conversation
import CacheCheck.Proofs.Memcached.CutLine
import CacheCheck.Proofs.Memcached.Delivery
import CacheCheck.Proofs.Memcached.FrameCodec
import CacheCheck.Proofs.Memcached.FrameStream
import CacheCheck.Proofs.Memcached.Grammar
import CacheCheck.Proofs.Memcached.Interleaving
import CacheCheck.Proofs.Memcached.KeyBytes
import CacheCheck.Proofs.Memcached.Lengths
import CacheCheck.Proofs.Memcached.Library
import CacheCheck.Proofs.Memcached.OneReport
import CacheCheck.Proofs.Memcached.Selection
import CacheCheck.Proofs.Memcached.Stalled
import CacheCheck.Proofs.Memcached.TextSession
import CacheCheck.Proofs.Memcached.Turns
import CacheCheck.Proofs.Memory.Bulk
import CacheCheck.Proofs.Memory.Calls
import CacheCheck.Proofs.Memory.History
import CacheCheck.Proofs.Program.Visits
import CacheCheck.Proofs.Redis.Expected
import CacheCheck.Proofs.Redis.Handles
import CacheCheck.Proofs.Redis.Replay
import CacheCheck.Proofs.Report.Lines
import CacheCheck.Proofs.Report.Lossless
import CacheCheck.Proofs.Report.Verdicts
import CacheCheck.Proofs.Resp.Packing
import CacheCheck.Proofs.Steps
import CacheCheck.Proofs.Store
import CacheCheck.Proofs.Suite.Answers
import CacheCheck.Proofs.Suite.FirstFailure
import CacheCheck.Proofs.Suite.Rounds
import CacheCheck.Proofs.Target.Names
import CacheCheck.Proofs.Target.Opening
import CacheCheck.Proofs.Text.Cut
import CacheCheck.Proofs.Text.Decimal
import CacheCheck.Proofs.Text.OneLine
import CacheCheck.Proofs.Text.Quoted
import CacheCheck.Proofs.Text.Tokens
import CacheCheck.Proofs.Text.Utf8
import CacheCheck.Proofs.Url.Parts
import CacheCheck.Proofs.Url.Query
import CacheCheck.Redis.Address
import CacheCheck.Redis.Cache
import CacheCheck.Redis.Fault
import CacheCheck.Redis.Rehearsal
import CacheCheck.Report
import CacheCheck.Report.Format
import CacheCheck.Resp.Command
import CacheCheck.Resp.Reply
import CacheCheck.Run
import CacheCheck.Store
import CacheCheck.Suite
import CacheCheck.Target
import CacheCheck.Text.Percent
import CacheCheck.Text.Quoted
import CacheCheck.Text.Tokens
import CacheCheck.Text.Utf8
import CacheCheck.Url
import CacheCheck.Url.Ipv6
