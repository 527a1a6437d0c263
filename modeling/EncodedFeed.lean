import EncodedFeed.AnnexB.AccessUnit
import EncodedFeed.AnnexB.Assembler
import EncodedFeed.AnnexB.NalUnit
import EncodedFeed.Bitstream.Av1
import EncodedFeed.Bitstream.Keyframe
import EncodedFeed.Bitstream.Vp9
import EncodedFeed.Cli.Arguments
import EncodedFeed.Cli.Command
import EncodedFeed.Cli.Json
import EncodedFeed.Cli.Outcome
import EncodedFeed.Cli.Perform
import EncodedFeed.Cli.Reports
import EncodedFeed.Codec
import EncodedFeed.Config.File
import EncodedFeed.Config.Preferences
import EncodedFeed.Config.Settings
import EncodedFeed.Encoder.Basic
import EncodedFeed.Encoder.Factory
import EncodedFeed.Encoder.Fallback
import EncodedFeed.Encoder.Lazy
import EncodedFeed.Encoder.Passthrough
import EncodedFeed.Error
import EncodedFeed.FileTree
import EncodedFeed.Frame
import EncodedFeed.Image
import EncodedFeed.Ivf.Header
import EncodedFeed.Ivf.Reader
import EncodedFeed.Ivf.Writer
import EncodedFeed.Main
import EncodedFeed.Octets
import EncodedFeed.Output.Basic
import EncodedFeed.Output.Channel
import EncodedFeed.Output.Recording
import EncodedFeed.Pacing
import EncodedFeed.Packetization
import EncodedFeed.Pipeline
import EncodedFeed.Proofs.AnnexB.Frames
import EncodedFeed.Proofs.AnnexB.Grouping
import EncodedFeed.Proofs.AnnexB.Layout
import EncodedFeed.Proofs.AnnexB.Order
import EncodedFeed.Proofs.AnnexB.Reassembly
import EncodedFeed.Proofs.AnnexB.Splitting
import EncodedFeed.Proofs.Bitstream.TemporalUnits
import EncodedFeed.Proofs.Config.Defaults
import EncodedFeed.Proofs.Config.Fields
import EncodedFeed.Proofs.Config.Saving
import EncodedFeed.Proofs.Encoder.Blind
import EncodedFeed.Proofs.Encoder.Decision
import EncodedFeed.Proofs.Encoder.Delegation
import EncodedFeed.Proofs.Encoder.Failure
import EncodedFeed.Proofs.Encoder.Passthrough
import EncodedFeed.Proofs.Encoder.Release
import EncodedFeed.Proofs.Encoder.Renewal
import EncodedFeed.Proofs.Encoder.Routing
import EncodedFeed.Proofs.Encoder.Transparency
import EncodedFeed.Proofs.Encoder.Twins
import EncodedFeed.Proofs.Encoder.Unseen
import EncodedFeed.Proofs.Ivf.Layout
import EncodedFeed.Proofs.Ivf.RoundTrip
import EncodedFeed.Proofs.Lane.Basic
import EncodedFeed.Proofs.Lane.Flow
import EncodedFeed.Proofs.Lane.Pairing
import EncodedFeed.Proofs.Lane.Run
import EncodedFeed.Proofs.Lane.Wiring
import EncodedFeed.Proofs.Picture
import EncodedFeed.Proofs.Pipeline.Accounts
import EncodedFeed.Proofs.Pipeline.Attachments
import EncodedFeed.Proofs.Pipeline.Attribution
import EncodedFeed.Proofs.Pipeline.Demultiplexing
import EncodedFeed.Proofs.Pipeline.Keyframes
import EncodedFeed.Proofs.Pipeline.Ownership
import EncodedFeed.Proofs.Pipeline.Ports
import EncodedFeed.Proofs.Pipeline.Pulls
import EncodedFeed.Proofs.Recording.Bystanders
import EncodedFeed.Proofs.Recording.Interleaving
import EncodedFeed.Proofs.Recording.ReadBack
import EncodedFeed.Proofs.Recording.Turns
import EncodedFeed.Proofs.Recording.Written
import EncodedFeed.Proofs.Registry.Holdings
import EncodedFeed.Proofs.Registry.Views
import EncodedFeed.Proofs.Replay.Complete
import EncodedFeed.Proofs.Replay.Parts
import EncodedFeed.Proofs.Replay.Timing
import EncodedFeed.Proofs.Session.Asking
import EncodedFeed.Proofs.Session.Checked
import EncodedFeed.Proofs.Session.Conservation
import EncodedFeed.Proofs.Session.Hushed
import EncodedFeed.Proofs.Session.Kept
import EncodedFeed.Proofs.Session.Labels
import EncodedFeed.Proofs.Session.Lasting
import EncodedFeed.Proofs.Session.Lookup
import EncodedFeed.Proofs.Session.Moments
import EncodedFeed.Proofs.Session.Payloads
import EncodedFeed.Proofs.Session.RecodedActions
import EncodedFeed.Proofs.Session.Recoding
import EncodedFeed.Proofs.Session.Room
import EncodedFeed.Proofs.Session.Run
import EncodedFeed.Proofs.Session.Stamps
import EncodedFeed.Proofs.Session.Teardown
import EncodedFeed.Proofs.Simulation.Complete
import EncodedFeed.Proofs.Simulation.Course
import EncodedFeed.Proofs.Simulation.Layers
import EncodedFeed.Proofs.Simulation.Schedule
import EncodedFeed.Proofs.Simulcast.Isolation
import EncodedFeed.Proofs.Simulcast.Resolutions
import EncodedFeed.Proofs.Simulcast.Wiring
import EncodedFeed.Proofs.Table
import EncodedFeed.Proofs.Timestamp.Alignment
import EncodedFeed.Proofs.Timestamp.RtpClock
import EncodedFeed.Proofs.Toml.Documents
import EncodedFeed.Proofs.Toml.Integers
import EncodedFeed.Proofs.Toml.Limits
import EncodedFeed.Proofs.Toml.Lines
import EncodedFeed.Proofs.Toml.Strings
import EncodedFeed.Proofs.Toml.Tables
import EncodedFeed.Proofs.Toml.Values
import EncodedFeed.Proofs.Words
import EncodedFeed.Pump
import EncodedFeed.Registry
import EncodedFeed.Replay.Input
import EncodedFeed.Replay.Run
import EncodedFeed.Resolution
import EncodedFeed.Sdp
import EncodedFeed.Session.Basic
import EncodedFeed.Session.Encoders
import EncodedFeed.Session.Frames
import EncodedFeed.Session.Groups
import EncodedFeed.Session.Journal
import EncodedFeed.Session.Outputs
import EncodedFeed.Session.Pipelines
import EncodedFeed.Session.Recordings
import EncodedFeed.Session.Sources
import EncodedFeed.Settings
import EncodedFeed.Simulation.Payload
import EncodedFeed.Simulation.Run
import EncodedFeed.Source
import EncodedFeed.Table
import EncodedFeed.Text.DefaultIgnorable
import EncodedFeed.Text.GraphemeExtend
import EncodedFeed.Text.Lossy
import EncodedFeed.Text.Quoted
import EncodedFeed.Text.Unprintable
import EncodedFeed.Timestamp
import EncodedFeed.Toml.Document
import EncodedFeed.Toml.Lexis
import EncodedFeed.Toml.Number
import EncodedFeed.Toml.Text
import EncodedFeed.Toml.Value
import EncodedFeed.Toml.Writer
import EncodedFeed.Words
