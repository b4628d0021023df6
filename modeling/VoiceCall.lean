import VoiceCall.Audio.Format
import VoiceCall.Audio.Quality
import VoiceCall.Audio.Sample
import VoiceCall.Buffer.Jitter
import VoiceCall.Buffer.SampleQueue
import VoiceCall.Cipher.Aead
import VoiceCall.Cipher.ChaCha20
import VoiceCall.Cipher.Poly1305
import VoiceCall.Cipher.Sealed
import VoiceCall.CommandLine.Arguments
import VoiceCall.CommandLine.Program
import VoiceCall.Decoding.Pool
import VoiceCall.Decoding.Task
import VoiceCall.Dsp
import VoiceCall.Fault
import VoiceCall.Hub.Basic
import VoiceCall.Hub.Control
import VoiceCall.Hub.Receiver
import VoiceCall.Json.Decoder
import VoiceCall.Json.Fault
import VoiceCall.Json.Numeral
import VoiceCall.Json.Printer
import VoiceCall.Json.Reader
import VoiceCall.Json.Record
import VoiceCall.Json.Scalar
import VoiceCall.Json.Value
import VoiceCall.Main
import VoiceCall.Media.Address
import VoiceCall.Media.Link
import VoiceCall.Media.Outbox
import VoiceCall.Microphone.Activity
import VoiceCall.Microphone.Pipeline
import VoiceCall.Number.Binary
import VoiceCall.Number.Nanoseconds
import VoiceCall.Number.Notation
import VoiceCall.Number.Shortest
import VoiceCall.Opus.Decoder
import VoiceCall.Opus.Encoder
import VoiceCall.Opus.Packet
import VoiceCall.Packet.Discovery
import VoiceCall.Packet.Extension
import VoiceCall.Packet.Fault
import VoiceCall.Packet.Header
import VoiceCall.Packet.Octets
import VoiceCall.Packet.Packetizer
import VoiceCall.Packet.Sequencer
import VoiceCall.Playback.Mixer
import VoiceCall.Relay.Decoding
import VoiceCall.Relay.Encoding
import VoiceCall.Relay.Endpoint
import VoiceCall.Relay.Handshake
import VoiceCall.Relay.Message
import VoiceCall.Session.Basic
import VoiceCall.Session.Media
import VoiceCall.Session.Run
import VoiceCall.Session.Speakers
import VoiceCall.Settings.Basic
import VoiceCall.Settings.File
import VoiceCall.Settings.Printer
import VoiceCall.Settings.Reader
import VoiceCall.Sound.Adapter
import VoiceCall.Sound.Card
import VoiceCall.Sound.Config
import VoiceCall.Sound.Conversion
import VoiceCall.Sound.Device
import VoiceCall.Sound.Framer
import VoiceCall.Sound.Stream
import VoiceCall.Speaker.Basic
import VoiceCall.Speaker.Roster
import VoiceCall.Text.Hidden
import VoiceCall.Text.Quoted
import VoiceCall.Proofs.Buffer.History
import VoiceCall.Proofs.Buffer.Gate
import VoiceCall.Proofs.Number.Span
import VoiceCall.Proofs.Relay.History
import VoiceCall.Proofs.Relay.Overflow
import VoiceCall.Proofs.Relay.Answers
import VoiceCall.Proofs.Relay.Order
import VoiceCall.Proofs.Packet.Header
import VoiceCall.Proofs.Text.Utf8
import VoiceCall.Proofs.Packet.Discovery
import VoiceCall.Proofs.Cipher.Aead
import VoiceCall.Proofs.Cipher.Sealed
import VoiceCall.Proofs.Media.Sending
import VoiceCall.Proofs.Media.History
import VoiceCall.Proofs.Media.Numbering
import VoiceCall.Proofs.Media.Nonces
import VoiceCall.Proofs.Media.Streams
import VoiceCall.Proofs.Media.Outgoing
import VoiceCall.Proofs.Hub.Asides
import VoiceCall.Proofs.Session.Frame
import VoiceCall.Proofs.Session.Actions
import VoiceCall.Proofs.Session.Turns
import VoiceCall.Proofs.Session.Milestones
import VoiceCall.Proofs.Session.Wire
import VoiceCall.Proofs.Json.Fields
import VoiceCall.Proofs.Json.Tokens
import VoiceCall.Proofs.Json.Characters
import VoiceCall.Proofs.Json.Numerals
import VoiceCall.Proofs.Json.RoundTrip
import VoiceCall.Proofs.Json.Records
import VoiceCall.Proofs.Json.Places
import VoiceCall.Proofs.Json.Skipping
import VoiceCall.Proofs.Json.Objects
import VoiceCall.Proofs.Relay.Payloads
import VoiceCall.Proofs.Relay.Envelopes
import VoiceCall.Proofs.Relay.Text
import VoiceCall.Proofs.Decoding.Workers
import VoiceCall.Proofs.Hub.Bookkeeping
import VoiceCall.Proofs.Hub.History
import VoiceCall.Proofs.Hub.Events
import VoiceCall.Proofs.Hub.Departures
import VoiceCall.Proofs.Hub.Errands
import VoiceCall.Proofs.Hub.Reports
import VoiceCall.Proofs.Buffer.Window
import VoiceCall.Proofs.Decoding.Conservation
import VoiceCall.Proofs.Hub.Index
import VoiceCall.Proofs.Session.Upkeep
import VoiceCall.Proofs.Session.Services
import VoiceCall.Proofs.Session.Users
import VoiceCall.Proofs.Session.Activity
import VoiceCall.Proofs.Session.Noise
import VoiceCall.Proofs.Playback.Isolation
import VoiceCall.Proofs.Decoding.Renaming
import VoiceCall.Proofs.Decoding.Settling
import VoiceCall.Proofs.Hub.Twins
import VoiceCall.Proofs.Session.Parallel
import VoiceCall.Proofs.Session.Teardown
import VoiceCall.Proofs.Number.Proper
import VoiceCall.Proofs.Audio.Limits
import VoiceCall.Proofs.Json.Magnitudes
import VoiceCall.Proofs.Json.Grammar
import VoiceCall.Proofs.Json.Kinds
import VoiceCall.Proofs.Json.Drafts
import VoiceCall.Proofs.Settings.Content
import VoiceCall.Proofs.Settings.Loading
import VoiceCall.Proofs.Settings.Saving
import VoiceCall.Proofs.Microphone.Accounting
import VoiceCall.Proofs.Session.Strangers
import VoiceCall.Proofs.Session.Ourselves
import VoiceCall.Proofs.Decoding.Extension
import VoiceCall.Proofs.Number.Rounding
import VoiceCall.Proofs.Number.Pattern
import VoiceCall.Proofs.Number.Quotient
import VoiceCall.Proofs.Relay.Heartbeat
import VoiceCall.Proofs.Audio.Peaks
import VoiceCall.Proofs.Number.Magnitude
import VoiceCall.Proofs.Audio.FullScale
import VoiceCall.Proofs.Playback.Levels
import VoiceCall.Proofs.Microphone.Range
import VoiceCall.Proofs.Buffer.Supply
import VoiceCall.Proofs.Playback.Audibility
import VoiceCall.Proofs.Buffer.Memory
import VoiceCall.Proofs.Sound.Groups
import VoiceCall.Proofs.Sound.Framing
import VoiceCall.Proofs.Sound.Filling
import VoiceCall.Proofs.Packet.Stripping
import VoiceCall.Proofs.Decoding.Succession
import VoiceCall.Proofs.Decoding.Losses
import VoiceCall.Proofs.Media.Replies
import VoiceCall.Proofs.Media.Receiving
import VoiceCall.Proofs.Number.Overflow
import VoiceCall.Proofs.Audio.Infinities
import VoiceCall.Proofs.Playback.Range
import VoiceCall.Proofs.Playback.Scratch
import VoiceCall.Proofs.Playback.Splitting
import VoiceCall.Proofs.Speaker.Registration
import VoiceCall.Proofs.Hub.Doubles
import VoiceCall.Proofs.Sound.Names
import VoiceCall.Proofs.Hub.Tuning
import VoiceCall.Proofs.Sound.Choice
import VoiceCall.Proofs.Sound.Fallback
