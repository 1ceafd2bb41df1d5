import FaultBench.Board.BringUp
import FaultBench.Board.Device
import FaultBench.Board.Register
import FaultBench.CommandLine.Execution
import FaultBench.CommandLine.Grammar
import FaultBench.CommandLine.Invocation
import FaultBench.Files
import FaultBench.Firmware.Build
import FaultBench.Host.Interpretation
import FaultBench.Host.Link
import FaultBench.Host.Output
import FaultBench.Host.Record
import FaultBench.Host.Serial
import FaultBench.Host.Session
import FaultBench.Log
import FaultBench.Main
import FaultBench.Number.Binary64
import FaultBench.Profile.Basic
import FaultBench.Profile.Constants
import FaultBench.Profile.Document
import FaultBench.Profile.File
import FaultBench.Profile.Validation
import FaultBench.Profile.Written
import FaultBench.Proofs.Bench.Agreement
import FaultBench.Proofs.Bench.Answers
import FaultBench.Proofs.Bench.Attribution
import FaultBench.Proofs.Bench.Composition
import FaultBench.Proofs.Bench.Payloads
import FaultBench.Proofs.Bench.Prediction
import FaultBench.Proofs.Board.BringUp
import FaultBench.Proofs.Board.Effects
import FaultBench.Proofs.CommandLine.Refusal
import FaultBench.Proofs.Files
import FaultBench.Proofs.Firmware.Build
import FaultBench.Proofs.Firmware.Constants
import FaultBench.Proofs.Firmware.LineRate
import FaultBench.Proofs.Host.Classification
import FaultBench.Proofs.Host.Copies
import FaultBench.Proofs.Host.Delays
import FaultBench.Proofs.Host.Diagnosis
import FaultBench.Proofs.Host.Exchange
import FaultBench.Proofs.Host.Exchanges
import FaultBench.Proofs.Host.FailingSinks
import FaultBench.Proofs.Host.Listening
import FaultBench.Proofs.Host.Reading
import FaultBench.Proofs.Host.Recording
import FaultBench.Proofs.Host.Results
import FaultBench.Proofs.Host.Waiting
import FaultBench.Proofs.Profile.Constants
import FaultBench.Proofs.Profile.Overlay
import FaultBench.Proofs.Profile.RoundTrip
import FaultBench.Proofs.Profile.Validation
import FaultBench.Proofs.Target.Capacity
import FaultBench.Proofs.Target.Independence
import FaultBench.Proofs.Target.Operation
import FaultBench.Proofs.Target.Reading
import FaultBench.Proofs.Target.Segment
import FaultBench.Proofs.Target.Selection
import FaultBench.Proofs.Target.Sending
import FaultBench.Proofs.Target.Service
import FaultBench.Proofs.Target.Trace
import FaultBench.Proofs.Target.Writing
import FaultBench.Proofs.Text.Ascii
import FaultBench.Proofs.Text.Digits
import FaultBench.Proofs.Text.HexInput
import FaultBench.Proofs.Text.HexLayout
import FaultBench.Proofs.Text.HexSlices
import FaultBench.Proofs.Text.Json
import FaultBench.Proofs.Wire.Buffer
import FaultBench.Proofs.Wire.Counter
import FaultBench.Proofs.Wire.Detection
import FaultBench.Proofs.Wire.Frame
import FaultBench.Proofs.Wire.Length
import FaultBench.Proofs.Wire.Reception
import FaultBench.Proofs.Wire.Runs
import FaultBench.Proofs.Wire.Spelling
import FaultBench.Proofs.Wire.Splitting
import FaultBench.Proofs.Wire.Stream
import FaultBench.Proofs.Wire.Stuffing
import FaultBench.Proofs.Workload.Contents
import FaultBench.Proofs.Workload.Exactness
import FaultBench.Proofs.Workload.InPlace
import FaultBench.Proofs.Workload.Stepping
import FaultBench.Proofs.Workload.Verdict
import FaultBench.Proofs.Yaml.Nodes
import FaultBench.Proofs.Yaml.Readings
import FaultBench.Proofs.Yaml.Records
import FaultBench.Proofs.Yaml.Scanning
import FaultBench.Proofs.Yaml.Tokens
import FaultBench.Proofs.Yaml.Values
import FaultBench.Proofs.Yaml.Words
import FaultBench.Target.Channel
import FaultBench.Target.Harness
import FaultBench.Target.Line
import FaultBench.Text.Blank
import FaultBench.Text.Concealed
import FaultBench.Text.Digits
import FaultBench.Text.Duration
import FaultBench.Text.HexInput
import FaultBench.Text.Json
import FaultBench.Text.Quoted
import FaultBench.Wire.Assembler
import FaultBench.Wire.Checksum
import FaultBench.Wire.Command
import FaultBench.Wire.Counter
import FaultBench.Wire.Packet
import FaultBench.Wire.Receiver
import FaultBench.Wire.Stuffing
import FaultBench.Workload.Basic
import FaultBench.Workload.BufferCopy
import FaultBench.Workload.BufferInit
import FaultBench.Workload.Counting
import FaultBench.Workload.Kind
import FaultBench.Yaml.Cursor
import FaultBench.Yaml.Decoding
import FaultBench.Yaml.Event
import FaultBench.Yaml.Gap
import FaultBench.Yaml.Layout
import FaultBench.Yaml.Meaning
import FaultBench.Yaml.Node
import FaultBench.Yaml.Scalar.Block
import FaultBench.Yaml.Scalar.Plain
import FaultBench.Yaml.Scalar.Quoted
import FaultBench.Yaml.Scalar.Written
import FaultBench.Yaml.Tag
import FaultBench.Yaml.Token
