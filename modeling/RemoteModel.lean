import RemoteModel.Archive.Directory
import RemoteModel.Artifact.Format
import RemoteModel.Artifact.Layout
import RemoteModel.Artifact.Members
import RemoteModel.Artifact.MetaList
import RemoteModel.Artifact.ModelConfig
import RemoteModel.Artifact.Prebuilt
import RemoteModel.Artifact.Registration
import RemoteModel.Artifact.Source
import RemoteModel.Artifact.Staging
import RemoteModel.Auth.Descriptor
import RemoteModel.Auth.Field
import RemoteModel.Auth.KeySignature
import RemoteModel.Auth.LazySigner
import RemoteModel.Auth.Signer
import RemoteModel.Calendar
import RemoteModel.Connector.Action
import RemoteModel.Connector.Basic
import RemoteModel.Connector.Protocol
import RemoteModel.Digest.Mac
import RemoteModel.Digest.Sha256
import RemoteModel.Entries
import RemoteModel.Executor
import RemoteModel.Failure
import RemoteModel.Failure.Class
import RemoteModel.Files.Access
import RemoteModel.Files.Chunks
import RemoteModel.Files.Path
import RemoteModel.Files.Tree
import RemoteModel.Host
import RemoteModel.Http.Address
import RemoteModel.Http.Body
import RemoteModel.Http.Headers
import RemoteModel.Http.Numeric
import RemoteModel.Http.Request
import RemoteModel.Http.Response
import RemoteModel.Http.Session
import RemoteModel.Http.Target
import RemoteModel.Inference.Processor
import RemoteModel.Inference.Service
import RemoteModel.Inference.Tensor
import RemoteModel.Json.Basic
import RemoteModel.Json.Parser
import RemoteModel.Json.Printer
import RemoteModel.Json.Shown
import RemoteModel.Json.Whole
import RemoteModel.Log.Configuration
import RemoteModel.Log.Formatter
import RemoteModel.Log.Record
import RemoteModel.Number.Binary64
import RemoteModel.Number.Numeral
import RemoteModel.Number.Places
import RemoteModel.Number.Shortest
import RemoteModel.ObjectStorage
import RemoteModel.Proofs.Artifact.Fetch
import RemoteModel.Proofs.Artifact.Isolation
import RemoteModel.Proofs.Artifact.Layout
import RemoteModel.Proofs.Artifact.Members
import RemoteModel.Proofs.Artifact.ModelConfig
import RemoteModel.Proofs.Artifact.Objects
import RemoteModel.Proofs.Artifact.Offers
import RemoteModel.Proofs.Artifact.Prebuilt
import RemoteModel.Proofs.Artifact.Registering
import RemoteModel.Proofs.Artifact.Sweeping
import RemoteModel.Proofs.Artifact.Touched
import RemoteModel.Proofs.Artifact.Verdict
import RemoteModel.Proofs.Auth.Lazy
import RemoteModel.Proofs.Auth.Resolution
import RemoteModel.Proofs.Auth.Settings
import RemoteModel.Proofs.Auth.Signatures
import RemoteModel.Proofs.Auth.Signing
import RemoteModel.Proofs.Auth.Supply
import RemoteModel.Proofs.Calendar
import RemoteModel.Proofs.Calls.Alike
import RemoteModel.Proofs.Calls.Equipped
import RemoteModel.Proofs.Calls.Executor
import RemoteModel.Proofs.Calls.Failed
import RemoteModel.Proofs.Calls.Foreign
import RemoteModel.Proofs.Calls.Host
import RemoteModel.Proofs.Calls.Local
import RemoteModel.Proofs.Calls.Retried
import RemoteModel.Proofs.Calls.Secrets
import RemoteModel.Proofs.Calls.Single
import RemoteModel.Proofs.Calls.Unsent
import RemoteModel.Proofs.Calls.Wire
import RemoteModel.Proofs.Connector.Clone
import RemoteModel.Proofs.Connector.Credential
import RemoteModel.Proofs.Connector.Decrypted
import RemoteModel.Proofs.Connector.Document
import RemoteModel.Proofs.Connector.Encrypted
import RemoteModel.Proofs.Connector.Refused
import RemoteModel.Proofs.Entries
import RemoteModel.Proofs.Files.Folders
import RemoteModel.Proofs.Files.Found
import RemoteModel.Proofs.Files.Path
import RemoteModel.Proofs.Files.Reached
import RemoteModel.Proofs.Files.Removal
import RemoteModel.Proofs.Files.Route
import RemoteModel.Proofs.Files.Splitting
import RemoteModel.Proofs.Files.Staged
import RemoteModel.Proofs.Files.Stored
import RemoteModel.Proofs.Files.Zones
import RemoteModel.Proofs.Http.Address
import RemoteModel.Proofs.Http.Escapes
import RemoteModel.Proofs.Http.Headers
import RemoteModel.Proofs.Http.Readings
import RemoteModel.Proofs.Http.Target
import RemoteModel.Proofs.Inference.Answers
import RemoteModel.Proofs.Inference.Batches
import RemoteModel.Proofs.Inference.Bodies
import RemoteModel.Proofs.Inference.Errors
import RemoteModel.Proofs.Inference.Operations
import RemoteModel.Proofs.Inference.Payloads
import RemoteModel.Proofs.Json.Bare
import RemoteModel.Proofs.Json.Consumed
import RemoteModel.Proofs.Json.Everywhere
import RemoteModel.Proofs.Json.Frames
import RemoteModel.Proofs.Json.Numbers
import RemoteModel.Proofs.Json.Quoted
import RemoteModel.Proofs.Json.RoundTrip
import RemoteModel.Proofs.Json.Shown
import RemoteModel.Proofs.Json.Steps
import RemoteModel.Proofs.Json.Stopped
import RemoteModel.Proofs.Json.Written
import RemoteModel.Proofs.Log.Covered
import RemoteModel.Proofs.Log.Lines
import RemoteModel.Proofs.ObjectStorage
import RemoteModel.Proofs.ObjectStorage.Attempts
import RemoteModel.Proofs.ObjectStorage.Clients
import RemoteModel.Proofs.ObjectStorage.Failures
import RemoteModel.Proofs.Resilience.Attempts
import RemoteModel.Proofs.Resilience.Breaker
import RemoteModel.Proofs.Resilience.Outcomes
import RemoteModel.Proofs.Resilience.Runs
import RemoteModel.Proofs.Results
import RemoteModel.Proofs.Template
import RemoteModel.Proofs.Template.Occurrences
import RemoteModel.Proofs.Template.Rendered
import RemoteModel.Proofs.Text.Case
import RemoteModel.Proofs.Text.Digits
import RemoteModel.Proofs.Text.Utf8
import RemoteModel.Provider
import RemoteModel.Resilience.Breaker
import RemoteModel.Resilience.Classifier
import RemoteModel.Resilience.Retry
import RemoteModel.Settings
import RemoteModel.Template
import RemoteModel.Text.Base64
import RemoteModel.Text.Blank
import RemoteModel.Text.Case
import RemoteModel.Text.Charset
import RemoteModel.Text.Directive
import RemoteModel.Text.Percent
import RemoteModel.Text.Quoted
import RemoteModel.Text.Rune
import RemoteModel.Text.Table.Case
import RemoteModel.Text.Table.Digit
import RemoteModel.Text.Table.Printable
import RemoteModel.Text.Utf8
