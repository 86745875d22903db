import Telemetry.Daemon.Schedule
import Telemetry.Main
import Telemetry.Proofs.Calendar.Reading
import Telemetry.Proofs.Codec.Reading
import Telemetry.Proofs.Compress.Gzip
import Telemetry.Proofs.Consent.Loading
import Telemetry.Proofs.Consent.Mirror
import Telemetry.Proofs.Daemon.Accounting
import Telemetry.Proofs.Daemon.Closing
import Telemetry.Proofs.Daemon.Conservation
import Telemetry.Proofs.Daemon.Counting
import Telemetry.Proofs.Daemon.Custody
import Telemetry.Proofs.Daemon.Faults
import Telemetry.Proofs.Daemon.Ledger
import Telemetry.Proofs.Daemon.Lightening
import Telemetry.Proofs.Daemon.MissedRollover
import Telemetry.Proofs.Daemon.Permission
import Telemetry.Proofs.Daemon.Progress
import Telemetry.Proofs.Daemon.Retry
import Telemetry.Proofs.Daemon.Revocation
import Telemetry.Proofs.Daemon.Selection
import Telemetry.Proofs.Daemon.Sending
import Telemetry.Proofs.Daemon.Shutdown
import Telemetry.Proofs.Daemon.Sizes
import Telemetry.Proofs.Daemon.Threads
import Telemetry.Proofs.Event.Buffering
import Telemetry.Proofs.Event.Reading
import Telemetry.Proofs.KeyFile.RoundTrip
import Telemetry.Proofs.Payload.Canonical
import Telemetry.Proofs.Protocol.Calling
import Telemetry.Proofs.Protocol.Forwarding
import Telemetry.Proofs.Protocol.Refusal
import Telemetry.Proofs.Protocol.Serving
import Telemetry.Proofs.Protocol.Stamping
import Telemetry.Proofs.Protocol.Truncation
import Telemetry.Proofs.Tally.Contents
import Telemetry.Proofs.Tally.Counted
import Telemetry.Proofs.Tally.Deduction
import Telemetry.Proofs.Timer.Book
import Telemetry.Proofs.Timer.Coherence
import Telemetry.Proofs.Timer.Isolation
import Telemetry.Proofs.Timer.Splitting
import Telemetry.Proofs.Viewer.Totals
import Telemetry.Protocol.Client
import Telemetry.Protocol.Server
