import Ovrly.Jobs.Refinement
import Ovrly.Jobs.RetryCaps
import Ovrly.Reports.Chain
import Ovrly.Reports.Expansion
import Ovrly.Extraction.Sending
import Ovrly.Evidence.Stranded
import Ovrly.Extraction.Replay
import Ovrly.Asr.Cancellation
import Ovrly.Pipeline.FanOut
import Ovrly.Receipts.Cancellation
import Ovrly.Uploads.TextLog
import Ovrly.Admission.Daily
import Ovrly.Accounts.Integrity
import Ovrly.Captures.Agreement
import Ovrly.Captures.FrameLedger
import Ovrly.Providers.Pauses
import Ovrly.Providers.Shared
import Ovrly.Releases.Codes
import Ovrly.Reports.Corrections
import Ovrly.Evidence.Queries
import Ovrly.Evidence.Aggregation
import Ovrly.Evidence.Scope
import Ovrly.Asr.SpeechTimes
import Ovrly.Completions.Grammar
import Ovrly.Completions.Parse
import Ovrly.Voice.Playback
import Ovrly.Shares.Staleness
import Ovrly.Captures.FrameSampler
import Ovrly.Providers.Recovery
import Ovrly.Egress.Fetch
import Ovrly.Captures.TextRegions
import Ovrly.Voice.StrictEscapes
import Ovrly.Pipeline.Truthful
import Ovrly.Asr.RetryRuns
import Ovrly.Captures.StorageBound
import Ovrly.Captures.UploadLaw
import Ovrly.Voice.SessionRuns
import Ovrly.Shares.RecoveryLaw
