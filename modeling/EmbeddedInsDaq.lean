import EmbeddedInsDaq.Control.ConfigContract
import EmbeddedInsDaq.Control.ConfigRejection
import EmbeddedInsDaq.Control.FaultHistory
import EmbeddedInsDaq.Control.RecoverableFaults
import EmbeddedInsDaq.Control.SessionHistory
import EmbeddedInsDaq.Control.SessionReachable
import EmbeddedInsDaq.Logging.ConfigHash
import EmbeddedInsDaq.Logging.CopyRanges
import EmbeddedInsDaq.Logging.RecordContents
import EmbeddedInsDaq.Logging.RecordFailure
import EmbeddedInsDaq.Logging.RecordIntegrity
import EmbeddedInsDaq.Logging.UartSize
import EmbeddedInsDaq.Platform.ClockProbe
import EmbeddedInsDaq.Platform.ClockSmoke
import EmbeddedInsDaq.Tools.FirmwareCase
import EmbeddedInsDaq.Tools.LogErrors
import EmbeddedInsDaq.Tools.LogIntegrity
import EmbeddedInsDaq.Tools.LogPrinting
import EmbeddedInsDaq.Tools.LogRoundTrip
import EmbeddedInsDaq.Tools.MonitorVerdict
import EmbeddedInsDaq.Tools.MonitorWindow
import EmbeddedInsDaq.Tools.RunMetadata
import EmbeddedInsDaq.Tools.SanitizeLog
