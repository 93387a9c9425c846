import Wagman.Lib.Run
import Wagman.Lib.Lines
import Wagman.V4.Theorems.Heartbeat
import Wagman.V4.Theorems.Relay
import Wagman.V4.Theorems.Journal
import Wagman.V4.Theorems.Selector
import Wagman.V4.Theorems.NextMedia
import Wagman.V4.Theorems.Grace
import Wagman.V4.Theorems.Supervision
import Wagman.V4.Theorems.Privilege
import Wagman.V4.Theorems.Sequencer
import Wagman.V4.Theorems.Accounting
import Wagman.V4.Theorems.Requests
import Wagman.V4.Theorems.Edges
import Wagman.V4.Theorems.Fields
import Wagman.V4.Theorems.FirstBoot
import Wagman.V4.Theorems.Torn
import Wagman.V3.Theorems.Enabled
import Wagman.V3.Theorems.Recovery
import Wagman.V3.Theorems.Failures
import Wagman.V3.Theorems.Beats
import Wagman.V3.Theorems.Sensors
import Wagman.Text.Theorems.Framing
import Wagman.Text.Theorems.Tokens
import Wagman.V3.Theorems.Arguments
import Wagman.V3.Theorems.Clock
import Wagman.V2.Theorems.Boot
import Wagman.V2.Theorems.Attempts
import Wagman.V2.Theorems.Timeouts
import Wagman.V2.Theorems.Debug
import Wagman.V2.Theorems.Heartbeats
import Wagman.V2.Theorems.Params
import Wagman.V4.Theorems.StopDelay
import Wagman.Theorems.Disabled
import Wagman.V4.Theorems.Addressing
import Wagman.V4.Theorems.BootLog
import Wagman.V3.Theorems.BootDelta
import Wagman.V3.Theorems.Bootloader
import Wagman.V3.Theorems.Programmer
import Wagman.V3.Theorems.Serial
import Wagman.V3.Theorems.HTU21D
import Wagman.V3.Theorems.Spacing
import Wagman.V3.Theorems.Lifetime
import Wagman.V3.Theorems.Journal
import Wagman.V3.Theorems.Attempts
import Wagman.V4.Theorems.External
import Wagman.V3.Theorems.Time
import Wagman.V2.Theorems.Lifetime
import Wagman.V4.Theorems.Spacing
import Wagman.V4.Lemmas.Safemode
import Wagman.Lib.Credit
import Wagman.V4.Theorems.Safemode
