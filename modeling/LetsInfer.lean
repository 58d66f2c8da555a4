import LetsInfer.Gateway.LineBuffers
import LetsInfer.Gateway.Capacity
import LetsInfer.Gateway.Conservation
import LetsInfer.Gateway.QueueTime
import LetsInfer.Gateway.Restart
import LetsInfer.Gateway.Cleanup
import LetsInfer.PrefixStore.Admission
import LetsInfer.PrefixStore.TierRuns
import LetsInfer.Update.Readiness
import LetsInfer.Watchdog.EventTorn
import LetsInfer.Watchdog.TickRecovery
import LetsInfer.Watchdog.OomKill
import LetsInfer.Watchdog.Containment
import LetsInfer.Watchdog.LiveFanout
import LetsInfer.Watchdog.ControllerSessions
import LetsInfer.Watchdog.GatewayTelemetry
import LetsInfer.Authentication.Permanence
import LetsInfer.Audit.TamperEvidence
import LetsInfer.Node.CycleReplay
