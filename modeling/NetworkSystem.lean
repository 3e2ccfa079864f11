import NetworkSystem.Wire.Theorems
import NetworkSystem.Queue.Theorems
import NetworkSystem.Shutdown.Theorems
import NetworkSystem.Server.Lemmas.Receive
import NetworkSystem.Server.Theorems
import NetworkSystem.Breaker.Theorems
import NetworkSystem.Cache.Theorems
import NetworkSystem.Pool.Theorems
import NetworkSystem.Limiter.Theorems
import NetworkSystem.Session.Lemmas.Alone
import NetworkSystem.Session.Theorems
import NetworkSystem.Client.Theorems
import NetworkSystem.Link.Theorems
import NetworkSystem.Handler.Theorems
import NetworkSystem.Balancer.Theorems
import NetworkSystem.Processor.Theorems
import NetworkSystem.Tls.Theorems
import NetworkSystem.Tracing.Theorems
