import LedgerView.Config
/-!
# Telemetry settings

The names and switches under which a process reports, as far as they follow from its environment.
-/

namespace LedgerView

structure TelemetryConfig where
  serviceName : String
  otlpEndpoint? : Option String
  logLevel : String
  engineLogLevel? : Option String
  consoleOutput : Bool
  jsonLogs : Bool
  network : String
  deriving DecidableEq, Repr

namespace TelemetryConfig

/-- A switch that is on for `1`, `true` and `yes`, in any case and with blanks around. -/
def switch (env : Environment) (name : String) (fallback : Bool) : Bool :=
  match env.filled? name with
  | none => fallback
  | some value =>
    let word := String.ofList ((Text.trimChars value.toList).map Char.toLower)
    word = "1" || word = "true" || word = "yes"

/-- A process in a container logs in JSON unless told otherwise. -/
def inContainer (env : Environment) : Bool :=
  (env.get? "KUBERNETES_SERVICE_HOST").isSome || (env.get? "DOCKER_CONTAINER").isSome

def ofEnvironment (env : Environment) : TelemetryConfig where
  serviceName := (env.filled? "OTEL_SERVICE_NAME").getD "mirror-ledger"
  otlpEndpoint? := env.filled? "OTEL_EXPORTER_OTLP_ENDPOINT"
  logLevel :=
    ((env.filled? "MIRROR_LOG_LEVEL").or (env.filled? "RUST_LOG")).getD "info"
  engineLogLevel? := env.filled? "MIRROR_ENGINE_LOG_LEVEL"
  consoleOutput := switch env "MIRROR_CONSOLE_OUTPUT" true
  jsonLogs := switch env "MIRROR_JSON_LOGS" (inContainer env)
  network := (env.filled? "MIRROR_NETWORK").getD "testnet"

/-- The service name with the network behind it. -/
def fullServiceName (c : TelemetryConfig) : String :=
  c.serviceName ++ "-" ++ c.network

/-- The log filter: one level for all, and another for the engine if it has its own. -/
def filterDirective (c : TelemetryConfig) : String :=
  match c.engineLogLevel? with
  | none => c.logLevel
  | some level =>
    c.logLevel ++ ",ledger_reconstruction=" ++ level ++ ",mirror_telemetry=" ++ level

end TelemetryConfig

end LedgerView
