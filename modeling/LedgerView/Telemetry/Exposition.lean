/-!
# Exposition

The names, kinds and help texts under which metrics are exposed, and the bounds of the duration
histogram, which double from half a millisecond on.
-/

namespace LedgerView

inductive MetricKind where
  | counter
  | gauge
  | histogram
  deriving DecidableEq, Repr

def MetricKind.label : MetricKind → String
  | .counter => "counter"
  | .gauge => "gauge"
  | .histogram => "histogram"

structure ExposedMetric where
  name : String
  help : String
  kind : MetricKind
  deriving DecidableEq, Repr

namespace ExposedMetric

/-- All exposed metrics by name. -/
def all : List ExposedMetric := [
  ⟨"mirror_ledger_errors_total", "Engine errors by kind", .counter⟩,
  ⟨"mirror_ledger_queries_total", "Engine queries served", .counter⟩,
  ⟨"mirror_ledger_query_duration_seconds", "Time spent answering an engine query", .histogram⟩,
  ⟨"mirror_scan_batches_total", "Transaction pages fetched by the batched scan", .counter⟩,
  ⟨"mirror_scan_transfer_corrections_total",
    "Pages patched with historical token transfers", .counter⟩,
  ⟨"mirror_store_active_scopes", "Deadline-bound store scopes currently open", .gauge⟩,
  ⟨"mirror_store_timeouts_total", "Store calls that exceeded their deadline", .counter⟩]

def header (m : ExposedMetric) : List String :=
  ["# HELP " ++ m.name ++ " " ++ m.help, "# TYPE " ++ m.name ++ " " ++ m.kind.label]

def headers : List String :=
  all.flatMap header

end ExposedMetric

/-- Tenths of milliseconds as a decimal number of seconds without zeros at the end. -/
def secondsText (tenthMs : Nat) : String :=
  let fraction := (Nat.toDigits 10 (10000 + tenthMs % 10000)).tail
  let shown := (fraction.reverse.dropWhile (· = '0')).reverse
  let whole := Nat.toDigits 10 (tenthMs / 10000)
  String.ofList (if shown = [] then whole else whole ++ '.' :: shown)

/-- The upper bounds of the duration histogram. -/
def durationBounds : List String :=
  (List.range 14).map (fun k => secondsText (5 <<< k)) ++ ["+Inf"]

end LedgerView
