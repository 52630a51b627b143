import VaultGovernance.Metrics.Event

/-!
# VaultGovernance.Metrics.Exposition

The counters as they are exposed: one line for each, with its labels.  Counters
of requests are left out, and the counter of normalized claims has a line even
before anything was counted.
-/

namespace VaultGovernance

namespace Metrics

/-- The counter of normalized claims. -/
def claimsCounter : Count := ⟨"claims_normalized_total", [], 0⟩

/-- The name of the counters of requests. -/
def requestsName : String := "http_requests_total"

/-- The labels of a counter between braces. -/
def labelText (labels : List (String × String)) : String :=
  if labels.isEmpty then ""
  else "\x7b" ++ ",".intercalate (labels.map fun l => l.1 ++ "=\"" ++ l.2 ++ "\"") ++ "\x7d"

/-- The line of a counter. -/
def line (c : Count) : String :=
  c.name ++ labelText c.labels ++ " " ++ natText c.amount ++ ".0"

/-- The lines of all counters after some events, in order of their text. -/
def lines (events : List Event) : List String :=
  let counted := claimsCounter.addTo (counters events)
  sortTexts ((counted.filter fun c => c.name ≠ requestsName).map line)

end Metrics

end VaultGovernance
