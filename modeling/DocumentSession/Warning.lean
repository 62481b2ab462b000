set_option autoImplicit false

/-! # Warnings

What a session tells its operator beside the answers it gives to its caller. -/

namespace DocumentSession

/-- A warning. -/
inductive Warning where
  | budgetExhausted
  | budgetNearlyExhausted
  | batchRejected
  | serverReplacedDocument
  | lazyRetry
  | lazyGaveUp
  deriving DecidableEq, Repr

/-- The text of a warning. -/
def Warning.message : Warning → String
  | .budgetExhausted => "Request budget exhausted"
  | .budgetNearlyExhausted =>
    "Session is close to its request budget. Consider batching loads or using lazy operations."
  | .batchRejected => "Batch rejected by concurrency check"
  | .serverReplacedDocument => "Server-assigned id replaced a tracked document"
  | .lazyRetry => "Lazy response must be retried, re-queueing"
  | .lazyGaveUp => "Lazy operation gave up after repeated retries"

end DocumentSession
