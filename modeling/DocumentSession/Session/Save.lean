import DocumentSession.Workspace.Settle
import DocumentSession.Session.Basic

set_option autoImplicit false

/-! # Saving a session

Everything that waits is sent as one request; if nothing waits, none is sent. -/

namespace DocumentSession.OpenSession

/-- The request for a plan. -/
def batchRequest (plan : Plan) : Request :=
  { method := .post, path := "/bulk_docs", body := some plan.body }

/-- Send a plan and settle the answer. -/
def sendPlan (s : OpenSession) (plan : Plan) : Except Halt Unit × OpenSession :=
  match s.send "save_changes" (batchRequest plan) with
  | (.error h, s) => (.error h, s)
  | (.ok response, s) =>
    if response.isSuccess then s.attempt (·.settle s.session.callbacks plan response.body)
    else
      let e := response.toError
      (.error (.failed e), if e.isConcurrencyConflict then s.warn .batchRejected else s)

/-- Save all changes. -/
def save (s : OpenSession) : Except Halt Unit × OpenSession :=
  match s.attempt (·.planSave s.session.callbacks) with
  | (.error h, s) => (.error h, s)
  | (.ok [], s) => (.ok (), s)
  | (.ok plan, s) => s.sendPlan plan

end DocumentSession.OpenSession
