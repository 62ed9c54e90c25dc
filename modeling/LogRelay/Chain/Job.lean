import LogRelay.Uuid
import LogRelay.Text.Report

/-!
# Jobs

A listener processes logs for a job.  There are two schemes of job identities, which
never meet: a job of the first has a universally unique identifier, a job of the
second a number.
-/

namespace LogRelay

/-- The identity under which a listener processes logs. -/
inductive JobIdentity where
  | v1 (id : Uuid)
  | v2 (id : Int32)
deriving DecidableEq, Inhabited

namespace JobIdentity

/-- The usual text of a job. -/
def text : JobIdentity → String
  | v1 id => "job:" ++ Uuid.short id
  | v2 id => "job-v2:" ++ toString id.toInt

/-- The job as diagnostics show it. -/
def report : JobIdentity → String
  | v1 id => Text.reportCase "V1" (Uuid.report id)
  | v2 id => Text.reportCase "V2" (toString id.toInt)

end JobIdentity

end LogRelay
