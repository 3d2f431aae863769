import Runbook.Config
import Runbook.Run.Record

/-!
# Notifications

A message sums up a finished run. Each channel chooses whether it wants completed runs, failed
runs, or both; a run that ended in any other way interests nobody.
-/

namespace Runbook

/-- A summary of a run. -/
structure NotificationMessage where
  automationId : String
  automationName : String
  projectId : String
  projectName : String
  runId : String
  status : String
  startTime : Option Timestamp := none
  endTime : Option Timestamp := none
  errorMessage : String := ""
  outputFiles : List String := []
  logsCount : Int := 0

namespace NotificationMessage

/-- The message as a document. -/
def toRecord (m : NotificationMessage) : Json := .object [
  ("automation_id", .text m.automationId),
  ("automation_name", .text m.automationName),
  ("project_id", .text m.projectId),
  ("project_name", .text m.projectName),
  ("run_id", .text m.runId),
  ("status", .text m.status),
  ("start_time", Timestamp.orNull m.startTime),
  ("end_time", Timestamp.orNull m.endTime),
  ("error_message", .text m.errorMessage),
  ("output_files", .list (m.outputFiles.map Json.text)),
  ("logs_count", .int m.logsCount)]

/-- Whether a channel wants a message. -/
def wantedBy (m : NotificationMessage) (c : Channel) : Bool :=
  (m.status == "completed" && c.onComplete) || (m.status == "failed" && c.onError)

/-- The channels that want a message, in order. -/
def channelsFor (m : NotificationMessage) (channels : List Channel) : List Channel :=
  channels.filter m.wantedBy

end NotificationMessage

end Runbook
