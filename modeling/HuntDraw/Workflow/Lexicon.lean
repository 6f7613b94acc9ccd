import HuntDraw.Draw.Applicant
import HuntDraw.Draw.Config
import HuntDraw.Workflow.Vocabulary

/-! All closed sets of words, by the names that messages use for them. -/

namespace HuntDraw.Lexicon

/-- Every set with the names and texts of its members. -/
def sets : List (String × List (String × String)) := [
  (Worded.kind InstanceStatus, Worded.table InstanceStatus),
  (Worded.kind TaskType, Worded.table TaskType),
  (Worded.kind DataType, Worded.table DataType),
  (Worded.kind MimeType, Worded.table MimeType),
  (Worded.kind Domain, Worded.table Domain),
  (Worded.kind DocumentType, Worded.table DocumentType),
  (Worded.kind ProcessingStatus, Worded.table ProcessingStatus),
  (Worded.kind Residency, Worded.table Residency),
  (Worded.kind Outcome, Worded.table Outcome),
  (Worded.kind Direction, Worded.table Direction),
  (Worded.kind SortField, Worded.table SortField),
  (Worded.kind QuotaRule, Worded.table QuotaRule),
  (Worded.kind JobLogLevel, Worded.table JobLogLevel),
  (Worded.kind MessageKey, Worded.table MessageKey),
  (Worded.kind ResourceStatus, Worded.table ResourceStatus),
  (Worded.kind ExecutionStatus, Worded.table ExecutionStatus),
  (Worded.kind EdgeKind, Worded.table EdgeKind)]

/-- The name of the member of a set that a text stands for. -/
def memberName? (set text : String) : Option String :=
  (Fields.get? sets set).bind fun members => (members.find? (·.2 = text)).map (·.1)

end HuntDraw.Lexicon
