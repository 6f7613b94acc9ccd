import HuntDraw.Proofs.Data.Line
import HuntDraw.Proofs.Draw.Config
import HuntDraw.Proofs.Node.Payload
import HuntDraw.Store.Rows

/-! A record is read back from its row. Lists that are kept in one column come back with their order and their
repetitions. -/

namespace HuntDraw

open Json (Plain)

namespace RowValue

variable {α : Type}

@[simp] theorem text?_text (s : String) : text? (.text s) = some s := rfl

@[simp] theorem flag?_flag (b : Bool) : flag? (.flag b) = some b := rfl

@[simp] theorem nullable?_ofText? (s : Option String) : nullable? (ofText? s) = some s := by
  cases s <;> rfl

@[simp] theorem member?_text [Worded α] (s : String) : member? α (.text s) = Worded.ofText? s := rfl

theorem json?_ofJson {v : Json} {check : Check α} {a : α} (hv : v.Plain) (hcheck : check v = .valid a) :
    json? check (ofJson v) = some a := by
  change (do
    let value ← (Json.read v.line.toList).toOption
    (check value).toExcept.toOption) = some a
  rw [hv.read_line]
  change (check v).toExcept.toOption = some a
  rw [hcheck]
  rfl

end RowValue

open RowValue

theorem InstanceStatus.ofText?_text (s : InstanceStatus) : Worded.ofText? s.text = some s := by cases s <;> rfl

theorem JobLogLevel.ofText?_text (l : JobLogLevel) : Worded.ofText? l.text = some l := by cases l <;> rfl

theorem MessageKey.ofText?_text (k : MessageKey) : Worded.ofText? k.text = some k := by cases k <;> rfl

theorem DocumentType.ofText?_text (t : DocumentType) : Worded.ofText? t.text = some t := by cases t <;> rfl

theorem ProcessingStatus.ofText?_text (s : ProcessingStatus) : Worded.ofText? s.text = some s := by cases s <;> rfl

theorem Instance.ofRow_row (i : Instance) : ofRow i.row = .ok i := by
  simp [ofRow, row, Row.read, Fields.get?_cons, InstanceStatus.ofText?_text, Attempt.ok_bind]

theorem Job.ofRow_row (j : Job) : ofRow j.row = .ok j := by
  simp [ofRow, row, Row.read, Fields.get?_cons, Attempt.ok_bind]

namespace JobLog

theorem plain_paramsJson (params : List (String × String)) : (paramsJson params).Plain :=
  .list (List.forall_mem_map.2 fun _ _ => .of_names ["key", "value"] rfl (by decide) (by simp [Plain.text]))

/-- Parameters come back in their order, keys that stand more than once among them. -/
theorem checkParams_paramsJson (params : List (String × String)) :
    Check.sequence checkParam (paramsJson params) = .valid params :=
  Check.sequence_map fun _ _ => rfl

theorem ofRow_row (l : JobLog) : ofRow l.row = .ok l := by
  have hparams : json? (Check.sequence checkParam) (ofJson (paramsJson l.params)) = some l.params :=
    json?_ofJson (plain_paramsJson l.params) (checkParams_paramsJson l.params)
  simp [ofRow, row, Row.read, Fields.get?_cons, JobLogLevel.ofText?_text, MessageKey.ofText?_text, hparams,
    Attempt.ok_bind]

end JobLog

theorem NodeRecord.ofRow_row (n : NodeRecord) : ofRow n.row = .ok n := by
  simp [ofRow, row, Row.read, Fields.get?_cons, Attempt.ok_bind]

theorem EdgeRecord.ofRow_row (e : EdgeRecord) : ofRow e.row = .ok e := by
  simp [ofRow, row, Row.read, Fields.get?_cons, Attempt.ok_bind]

theorem DocumentRecord.ofRow_row (d : DocumentRecord) : ofRow d.row = .ok d := by
  simp [ofRow, row, Row.read, Fields.get?_cons, DocumentType.ofText?_text, ProcessingStatus.ofText?_text,
    Attempt.ok_bind]

theorem NodeData.check_toJson (d : NodeData) : check d.toJson = .valid d := by
  obtain ⟨uri, type, domain, model⟩ := d
  cases type <;> cases domain <;> rfl

theorem NodeResult.ofRow_row (r : NodeResult) : ofRow r.row = .ok r := by
  have hresults : json? (Check.sequence NodeData.check) (ofJson (.list (r.results.map NodeData.toJson))) =
      some r.results :=
    json?_ofJson (.list (List.forall_mem_map.2 fun d _ => d.plain_toJson))
      (Check.sequence_map fun d _ => d.check_toJson)
  simp [ofRow, row, Row.read, Fields.get?_cons, hresults, Attempt.ok_bind]

theorem SortRule.check_toJson (r : SortRule) : check r.toJson = .valid r := by
  obtain ⟨field, direction⟩ := r
  cases field <;> cases direction <;> rfl

theorem SortRule.plain_toJson (r : SortRule) : r.toJson.Plain :=
  .of_names ["field", "direction"] rfl (by decide) (by simp [Plain.text])

theorem DrawSort.ofRow_row (s : DrawSort) : ofRow s.row = .ok s := by
  have hrules : json? (Check.sequence SortRule.check) (ofJson (.list (s.rules.map SortRule.toJson))) = some s.rules :=
    json?_ofJson (.list (List.forall_mem_map.2 fun r _ => r.plain_toJson))
      (Check.sequence_map fun r _ => r.check_toJson)
  simp [ofRow, row, columns, Row.read, Fields.get?_cons, hrules, Attempt.ok_bind]

namespace DrawConfig

theorem plain_ofTexts (xs : List String) : (Json.ofTexts xs).Plain := .list (List.forall_mem_map.2 fun x _ => .text x)

theorem checkRules_ofTexts {rules : List QuotaRule} (h : rules.Nodup) :
    checkRules (Json.ofTexts (rules.map QuotaRule.text)) = .valid rules := by
  have hmembers : Check.sequence (Check.member QuotaRule) (Json.ofTexts (rules.map QuotaRule.text)) = .valid rules := by
    rw [Json.ofTexts, List.map_map]
    exact Check.sequence_map fun r _ => by cases r <;> rfl
  rw [checkRules, hmembers, Checked.andThen, if_pos h]

/-- A valid configuration comes back from its row, whichever node it belongs to. -/
theorem ofRow_row {c : DrawConfig} (h : c.IsValid) (node : String) : ofRow (row (node, c)) = .ok c := by
  have hrules : json? checkRules (ofJson (Json.ofTexts (c.rules.map QuotaRule.text))) = some c.rules :=
    json?_ofJson (plain_ofTexts _) (checkRules_ofTexts h.rules)
  have happlicants : json? checkApplicants (ofJson (Json.ofTexts c.applicants)) = some c.applicants :=
    json?_ofJson (plain_ofTexts _) (checkApplicants_eq h.applicants)
  simp [ofRow, row, columns, Row.read, Fields.get?_cons, hrules, happlicants, Attempt.ok_bind]

end DrawConfig
end HuntDraw
