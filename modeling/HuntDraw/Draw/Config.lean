import HuntDraw.Schema.Check

/-! What the author of a draw decides: the order of applicants, the quota rules in force, and who
takes part. -/

namespace HuntDraw

inductive SortField where
  | number
  | age
  | residency
  | points
  deriving DecidableEq, Repr

def SortField.text : SortField → String
  | .number => "application_number"
  | .age => "age"
  | .residency => "residency"
  | .points => "point_balance"

instance : Worded SortField where
  kind := "DrawSortField"
  all := [.number, .age, .residency, .points]
  name
    | .number => "APPLICATION_NUMBER"
    | .age => "AGE"
    | .residency => "RESIDENCY"
    | .points => "POINT_BALANCE"
  text := SortField.text

inductive Direction where
  | ascending
  | descending
  deriving DecidableEq, Repr

def Direction.text : Direction → String
  | .ascending => "ASC"
  | .descending => "DESC"

instance : Worded Direction where
  kind := "DrawSortDirection"
  all := [.ascending, .descending]
  name := Direction.text
  text := Direction.text

structure SortRule where
  field : SortField
  direction : Direction := .ascending
  deriving DecidableEq, Repr

structure DrawSort where
  id : String
  name : String
  rules : List SortRule := []
  deriving DecidableEq, Repr

inductive QuotaRule where
  /-- Unused reserved quota flows on to the next draw. -/
  | flow
  /-- Non-residents get no more than their share. -/
  | nonResidentCap
  /-- The draw hands out the reserved pool only. -/
  | reserved
  deriving DecidableEq, Repr

def QuotaRule.text : QuotaRule → String
  | .flow => "FLOW_QUOTA"
  | .nonResidentCap => "NON_RESIDENT_CAP_ENFORCEMENT"
  | .reserved => "WP_RES_QUOTA"

instance : Worded QuotaRule where
  kind := "QuotaRule"
  all := [.flow, .nonResidentCap, .reserved]
  name := QuotaRule.text
  text := QuotaRule.text

/-- A non-empty list of applicants limits the draw to these application numbers, in plain digits. -/
structure DrawConfig where
  id : String
  name : String
  usePoints : Bool := false
  sortId : Option String := none
  rules : List QuotaRule := []
  applicants : List String := []
  deriving DecidableEq, Repr

namespace SortRule

def check : Check SortRule := fun v =>
  (Check.record "DrawSortRule" v).andThen fun fs =>
    SortRule.mk <$> Check.required fs "field" (Check.member SortField)
      <*> Check.optional fs "direction" .ascending (Check.member Direction)

def toJson (r : SortRule) : Json :=
  .object [("field", .text r.field.text), ("direction", .text r.direction.text)]

end SortRule

namespace DrawSort

def check : Check DrawSort := fun v =>
  (Check.record "DrawSort" v).andThen fun fs =>
    DrawSort.mk <$> Check.required fs "id" Check.text <*> Check.required fs "name" Check.text
      <*> Check.optional fs "rules" [] (Check.sequence SortRule.check)

def toJson (s : DrawSort) : Json :=
  .object [("id", .text s.id), ("name", .text s.name), ("rules", .list (s.rules.map SortRule.toJson))]

end DrawSort

namespace DrawConfig

def has (c : DrawConfig) (r : QuotaRule) : Bool := c.rules.contains r

/-- The plain digits of an application number, however it is spelt. -/
def canonicalNumber (entry : Json) : Except String String :=
  let text := Text.trimChars Text.isBlank entry.asText.toList
  if text.isEmpty ∨ !text.all Text.isDigit then
    .error s!"applicants must be application numbers, got {entry.shown}"
  else
    match Text.parseNumeral text with
    | .ok n => .ok (toString n)
    | .error f => .error f.message

def checkApplicants : Check (List String)
  | .list entries =>
    match entries.mapM canonicalNumber with
    | .ok numbers => .valid numbers
    | .error reason => Checked.complain (.refused reason)
  | _ => Checked.complain .notTuple

def checkRules : Check (List QuotaRule) := fun v =>
  (Check.sequence (Check.member QuotaRule) v).andThen fun rules =>
    if rules.Nodup then .valid rules else Checked.complain (.refused "quota_rule_flags must be unique")

def check : Check DrawConfig := fun v =>
  (Check.record "DrawConfig" v).andThen fun fs =>
    DrawConfig.mk <$> Check.required fs "id" Check.text <*> Check.required fs "name" Check.text
      <*> Check.optional fs "use_points" false Check.flag
      <*> Check.optional fs "sort_id" none (Check.nullable Check.text)
      <*> Check.optional fs "quota_rule_flags" [] checkRules
      <*> Check.optional fs "applicants" [] checkApplicants

def toJson (c : DrawConfig) : Json :=
  .object [
    ("id", .text c.id),
    ("name", .text c.name),
    ("use_points", .bool c.usePoints),
    ("sort_id", Json.ofText? c.sortId),
    ("quota_rule_flags", Json.ofTexts (c.rules.map QuotaRule.text)),
    ("applicants", Json.ofTexts c.applicants)]

end DrawConfig
end HuntDraw
