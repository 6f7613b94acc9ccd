import HuntDraw.Data.Json

/-! Hunt codes: what applicants choose, and the quota that each of them carries. -/

namespace HuntDraw

/-- The part of a quota open to non-residents. Its size is set for each draw that enforces the cap. -/
structure NonResidentPool where
  hardCap : Bool := false
  capPercent : Option Binary64 := none
  quota : Option Int := none
  balance : Option Int := none
  drawAwarded : Int := 0
  awarded : Int := 0
  deriving DecidableEq

structure ResidentPool where
  drawAwarded : Int := 0
  awarded : Int := 0
  deriving DecidableEq

/-- The part of a quota reserved for residents. -/
structure ReservedPool where
  enabled : Bool := false
  capPercent : Option Binary64 := none
  quota : Option Int := none
  balance : Option Int := none
  deriving DecidableEq

/-- Counters with `draw` in their names belong to the draw that is running. -/
structure HuntCode where
  code : String
  isValid : Bool
  isInDraw : Bool
  quota : Option Int := none
  drawQuota : Option Int := none
  previousBalance : Option Int := none
  balance : Option Int := none
  drawBalance : Option Int := none
  awarded : Int := 0
  drawAwarded : Int := 0
  nonResident : NonResidentPool := {}
  resident : ResidentPool := {}
  reserved : ReservedPool := {}
  deriving DecidableEq

namespace HuntCode

/-- What a draw may hand out at most: the balance, or the whole quota when none is recorded. -/
def startBalance (c : HuntCode) : Option Int := c.balance.or c.quota

def toJson (c : HuntCode) : Json :=
  .object [
    ("hunt_code", .text c.code),
    ("is_valid", .bool c.isValid),
    ("is_in_draw", .bool c.isInDraw),
    ("total_quota", Json.ofInt? c.quota),
    ("total_quota_in_this_draw", Json.ofInt? c.drawQuota),
    ("previous_quota_balance", Json.ofInt? c.previousBalance),
    ("quota_balance", Json.ofInt? c.balance),
    ("quota_balance_in_this_draw", Json.ofInt? c.drawBalance),
    ("total_quota_awarded", .int c.awarded),
    ("quota_awarded_in_this_draw", .int c.drawAwarded),
    ("non_resident", .object [
      ("has_hard_cap", .bool c.nonResident.hardCap),
      ("cap_percent", Json.ofOption .float c.nonResident.capPercent),
      ("total_quota", Json.ofInt? c.nonResident.quota),
      ("quota_balance", Json.ofInt? c.nonResident.balance),
      ("quota_awarded_in_this_draw", .int c.nonResident.drawAwarded),
      ("total_quota_awarded", .int c.nonResident.awarded)]),
    ("resident", .object [
      ("quota_awarded_in_this_draw", .int c.resident.drawAwarded),
      ("total_quota_awarded", .int c.resident.awarded)]),
    ("wp_res", .object [
      ("is_alloc_enabled", .bool c.reserved.enabled),
      ("cap_percent", Json.ofOption .float c.reserved.capPercent),
      ("total_quota", Json.ofInt? c.reserved.quota),
      ("quota_balance", Json.ofInt? c.reserved.balance)])]

end HuntCode
end HuntDraw
