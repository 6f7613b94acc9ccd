import HuntDraw.Data.RunSort
import HuntDraw.Draw.Collation

/-! Ranking applicants by the rules of a draw sort: later rules break the ties of earlier ones, and
applicants that no rule tells apart keep their order. -/

namespace HuntDraw

/-- What a rule looks at in an applicant. -/
inductive FieldValue where
  | whole (i : Int)
  | number (x : Binary64)
  | text (s : String)
  deriving DecidableEq

namespace FieldValue

def isText : FieldValue → Bool
  | .text _ => true
  | _ => false

def asText : FieldValue → String
  | .whole i => toString i
  | .number x => x.text
  | .text s => s

/-- Numbers that are not ordered count as equal. -/
def orderNumbers : FieldValue → FieldValue → Ordering
  | .whole i, .whole j => compare i j
  | .number x, .number y => (x.order? y).getD .eq
  | _, _ => .eq

end FieldValue

def Applicant.value (a : Applicant) : SortField → FieldValue
  | .number => .whole a.number
  | .age => .whole a.age
  | .residency => .text a.residency.text
  | .points => .number a.points

def Direction.apply : Direction → Ordering → Ordering
  | .ascending, o => o
  | .descending, o => o.swap

namespace SortRule

/-- Texts compare by collation, digit-aware when descending; whether the field holds text is seen
from the sample. -/
def compare (r : SortRule) (sample a b : Applicant) : Except DrawFault Ordering :=
  if (sample.value r.field).isText then do
    let numeric := r.direction = .descending
    let ka ← CollationKey.ofText (a.value r.field).asText numeric
    let kb ← CollationKey.ofText (b.value r.field).asText numeric
    return r.direction.apply (ka.order kb)
  else .ok (r.direction.apply ((a.value r.field).orderNumbers (b.value r.field)))

end SortRule

namespace Ranking

/-- The first rule that tells two applicants apart decides. -/
def compare (rules : List SortRule) (sample a b : Applicant) : Except DrawFault Ordering :=
  match rules with
  | [] => .ok .eq
  | r :: rest => do
    match ← r.compare sample a b with
    | .eq => compare rest sample a b
    | o => return o

def less (rules : List SortRule) (sample a b : Applicant) : Except DrawFault Bool :=
  (· == .lt) <$> compare rules sample a b

/-- The applicants in the order of the rules, the first of them being the sample. -/
def sort (rules : List SortRule) (applicants : List Applicant) : Except DrawFault (List Applicant) :=
  match applicants with
  | [] => .ok []
  | a :: rest => RunSort.sort (less rules a) (a :: rest)

/-- Rules can rank applicants when there are some and no field is sorted twice. -/
def validate (rules : List SortRule) : Except DrawFault Unit :=
  if rules.isEmpty then .error .noRules
  else if (rules.map SortRule.field).Nodup then .ok ()
  else .error (.repeatedField (rules.map SortRule.field))

end Ranking
end HuntDraw
