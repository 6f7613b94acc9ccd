/-! Stable sorting by a comparison that may fail: the initial run of the list is kept, or turned
round when it strictly descends, and each further element is placed after the last one that is not
greater, found by halving. -/

namespace HuntDraw.RunSort

variable {ε α : Type}

/-- Places `x` in `xs`, which is sorted, after everything it is not less than. -/
def place (lt : α → α → Except ε Bool) (x : α) (xs : List α) : Except ε (List α) :=
  match h : xs with
  | [] => .ok [x]
  | y :: ys => do
    let mid := xs.length / 2
    have : mid < xs.length := by simp only [mid, h, List.length_cons]; omega
    if ← lt x xs[mid] then
      return (← place lt x (xs.take mid)) ++ xs.drop mid
    else
      return xs.take (mid + 1) ++ (← place lt x (xs.drop (mid + 1)))
  termination_by xs.length
  decreasing_by
    all_goals simp_all only [List.length_take, List.length_drop, List.length_cons, mid]
    all_goals omega

/-- The longest beginning in which each element compares with the one before it as `falling` says,
and the rest. -/
def takeRun (lt : α → α → Except ε Bool) (falling : Bool) (last : α) :
    List α → Except ε (List α × List α)
  | [] => .ok ([], [])
  | x :: rest => do
    if (← lt x last) == falling then
      let (run, rest) ← takeRun lt falling x rest
      return (x :: run, rest)
    else return ([], x :: rest)

/-- The first run in ascending order, and what follows it. -/
def firstRun (lt : α → α → Except ε Bool) (a b : α) (rest : List α) : Except ε (List α × List α) := do
  let falling ← lt b a
  let (run, rest) ← takeRun lt falling b rest
  return (if falling then (a :: b :: run).reverse else a :: b :: run, rest)

def sort (lt : α → α → Except ε Bool) : List α → Except ε (List α)
  | a :: b :: rest => do
    let (run, rest) ← firstRun lt a b rest
    rest.foldlM (fun acc x => place lt x acc) run
  | short => .ok short

end HuntDraw.RunSort
