import HuntDraw.Draw.Run
import HuntDraw.Log.Event

/-! What a draw reports while it runs: who and what entered it, and every round that was completed. -/

namespace HuntDraw.Draw

/-- The rounds up to the first one that fails. -/
def summaries (rules : List SortRule) (config : DrawConfig) (workers : Int) (eligible : List Applicant)
    (p : Progress) : List Nat → List RoundSummary
  | [] => []
  | k :: rest =>
    match round rules config workers eligible p k with
    | .error _ => []
    | .ok (q, s) => s :: summaries rules config workers eligible q rest

def RoundSummary.event (s : RoundSummary) : LogEvent :=
  ⟨.info, "draw_round_processed",
    [("choice_ordinal", .nat s.ordinal), ("buckets", .nat s.buckets), ("awarded", .nat s.awarded)]⟩

/-- Inputs that are refused before the draw leave no report. -/
def journal (codes : List HuntCode) (applicants : List Applicant) (sort : Option DrawSort)
    (config : Option DrawConfig) (workers : Int) : List LogEvent :=
  match settings sort config with
  | .error _ => []
  | .ok (rules, config) =>
    match enterCodes codes config with
    | .error _ => []
    | .ok entered =>
      let eligible := Entry.applicants applicants config
      ⟨.info, "draw_inputs_filtered",
        [("applicants", .nat applicants.length), ("eligible_applicants", .nat eligible.length),
         ("hunt_codes", .nat codes.length), ("drawable_hunt_codes", .nat entered.length)]⟩
      :: (summaries rules config workers eligible { codes := entered } ordinals).map RoundSummary.event

end HuntDraw.Draw
