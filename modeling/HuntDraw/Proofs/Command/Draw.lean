import HuntDraw.Command.Draw
import HuntDraw.Command.Session
import HuntDraw.Proofs.Data.Attempt
import HuntDraw.Proofs.Data.Fields
import HuntDraw.Proofs.Draw.Tables

/-! What the draw command leaves. Where its files can be read and its tables written, it ends early or writes three
tables, and which of these it does depends on the draw alone. -/

namespace HuntDraw

open Attempt

def Console.holding (c : Console) (files : Files) : Console := { c with place := { c.place with files } }

namespace Session

variable {α β : Type} {c c' : Console} {a : Session α} {f : α → Session β} {x : α} {e : Ending}

def runOn (c : Console) (s : Session α) : Except Ending α × Console := s.run.run c

theorem runOn_bind : runOn c (a >>= f) =
    match runOn c a with
    | (.ok x, c') => runOn c' (f x)
    | (.error e, c') => (.error e, c') := by
  change StateT.run (ExceptT.bindCont f (runOn c a).1) (runOn c a).2 = _
  rcases runOn c a with ⟨e | x, c'⟩ <;> rfl

theorem runOn_bind_ok (h : runOn c a = (.ok x, c')) : runOn c (a >>= f) = runOn c' (f x) := by
  rw [runOn_bind, h]

theorem runOn_bind_error (h : runOn c a = (.error e, c')) : runOn c (a >>= f) = (.error e, c') := by
  rw [runOn_bind, h]

theorem runOn_files : runOn c files = (.ok c.place.files, c) := rfl

theorem runOn_lift_ok {r : Except Failure α} (h : r = .ok x) : runOn c (lift r) = (.ok x, c) := by
  rw [h]
  rfl

theorem runOn_lift_error {r : Except Failure α} {f : Failure} (h : r = .error f) :
    runOn c (lift r) = (.error (.failed f), c) := by
  rw [h]
  rfl

theorem runOn_setFiles (files : Files) : runOn c (setFiles files) = (.ok (), c.holding files) := rfl

theorem runOn_say (s : String) : runOn c (say s) = (.ok (), { c with out := c.out ++ s ++ "\n" }) := rfl

/-- What is said in turn is told on the console, and the files stay as they are. -/
theorem runOn_forM_say (c : Console) (xs : List α) (line : α → String) :
    ∃ c', runOn c (xs.forM fun x => say (line x)) = (.ok (), c') ∧ c'.place = c.place := by
  induction xs generalizing c with
  | nil => exact ⟨c, rfl, rfl⟩
  | cons x xs ih =>
    obtain ⟨c', hrest, hplace⟩ := ih { c with out := c.out ++ line x ++ "\n" }
    exact ⟨c', (runOn_bind_ok (runOn_say _)).trans hrest, hplace⟩

end Session

namespace Files

variable {t : Files} {directory : List String} {name name' : String}

theorem joined_append (directory : List String) (name : String) :
    joined (directory ++ [name]) = startOf directory ++ name := by
  induction directory with
  | nil =>
    change "/".intercalate [name] = "" ++ name
    rw [String.intercalate_singleton, String.empty_append]
  | cons step directory ih =>
    rcases directory with _ | ⟨next, directory⟩
    · change "/".intercalate [step, name] = "/".intercalate [step] ++ "/" ++ name
      rw [String.intercalate_cons_cons, String.intercalate_singleton, String.intercalate_singleton]
    · have hjoined {rest : List String} (h : rest ≠ []) : joined (step :: rest) = step ++ "/" ++ joined rest :=
        String.intercalate_cons_of_ne_nil h
      change joined (step :: (next :: directory ++ [name])) = joined (step :: next :: directory) ++ "/" ++ name
      rw [hjoined (List.append_ne_nil_of_right_ne_nil _ (List.cons_ne_nil _ _)), hjoined (List.cons_ne_nil _ _), ih]
      change step ++ "/" ++ (joined (next :: directory) ++ "/" ++ name) = _
      simp only [String.append_assoc]

def entry (t : Files) (directory : List String) (name : String) : Option Content :=
  t.files.get? (joined (directory ++ [name]))

theorem entry_put_self (content : Content) :
    (t.put (directory ++ [name]) content).entry directory name = some content :=
  Fields.get?_put_self _ _

theorem entry_put (h : name ≠ name') (content : Content) :
    (t.put (directory ++ [name']) content).entry directory name = t.entry directory name := by
  refine Fields.get?_put_of_ne _ fun heq => h ?_
  rw [joined_append, joined_append] at heq
  exact (String.append_right_inj _).1 heq

/-- A file is no directory, and makes none of another name beside it. -/
theorem isDirectory_put (hname : '/' ∉ name.toList) (content : Content) :
    (t.put (directory ++ [name]) content).isDirectory (directory ++ [name']) =
      t.isDirectory (directory ++ [name']) := by
  have hunder : Text.startsWith (joined (directory ++ [name])) (joined (directory ++ [name']) ++ "/") = false := by
    rw [joined_append, joined_append, Text.startsWith, Bool.eq_false_iff, ne_eq, List.isPrefixOf_iff_prefix,
      String.toList_append, String.toList_append, String.toList_append, List.append_assoc, List.prefix_append_right_inj]
    intro hstarts
    exact hname (hstarts.subset (List.mem_append_right _ (by decide)))
  have hkeys : (t.files.put (joined (directory ++ [name])) content).keys.any
      (fun k => Text.startsWith k (joined (directory ++ [name']) ++ "/")) =
        t.files.keys.any fun k => Text.startsWith k (joined (directory ++ [name']) ++ "/") := by
    rw [Fields.keys_put]
    split
    · rfl
    · rw [List.any_append, List.any_cons, hunder, List.any_nil, Bool.or_false, Bool.or_false]
  rw [isDirectory, isDirectory, List.any_append, List.any_append]
  exact congrArg (fun found => _ || (found || _) || _) hkeys

end Files

namespace DrawOrder

open Session

variable {o : DrawOrder} {c c' : Console} {sort : DrawSort} {config : DrawConfig} {workers : Int}
  {codes applicants : Bytes} {t : Tables}

theorem runOn_writeTable {directory : List String} {name : String}
    (h : c.place.files.isDirectory (directory ++ [name]) = false) (table : String) :
    runOn c (writeTable directory name table) =
      (.ok (), c.holding (c.place.files.put (directory ++ [name]) (.ofText table))) := by
  have hwrite : c.place.files.write directory name (.ofText table) =
      .ok (c.place.files.put (directory ++ [name]) (.ofText table)) := by
    rw [Files.write, h]
    rfl
  rw [writeTable, runOn_bind_ok runOn_files, runOn_bind_ok (runOn_lift_ok (mapError_eq_ok.2 hwrite)), runOn_setFiles]

def tableNames : List String := ["applicant_results.csv", "hunt_code_results.csv", "draw_metrics.csv"]

def written (files : Files) (directory : List String) (t : Tables) : Files :=
  ((files.put (directory ++ ["applicant_results.csv"]) (.ofText t.applicants)).put
    (directory ++ ["hunt_code_results.csv"]) (.ofText t.codes)).put
      (directory ++ ["draw_metrics.csv"]) (.ofText t.metrics)

structure Ready (o : DrawOrder) (c : Console) (codes applicants : Bytes) : Prop where
  codes : c.place.files.read o.codes = .ok (.bytes codes)
  applicants : c.place.files.read o.applicants = .ok (.bytes applicants)
  output : ∃ made directory, c.place.files.makeDirectory o.output = .ok (made, directory) ∧
    ∀ name ∈ tableNames, made.isDirectory (directory ++ [name]) = false

def Leaves (o : DrawOrder) (sort : DrawSort) (config : DrawConfig) (workers : Int) (c : Console) (t : Tables) :
    Prop :=
  ∃ c' made directory, c.place.files.makeDirectory o.output = .ok (made, directory) ∧
    runOn c (o.carryOut sort config workers) = (.ok (), c') ∧
      c'.place.files.entry directory "applicant_results.csv" = some (.ofText t.applicants) ∧
        c'.place.files.entry directory "hunt_code_results.csv" = some (.ofText t.codes) ∧
          c'.place.files.entry directory "draw_metrics.csv" = some (.ofText t.metrics)

def Fails (o : DrawOrder) (sort : DrawSort) (config : DrawConfig) (workers : Int) (c : Console) : Prop :=
  ∃ e c', runOn c (o.carryOut sort config workers) = (.error e, c')

theorem runOn_publish {metrics : List (Metric × MetricValue)} {r : DrawResult} {output : PathName} {made : Files}
    {directory : List String} (hmetrics : r.metrics = .ok metrics)
    (hmade : c.place.files.makeDirectory output = .ok (made, directory))
    (hfree : ∀ name ∈ tableNames, made.isDirectory (directory ++ [name]) = false) :
    ∃ c', runOn c (publish output r) = (.ok (), c') ∧
      c'.place.files = written made directory (Draw.tablesOf r metrics) := by
  have happlicants := hfree "applicant_results.csv" (by decide)
  have hcodes := hfree "hunt_code_results.csv" (by decide)
  have hfigures := hfree "draw_metrics.csv" (by decide)
  rw [publish, runOn_bind_ok (runOn_lift_ok (mapError_eq_ok.2 hmetrics)), runOn_bind_ok runOn_files,
    runOn_bind_ok (runOn_lift_ok (mapError_eq_ok.2 hmade))]
  simp only
  rw [runOn_bind_ok (runOn_setFiles made), runOn_bind_ok (runOn_writeTable happlicants _),
    runOn_bind_ok (runOn_writeTable ((Files.isDirectory_put (by decide) _).trans hcodes) _),
    runOn_bind_ok (runOn_writeTable
      ((Files.isDirectory_put (by decide) _).trans ((Files.isDirectory_put (by decide) _).trans hfigures)) _),
    runOn_bind_ok (runOn_say _)]
  -- what is told at the end touches no file
  obtain ⟨c₁, hsaid, hplace⟩ := runOn_forM_say _ metrics fun m => s!"  {m.1.title}: {m.2.text}"
  rw [runOn_bind_ok hsaid]
  exact ⟨_, runOn_say _, congrArg Workplace.files hplace⟩

theorem entry_written (files : Files) (directory : List String) (t : Tables) :
    (written files directory t).entry directory "applicant_results.csv" = some (.ofText t.applicants) ∧
      (written files directory t).entry directory "hunt_code_results.csv" = some (.ofText t.codes) ∧
        (written files directory t).entry directory "draw_metrics.csv" = some (.ofText t.metrics) :=
  ⟨(Files.entry_put (by decide) _).trans ((Files.entry_put (by decide) _).trans (Files.entry_put_self _)),
    (Files.entry_put (by decide) _).trans (Files.entry_put_self _), Files.entry_put_self _⟩

theorem rows_eq_ok {files : Files} {path : PathName} {bs : Bytes} (h : files.read path = .ok (.bytes bs))
    {rows : List (Fields Json)} : DrawOrder.rows files path = .ok rows ↔
      ∃ read, (Content.bytes bs).fileRows = .ok read ∧ rows = read.map Csv.Row.fields := by
  simp only [DrawOrder.rows, bind_eq_ok, mapError_eq_ok, h, Except.ok.injEq, pure_eq_ok, exists_eq_left']
  exact exists_congr fun read => and_congr_right fun _ => eq_comm

variable (hready : o.Ready c codes applicants)

include hready

theorem result_eq_ok {r : DrawResult} : o.result c.place.files sort config workers = .ok r ↔
    ∃ codeRows applicantRows cs as, (Content.bytes codes).fileRows = .ok codeRows ∧
      (Content.bytes applicants).fileRows = .ok applicantRows ∧
      Document.readHuntCodes (codeRows.map Csv.Row.fields) = .ok cs ∧
      Document.readApplicants (applicantRows.map Csv.Row.fields) = .ok as ∧
      Draw.run cs as (some sort) (some config) 1 = .ok r := by
  simp only [result, bind_eq_ok, mapError_eq_ok, rows_eq_ok hready.codes, rows_eq_ok hready.applicants,
    Draw.run_workers _ _ _ _ workers 1]
  constructor
  · rintro ⟨_, ⟨codeRows, hcodeRows, rfl⟩, cs, hcs, _, ⟨applicantRows, happlicantRows, rfl⟩, as, has, hr⟩
    exact ⟨codeRows, applicantRows, cs, as, hcodeRows, happlicantRows, hcs, has, hr⟩
  · rintro ⟨codeRows, applicantRows, cs, as, hcodeRows, happlicantRows, hcs, has, hr⟩
    exact ⟨_, ⟨codeRows, hcodeRows, rfl⟩, cs, hcs, _, ⟨applicantRows, happlicantRows, rfl⟩, as, has, hr⟩

omit hready in
theorem runOn_carryOut_ok {r : DrawResult} (h : o.result c.place.files sort config workers = .ok r) :
    runOn c (o.carryOut sort config workers) = runOn c (publish o.output r) := by
  rw [carryOut, runOn_bind_ok runOn_files, h]

theorem leaves_of_makes {codeRows applicantRows : List Csv.Row}
    (hcodeRows : (Content.bytes codes).fileRows = .ok codeRows)
    (happlicantRows : (Content.bytes applicants).fileRows = .ok applicantRows)
    (h : Draw.Makes codeRows applicantRows sort config t) : o.Leaves sort config workers c t := by
  obtain ⟨cs, as, r, metrics, hcs, has, hr, hmetrics, rfl⟩ := h
  obtain ⟨made, directory, hmade, hfree⟩ := hready.output
  obtain ⟨c', hrun, hfiles⟩ := runOn_publish hmetrics hmade hfree
  refine ⟨c', made, directory, hmade, ?_, hfiles ▸ entry_written made directory _⟩
  rw [runOn_carryOut_ok ((result_eq_ok hready).2
    ⟨codeRows, applicantRows, cs, as, hcodeRows, happlicantRows, hcs, has, hr⟩), hrun]

/-- A draw by the command that does not end early has made tables from the rows of its files. -/
theorem makes_of_ok (h : runOn c (o.carryOut sort config workers) = (.ok (), c')) :
    ∃ codeRows applicantRows t, (Content.bytes codes).fileRows = .ok codeRows ∧
      (Content.bytes applicants).fileRows = .ok applicantRows ∧ Draw.Makes codeRows applicantRows sort config t := by
  cases hresult : o.result c.place.files sort config workers with
  | error f =>
    rw [carryOut, runOn_bind_ok runOn_files, hresult] at h
    simp only at h
    split_ifs at h
    · exact nomatch (Prod.mk.inj h).1
    · exact nomatch (Prod.mk.inj h).1
  | ok r =>
    rw [runOn_carryOut_ok hresult] at h
    obtain ⟨codeRows, applicantRows, cs, as, hcodeRows, happlicantRows, hcs, has, hr⟩ := (result_eq_ok hready).1 hresult
    cases hmetrics : r.metrics with
    | error f =>
      rw [publish, runOn_bind_error (runOn_lift_error (f := .draw f) (by rw [hmetrics]; rfl))] at h
      exact nomatch (Prod.mk.inj h).1
    | ok metrics =>
      exact ⟨codeRows, applicantRows, _, hcodeRows, happlicantRows, cs, as, r, metrics, hcs, has, hr, hmetrics, rfl⟩

end DrawOrder
end HuntDraw
