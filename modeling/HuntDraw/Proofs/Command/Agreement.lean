import HuntDraw.Proofs.Command.Draw
import HuntDraw.Proofs.Node.Draw
import HuntDraw.Proofs.Text.Stream

/-! The draw command and the draw node. They read the same tables in different ways and agree on everything that both
can read; only of a byte order mark that is cut short the command makes an empty table, and the node nothing. -/

namespace HuntDraw

open HuntDraw.Action Session Text

variable {bs : Bytes} {rows : List Csv.Row}

theorem Content.fileRows_of_readRows (h : Csv.readRows bs = .ok rows) : (Content.bytes bs).fileRows = .ok rows := by
  obtain ⟨cs, hcs, rfl⟩ := Attempt.map_eq_ok.1 h
  exact Attempt.map_eq_ok.2 ⟨cs, decodeMarkedFile_eq_ok hcs, rfl⟩

theorem Content.readRows_of_fileRows (hmark : ¬IsCutMark bs) (h : (Content.bytes bs).fileRows = .ok rows) :
    Csv.readRows bs = .ok rows := by
  obtain ⟨cs, hcs, rfl⟩ := Attempt.map_eq_ok.1 h
  have hsame := decodeMarkedFile_toOption hmark
  rw [hcs] at hsame
  cases hdocument : decodeDocument bs with
  | error f =>
    rw [hdocument] at hsame
    cases hsame
  | ok cs' =>
    rw [hdocument] at hsame
    obtain rfl := Option.some.inj hsame
    exact Attempt.map_eq_ok.2 ⟨cs, hdocument, rfl⟩

theorem not_isCutMark_of_readRows (h : Csv.readRows bs = .ok rows) : ¬IsCutMark bs := by
  intro hmark
  obtain ⟨cs, hcs, -⟩ := Attempt.map_eq_ok.1 h
  exact nomatch hcs.symm.trans (decodeMarkedFile_cut hmark).2

namespace DrawOrder

variable {T : Type} {o : DrawOrder} {c : Console} {p : Payload} {w : World T} {sort : DrawSort} {config : DrawConfig}
  {codes applicants : Bytes}

/-- A draw by the command and one by the node both fail, or both leave the same tables. -/
def AgreesWith (o : DrawOrder) (c : Console) (m : Int) (p : Payload) (w : World T) (n : Int) (bound : Fields Json)
    (sort : DrawSort) (config : DrawConfig) : Prop :=
  (∃ t, o.Leaves sort config m c t ∧ DrawNode.Leaves n bound p w t) ∨
    o.Fails sort config m c ∧ DrawNode.Fails n bound p w

section
variable (hcommand : o.Ready c codes applicants) (hnode : DrawNode.Ready p w sort config codes applicants)

include hcommand hnode

theorem fails_of_fails {m : Int} (h : o.Fails sort config m c) (n : Int) (bound : Fields Json) :
    DrawNode.Fails n bound p w := by
  rcases hrun : runIn w (DrawNode.run n bound p) with ⟨f | data, w'⟩
  · exact ⟨f, w', hrun⟩
  obtain ⟨codeRows, applicantRows, t, hcodes, happlicants, hmakes⟩ := DrawNode.makes_of_ok hnode hrun
  obtain ⟨c', -, -, -, hok, -⟩ : o.Leaves sort config m c t := leaves_of_makes hcommand
    (Content.fileRows_of_readRows hcodes) (Content.fileRows_of_readRows happlicants) hmakes
  obtain ⟨e, c'', herror⟩ := h
  exact nomatch (Prod.mk.inj (hok.symm.trans herror)).1

/-- The command and the node agree, whatever the numbers of workers, unless the command makes tables of a byte order
mark that is cut short. -/
theorem agreesWith_iff (m n : Int) (bound : Fields Json) : o.AgreesWith c m p w n bound sort config ↔
    o.Fails sort config m c ∨ ¬IsCutMark codes ∧ ¬IsCutMark applicants := by
  constructor
  · rintro (⟨t, -, _, _, _, w', hrun, -⟩ | ⟨hfails, -⟩)
    · obtain ⟨_, _, _, hcodes, happlicants, -⟩ := DrawNode.makes_of_ok hnode hrun
      exact .inr ⟨not_isCutMark_of_readRows hcodes, not_isCutMark_of_readRows happlicants⟩
    · exact .inl hfails
  · intro h
    rcases hrun : runOn c (o.carryOut sort config m) with ⟨e | ⟨⟩, c'⟩
    · exact .inr ⟨⟨e, c', hrun⟩, fails_of_fails hcommand hnode ⟨e, c', hrun⟩ n bound⟩
    · have hmarks : ¬IsCutMark codes ∧ ¬IsCutMark applicants := h.resolve_left fun ⟨e, c'', herror⟩ =>
        nomatch (Prod.mk.inj (hrun.symm.trans herror)).1
      obtain ⟨codeRows, applicantRows, t, hcodes, happlicants, hmakes⟩ := makes_of_ok hcommand hrun
      exact .inl ⟨t, leaves_of_makes hcommand hcodes happlicants hmakes,
        DrawNode.leaves_of_makes hnode (Content.readRows_of_fileRows hmarks.1 hcodes)
          (Content.readRows_of_fileRows hmarks.2 happlicants) hmakes n bound⟩

end

def twoFiles : DrawOrder where
  codes := ⟨"", ["codes.csv"]⟩
  applicants := ⟨"", ["applicants.csv"]⟩
  sort := ⟨"", ["sort.json"]⟩
  config := ⟨"", ["config.json"]⟩
  output := ⟨"", ["draw-results"]⟩

def twoFilesConsole (codes applicants : Bytes) : Console where
  place := { files := { files := [("codes.csv", .bytes codes), ("applicants.csv", .bytes applicants)] } }

def byNumber : DrawSort := ⟨"sort", "By number", [⟨.number, .ascending⟩]⟩

def byNumberConfig : DrawConfig := { id := "config", name := "Draw", sortId := some byNumber.id }

def twoBlobs (codes applicants : Bytes) : World Binary64 where
  store := { sorts := [byNumber], configs := [("draw", byNumberConfig)] }
  blobs := ⟨"drawflow", .memory, [("codes.csv", ⟨.bytes codes, "text/csv"⟩),
    ("applicants.csv", ⟨.bytes applicants, "text/csv"⟩)]⟩
  clock := ⟨.zero false, []⟩

def twoBlobsPayload : Payload where
  organization := "org"
  job := "job"
  node := "draw"
  overrides := [("draw", [⟨"blob://drawflow/codes.csv", ⟨.csv, .draw, DocumentType.huntCodes.text⟩⟩,
    ⟨"blob://drawflow/applicants.csv", ⟨.csv, .draw, DocumentType.applicants.text⟩⟩])]

theorem twoFiles_ready (codes applicants : Bytes) :
    twoFiles.Ready (twoFilesConsole codes applicants) codes applicants := by
  let files := (twoFilesConsole codes applicants).place.files
  have hfile : files.isFile ["draw-results"] = false := rfl
  have hdirectory : files.isDirectory ["draw-results"] = false := by
    change (false || ["codes.csv", "applicants.csv"].any (fun k => Text.startsWith k "draw-results/") ||
      [].contains "draw-results") = false
    decide
  have hmade : files.makeDirectory twoFiles.output =
      .ok ({ files with made := ["draw-results"] }, ["draw-results"]) := by
    simp only [Files.makeDirectory, Files.makeDirectory.go, twoFiles, List.nil_append, hfile, hdirectory]
    rfl
  have hfree : ∀ name ∈ tableNames, (false || ["codes.csv", "applicants.csv", "draw-results"].any
      (fun k => Text.startsWith k (Files.joined ["draw-results", name] ++ "/")) ||
        ["draw-results"].contains (Files.joined ["draw-results", name])) = false := by decide
  exact ⟨rfl, rfl, _, _, hmade, hfree⟩

theorem twoBlobs_ready (codes applicants : Bytes) :
    DrawNode.Ready twoBlobsPayload (twoBlobs codes applicants) byNumber byNumberConfig codes applicants where
  named := ⟨by decide, by decide, by decide⟩
  sortNamed := by decide
  sorted := rfl
  store := rfl
  memory := rfl
  codes := ⟨_, rfl, rfl⟩
  applicants := ⟨_, rfl, rfl⟩

def oneCode : Bytes := utf8 "hunt_code,is_valid,in_the_draw,total_quota\nHC1,Y,Y,1\n"

def twoApplicants : Bytes :=
  utf8 "application_number,age,residency,point_balance,choice1\n1,40,RESIDENT,4,HC1\n2,41,NON_RESIDENT,5,HC1\n"

/-- One of two applicants is drawn. Without a byte order mark the command and the node leave the same tables. -/
theorem agreesWith_iff_unmarked : ∃ t,
    twoFiles.Leaves byNumber byNumberConfig 1 (twoFilesConsole oneCode twoApplicants) t ∧
      DrawNode.Leaves 4 [] twoBlobsPayload (twoBlobs oneCode twoApplicants) t := by
  have hmarks : ¬IsCutMark oneCode ∧ ¬IsCutMark twoApplicants := by decide +kernel
  have hok : (runOn (twoFilesConsole oneCode twoApplicants) (twoFiles.carryOut byNumber byNumberConfig 1)).1.isOk := by
    decide +kernel
  rcases (agreesWith_iff (twoFiles_ready _ _) (twoBlobs_ready _ _) 1 4 []).2 (.inr hmarks) with h | ⟨⟨e, c, h⟩, -⟩
  · exact h
  · rw [h] at hok
    exact nomatch hok

/-- A file that holds nothing but a cut byte order mark is drawn from by the command and refused by the node. -/
theorem not_agreesWith : ¬∀ (o : DrawOrder) (c : Console) (p : Payload) (w : World Binary64) (sort : DrawSort)
    (config : DrawConfig) (codes applicants : Bytes) (m n : Int) (bound : Fields Json), o.Ready c codes applicants →
    DrawNode.Ready p w sort config codes applicants → o.AgreesWith c m p w n bound sort config := by
  intro h
  have hrun : Draw.run [] [] (some byNumber) (some byNumberConfig) 1 = .ok ⟨[], [], []⟩ :=
    Draw.run_eq_ok.2 ⟨rfl, [], { codes := [] }, [], [], rfl, rfl, rfl, rfl, by simp [Draw.merge]⟩
  obtain ⟨c, -, -, -, hok, -⟩ : twoFiles.Leaves byNumber byNumberConfig 1 (twoFilesConsole [0xEF] []) _ :=
    leaves_of_makes (twoFiles_ready [0xEF] []) rfl rfl ⟨[], [], _, _, rfl, rfl, hrun, rfl, rfl⟩
  have hnode := twoBlobs_ready [0xEF] []
  rcases h _ _ _ _ _ _ _ _ 1 1 [] (twoFiles_ready [0xEF] []) hnode with
    ⟨t, -, _, _, _, w', hstored, -⟩ | ⟨⟨e, c', herror⟩, -⟩
  · obtain ⟨_, _, _, hread, -⟩ := DrawNode.makes_of_ok hnode hstored
    exact not_isCutMark_of_readRows hread (.inl rfl)
  · cases (Prod.mk.inj (hok.symm.trans herror)).1

end DrawOrder
end HuntDraw
