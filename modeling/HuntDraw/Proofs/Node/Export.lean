import HuntDraw.Node.Export
import HuntDraw.Proofs.Node.Draw
import HuntDraw.Proofs.Text.Digit

/-! What the export node leaves. Where it finds everything that was made so far, it stores one archive, in which every
input stands once, in order and under a name of its own. Where something is missing it leaves nothing. -/

namespace HuntDraw

open HuntDraw.Action Attempt

namespace Text

theorem lowerRuns_valid : lowerRuns.all fun r => decide (0 < r.first + r.offset) &&
    (decide (r.last + r.offset < 0xD800) ||
      decide (0xDFFF < r.first + r.offset) && decide (r.last + r.offset < 0x110000)) := by
  decide +kernel

theorem lowerExpansions_valid : lowerExpansions.all fun e => e.2.all fun n => decide (0 < n ∧ n < 0xD800) := by
  decide +kernel

theorem toLower_ne_null : ∀ n < 128, n ≠ 0 → (Char.ofNat n).toLower ≠ '\x00' := by
  decide +kernel

theorem ofNat_ne_null {n : Nat} (hpos : 0 < n) (hvalid : n.isValidChar) : Char.ofNat n ≠ '\x00' := by
  intro h
  have hn := toNat_ofNat hvalid
  rw [h] at hn
  exact absurd hn.symm (Nat.ne_of_gt hpos)

variable {c : Char} {cs : List Char}

theorem lowerChar_ne_null (hc : c ≠ '\x00') : ∀ d ∈ lowerChar c, d ≠ '\x00' := by
  rw [lowerChar]
  split_ifs with hascii
  · have hn : c.toNat ≠ 0 := fun h => hc (by rw [← Char.ofNat_toNat c, h])
    have hlower := toLower_ne_null c.toNat hascii hn
    rw [Char.ofNat_toNat] at hlower
    exact List.forall_mem_singleton.2 hlower
  · rw [mapCase]
    cases hrun : lowerRuns.find? (·.holds c.toNat) with
    | some r =>
      have hholds := List.find?_some hrun
      simp only [CaseRun.holds, Bool.and_eq_true, decide_eq_true_eq] at hholds
      have hvalid := List.all_eq_true.1 lowerRuns_valid r (List.mem_of_find?_eq_some hrun)
      simp only [Bool.and_eq_true, Bool.or_eq_true, decide_eq_true_eq] at hvalid
      refine List.forall_mem_singleton.2 (ofNat_ne_null (by omega) ?_)
      rcases hvalid.2 with hlow | hhigh
      · exact .inl (by omega)
      · exact .inr (by omega)
    | none =>
      cases hexpansion : lowerExpansions.find? (·.1 = c.toNat) with
      | some e =>
        have hvalid := List.all_eq_true.1 lowerExpansions_valid e (List.mem_of_find?_eq_some hexpansion)
        simp only [List.all_eq_true, decide_eq_true_eq] at hvalid
        exact List.forall_mem_map.2 fun n hn => ofNat_ne_null (hvalid n hn).1 (.inl (hvalid n hn).2)
      | none => exact List.forall_mem_singleton.2 hc

theorem null_notMem_lowerAfter (before : List Char) (h : '\x00' ∉ cs) : '\x00' ∉ lowerAfter before cs := by
  induction cs generalizing before with
  | nil => exact List.not_mem_nil
  | cons c cs ih =>
    rw [List.mem_cons, not_or] at h
    rw [lowerAfter, List.mem_append, not_or]
    refine ⟨fun hnull => ?_, ih _ h.2⟩
    split_ifs at hnull
    · exact absurd hnull (by decide)
    · exact absurd hnull (by decide)
    · exact lowerChar_ne_null (Ne.symm h.1) _ hnull rfl

theorem null_notMem_lower {s : String} (h : '\x00' ∉ s.toList) : '\x00' ∉ (lower s).toList := by
  rw [lower, String.toList_ofList]
  exact null_notMem_lowerAfter [] h

end Text

namespace NodeData

variable {d e : NodeData} {m n : Nat}

theorem memberName_toList (d : NodeData) (n : Nat) : (d.memberName n).toList =
    ((Text.lower d.mime.domain.text).toList ++ '_' :: (Text.lower d.mime.model).toList) ++
      '_' :: (Nat.toDigits 10 n ++ d.mime.type.ending.toList) := by
  have hdigits : (toString (n : Int)).toList = Nat.toDigits 10 n := Nat.toList_repr
  change ((Text.lower d.mime.domain.text ++ "_" ++ Text.lower d.mime.model ++ "_" ++ toString (n : Int)) ++
    d.mime.type.ending).toList = _
  simp only [String.toList_append, List.append_assoc, hdigits]
  rfl

/-- The place in the archive is told by the name: it stands behind the last underscore, and no ending goes on with a
digit. -/
theorem memberName_place (h : d.memberName m = e.memberName n) : m = n := by
  have hending : ∀ t : MimeType, '_' ∉ t.ending.toList ∧ t.ending.toList.takeWhile Numeral.isAsciiDigit = [] := by
    intro t
    cases t <;> decide
  have hbehind : ∀ (n : Nat) (t : MimeType), '_' ∉ Nat.toDigits 10 n ++ t.ending.toList := by
    intro n t hmem
    rcases List.mem_append.1 hmem with hdigit | hmem
    · exact absurd (Numeral.digits_toDigits n _ hdigit) (by decide)
    · exact (hending t).1 hmem
  have htake : ∀ (n : Nat) (t : MimeType),
      (Nat.toDigits 10 n ++ t.ending.toList).takeWhile Numeral.isAsciiDigit = Nat.toDigits 10 n := by
    intro n t
    rw [List.takeWhile_append_of_pos (Numeral.digits_toDigits n), (hending t).2, List.append_nil]
  have hlists := congrArg String.toList h
  rw [memberName_toList, memberName_toList] at hlists
  have hplaces := congrArg (List.takeWhile Numeral.isAsciiDigit) (eq_behind_last (hbehind _ _) (hbehind _ _) hlists)
  rw [htake, htake] at hplaces
  rw [← Numeral.digitsValue_toDigits m, hplaces, Numeral.digitsValue_toDigits]

theorem null_notMem_memberName (h : '\x00' ∉ d.mime.model.toList) (n : Nat) : '\x00' ∉ (d.memberName n).toList := by
  have hdomain : '\x00' ∉ d.mime.domain.text.toList := by
    cases d.mime.domain
    decide
  have hdigits : '\x00' ∉ Nat.toDigits 10 n := fun hmem => absurd (Numeral.digits_toDigits n _ hmem) (by decide)
  have hending : '\x00' ∉ d.mime.type.ending.toList := by cases d.mime.type <;> decide
  rw [memberName_toList]
  simp [Text.null_notMem_lower hdomain, Text.null_notMem_lower h, hdigits, hending]

end NodeData

namespace ExportNode

variable {T : Type} {p : Payload} {w : World T}

def title (d : NodeData) (place : Nat) : String :=
  String.ofList ((d.memberName place).toList.takeWhile (· ≠ '\x00'))

theorem title_eq {d : NodeData} (h : '\x00' ∉ d.mime.model.toList) (n : Nat) : title d n = d.memberName n := by
  have hwhole : (d.memberName n).toList.takeWhile (· ≠ '\x00') = (d.memberName n).toList := by
    refine List.takeWhile_eq_self_iff.2 fun c hc => ?_
    have hne : c ≠ '\x00' := fun heq => NodeData.null_notMem_memberName h n (heq ▸ hc)
    simpa using hne
  rw [title, hwhole, String.ofList_toList]

theorem nodup_titles {xs : List NodeData} (h : ∀ d ∈ xs, '\x00' ∉ d.mime.model.toList) :
    (xs.zipIdx.map fun x => title x.1 x.2).Nodup := by
  have hplaces : (xs.zipIdx.map Prod.snd).Nodup := by
    rw [List.zipIdx_map_snd]
    exact List.nodup_range'
  refine List.pairwise_map.2 ((List.pairwise_map.1 hplaces).imp_of_mem fun {x y} hx hy hne heq => hne ?_)
  rw [title_eq (h x.1 (List.fst_mem_of_mem_zipIdx hx)), title_eq (h y.1 (List.fst_mem_of_mem_zipIdx hy))] at heq
  exact NodeData.memberName_place heq

def memberOf (s : BlobStore) (d : NodeData × Nat) : Except BlobFault (String × Content) :=
  (fun content => (title d.1 d.2, content)) <$> s.fetch d.1.uri

theorem runIn_member (d : NodeData × Nat) :
    runIn w (member d.1 d.2) = ((memberOf w.blobs d).mapError .blob, w) := by
  rw [member, runIn_bind, runIn_look, memberOf]
  cases hkey : w.blobs.keyOf d.1.uri with
  | error f =>
    have hfetch : w.blobs.fetch d.1.uri = .error f := by rw [BlobStore.fetch, hkey]; rfl
    rw [hfetch]
    rfl
  | ok key =>
    have hfetch : w.blobs.fetch d.1.uri = w.blobs.read key := by rw [BlobStore.fetch, hkey]; rfl
    rw [hfetch]
    change runIn w (look (fun b => b.read key) >>= fun content => pure (title d.1 d.2, content)) = _
    rw [runIn_bind, runIn_look]
    cases w.blobs.read key <;> rfl

/-- Where every input has its blob, the members are the inputs in their order. -/
theorem members_of_ok {xs : List NodeData} {s : BlobStore} {members : List (String × Content)}
    (h : xs.zipIdx.mapM (memberOf s) = .ok members) :
    List.Forall₂ (fun d m => s.HasAt d.uri m.2) xs members ∧
      members.map Prod.fst = xs.zipIdx.map fun x => title x.1 x.2 := by
  have hinputs : xs.zipIdx.map Prod.fst = xs := List.zipIdx_map_fst 0 xs
  constructor
  · rw [← hinputs, List.forall₂_map_left_iff]
    refine (mapM_eq_ok.1 h).imp fun x m hm => ?_
    obtain ⟨content, hfetch, rfl⟩ := map_eq_ok.1 hm
    exact BlobStore.fetch_eq_ok.1 hfetch
  · refine mapM_map_eq h fun x _ m hm => ?_
    obtain ⟨content, -, rfl⟩ := map_eq_ok.1 hm
    rfl

def archive (p : Payload) (members : List (String × Content)) : Draft where
  organization := p.organization
  name := s!"{p.job}_{p.node}_draw_results"
  filename := s!"{p.job}_{p.node}_draw_results" ++ ".zip"
  mime := .zip
  type := .export
  content := .archive members

theorem isKey_archive (h : DrawNode.IsNamed p) (members : List (String × Content)) (w : World T) :
    Blob.isKey ((archive p members).nextKey w).toList := by
  have hname : (archive p members).filename = p.job ++ "_" ++ p.node ++ "_" ++ "draw_results.zip" := by
    change p.job ++ "_" ++ p.node ++ "_draw_results" ++ ".zip" = _
    simp only [← String.toList_inj, String.toList_append, List.append_assoc]
    rfl
  rw [Draft.nextKey, hname]
  exact DrawNode.isKey_named h (by decide) (by decide) _

variable {bound : Fields Json}

theorem run_of_nil (h : p.collected = []) :
    runIn w (run bound p) = (.ok [], w.logged [⟨.info, "export_skipped_no_inputs", bound⟩]) := by
  rw [run, h]
  rfl

/-- The inputs are the addresses among the results of the nodes, in their order, and behind them those among the data
that is supplied to the node. -/
theorem collected_eq (p : Payload) : p.collected =
    (p.results.flatMap (·.2) ++ (p.overrides.get? p.node).getD []).filter fun d => "blob://".toList <+: d.uri.toList := by
  refine List.filter_congr fun d _ => ?_
  rw [Bool.eq_iff_iff, decide_eq_true_eq, Blob.isAddress, Text.startsWith, List.isPrefixOf_iff_prefix]
  rfl

theorem run_eq (h : p.collected ≠ []) : (run bound p : Action T (List NodeData)) = do
    let members ← p.collected.zipIdx.mapM fun x => member x.1 x.2
    let record ← (archive p members).store
    Action.log .info "export_archive_written"
      (bound ++ [("files", .nat p.collected.length), ("document_id", .text record.id)])
    return [← record.asData .zip] := by
  have hsources : p.collected.isEmpty = false := by simpa using h
  rw [run]
  simp only [hsources, Bool.false_eq_true, if_false]
  rfl

theorem runIn_members : runIn w (p.collected.zipIdx.mapM fun x => member x.1 x.2) =
    ((p.collected.zipIdx.mapM (memberOf w.blobs)).mapError .blob, w) :=
  runIn_mapM runIn_member _

theorem run_of_error {f : BlobFault} (h : p.collected.zipIdx.mapM (memberOf w.blobs) = .error f) :
    runIn w (run bound p) = (.error (.blob f), w) := by
  have hne : p.collected ≠ [] := fun hnil => nomatch (hnil ▸ h : Except.ok [] = Except.error f)
  rw [run_eq hne]
  refine runIn_bind_error ?_
  rw [runIn_members, h]
  rfl

theorem run_of_ok {members : List (String × Content)} (hnamed : DrawNode.IsNamed p)
    (hmemory : w.blobs.keeping = .memory) (hunused : ∀ r ∈ w.store.documents, r.id ≠ idText (w.ids + 1))
    (hne : p.collected ≠ []) (h : p.collected.zipIdx.mapM (memberOf w.blobs) = .ok members) :
    runIn w (run bound p) =
      (.ok [⟨Blob.address w.blobs.bucket ((archive p members).nextKey w), ⟨.zip, .draw, DocumentType.export.text⟩⟩],
        (w.keeping (archive p members)).logged [⟨.info, "export_archive_written",
          bound ++ [("files", .nat p.collected.length), ("document_id", .text (idText (w.ids + 1)))]⟩]) := by
  have hmembers : runIn w (p.collected.zipIdx.mapM fun x => member x.1 x.2) = (.ok members, w) := by
    rw [runIn_members, h]
    rfl
  have hkey := isKey_archive hnamed members w
  rw [run_eq hne, runIn_bind_ok hmembers, runIn_bind_ok (Draft.runIn_store_of_unused hmemory hunused hkey),
    runIn_bind_ok (runIn_log _ _ _), runIn_bind_ok (Draft.runIn_asData hkey .zip)]
  rfl

theorem exists_members {sources : List NodeData} (h : ∀ d ∈ sources, ∃ content, w.blobs.HasAt d.uri content) :
    ∃ members, sources.zipIdx.mapM (memberOf w.blobs) = .ok members := by
  refine mapM_total fun x hx => ?_
  obtain ⟨content, hcontent⟩ := h x.1 (List.fst_mem_of_mem_zipIdx hx)
  exact ⟨_, map_eq_ok.2 ⟨content, BlobStore.fetch_eq_ok.2 hcontent, rfl⟩⟩

theorem exists_fault {sources : List NodeData} (h : ∃ d ∈ sources, ∀ content, ¬w.blobs.HasAt d.uri content) :
    ∃ f, sources.zipIdx.mapM (memberOf w.blobs) = .error f := by
  obtain ⟨d, hd, hmissing⟩ := h
  cases hmembers : sources.zipIdx.mapM (memberOf w.blobs) with
  | error f => exact ⟨f, rfl⟩
  | ok members =>
    -- all of them would have to be there
    rw [← List.zipIdx_map_fst 0 sources] at hd
    obtain ⟨x, hx, rfl⟩ := List.mem_map.1 hd
    obtain ⟨m, -, hm⟩ := (mapM_mem hmembers).2 x hx
    obtain ⟨content, hfetch, -⟩ := map_eq_ok.1 hm
    exact absurd (BlobStore.fetch_eq_ok.1 hfetch) (hmissing content)

/-- Where nothing is to be exported nothing is, where an input is missing nothing is written, and otherwise one archive
holds every input once, in order, under names that are told apart whatever the models are called. -/
theorem run_archives {sources : List NodeData} (hnamed : DrawNode.IsNamed p) (hmemory : w.blobs.keeping = .memory)
    (hunused : ∀ r ∈ w.store.documents, r.id ≠ idText (w.ids + 1))
    (hsources : sources = (p.results.flatMap (·.2) ++ (p.overrides.get? p.node).getD []).filter
      fun d => "blob://".toList <+: d.uri.toList) (bound : Fields Json) :
    (sources = [] → ∃ w', runIn w (run bound p) = (.ok [], w') ∧ w'.store = w.store ∧ w'.blobs = w.blobs) ∧
    ((∃ d ∈ sources, ∀ content, ¬w.blobs.HasAt d.uri content) →
      ∃ f w', runIn w (run bound p) = (.error f, w') ∧ w'.store = w.store ∧ w'.blobs = w.blobs) ∧
    (sources ≠ [] → (∀ d ∈ sources, ∃ content, w.blobs.HasAt d.uri content) → ∃ members record w',
      runIn w (run bound p) =
        (.ok [⟨Blob.address w.blobs.bucket record.blobKey, ⟨.zip, .draw, DocumentType.export.text⟩⟩], w') ∧
      w'.store = { w.store with documents := w.store.documents ++ [record] } ∧
      w'.blobs = { w.blobs with blobs := w.blobs.blobs.put record.blobKey ⟨.archive members, MimeType.zip.text⟩ } ∧
      members.length = sources.length ∧ List.Forall₂ (fun d m => w.blobs.HasAt d.uri m.2) sources members ∧
      ((∀ d ∈ sources, '\x00' ∉ d.mime.model.toList) → (members.map Prod.fst).Nodup)) := by
  obtain rfl : sources = p.collected := hsources.trans (collected_eq p).symm
  refine ⟨fun hnil => ⟨_, run_of_nil hnil, rfl, rfl⟩, fun hmissing => ?_, fun hne hhere => ?_⟩
  · obtain ⟨f, hf⟩ := exists_fault hmissing
    exact ⟨_, _, run_of_error hf, rfl, rfl⟩
  · obtain ⟨members, hmembers⟩ := exists_members hhere
    obtain ⟨hcontents, hnames⟩ := members_of_ok hmembers
    refine ⟨members, (archive p members).record (idText (w.ids + 1)), _,
      run_of_ok hnamed hmemory hunused hne hmembers, rfl, rfl, hcontents.length_eq.symm, hcontents, fun hnull => ?_⟩
    rw [hnames]
    exact nodup_titles hnull

def exportedWorld : World Binary64 where
  blobs := ⟨"drawflow", .memory, [("codes.csv", ⟨.bytes [1], "text/csv"⟩), ("notes", ⟨.bytes [2], "*/*"⟩)]⟩
  clock := ⟨.zero false, []⟩

def exporting (results : List NodeData) (supplied : List NodeData) : Payload where
  organization := "org"
  job := "job"
  node := "export"
  overrides := [("export", supplied)]
  results := [("draw", results)]

/-- One blob twice, under two places, with one that is somewhere else in between; then a blob that is missing; then
none at all. -/
theorem run_archives_twice :
    let w := exportedWorld
    let codes : NodeData := ⟨"blob://drawflow/codes.csv", ⟨.csv, .draw, "Codes_1"⟩⟩
    let notes : NodeData := ⟨"blob://drawflow/notes", ⟨.any, .draw, "codes"⟩⟩
    let elsewhere : NodeData := ⟨"https://host/codes.csv", ⟨.csv, .draw, "codes"⟩⟩
    let other : NodeData := ⟨"blob://other/codes.csv", ⟨.csv, .draw, "codes"⟩⟩
    DrawNode.IsNamed (exporting [codes] []) ∧ w.blobs.keeping = .memory ∧
    (∀ r ∈ w.store.documents, r.id ≠ idText (w.ids + 1)) ∧
    (∃ (members : List (String × Content)) (record : DocumentRecord) (w' : World Binary64),
      runIn w (run [] (exporting [codes, elsewhere, notes] [codes])) =
        (.ok [⟨Blob.address w.blobs.bucket record.blobKey, ⟨.zip, .draw, DocumentType.export.text⟩⟩], w') ∧
      w'.blobs = { w.blobs with blobs := w.blobs.blobs.put record.blobKey ⟨.archive members, MimeType.zip.text⟩ } ∧
      List.Forall₂ (fun d m => w.blobs.HasAt d.uri m.2) [codes, notes, codes] members ∧
      (members.map Prod.fst).Nodup) ∧
    (∃ f w', runIn w (run [] (exporting [codes] [other])) = (.error f, w') ∧ w'.store = w.store ∧
      w'.blobs = w.blobs) ∧
    ∃ w', runIn w (run [] (exporting [elsewhere] [])) = (.ok [], w') ∧ w'.store = w.store ∧ w'.blobs = w.blobs := by
  intro w codes notes elsewhere other
  have hnamed : ∀ results supplied, DrawNode.IsNamed (exporting results supplied) := by
    have hplain : Blob.IsPlain "org" ∧ Blob.IsPlain "job" ∧ Blob.IsPlain "export" := by decide
    exact fun _ _ => ⟨hplain.1, hplain.2.1, hplain.2.2⟩
  have hunused : ∀ r ∈ w.store.documents, r.id ≠ idText (w.ids + 1) := nofun
  have hcodes : w.blobs.HasAt codes.uri (.bytes [1]) :=
    ⟨"codes.csv", "text/csv", ⟨by decide, by decide⟩, by decide, by decide, rfl⟩
  have hnotes : w.blobs.HasAt notes.uri (.bytes [2]) :=
    ⟨"notes", "*/*", ⟨by decide, by decide⟩, by decide, by decide, rfl⟩
  have hother : ∀ content, ¬w.blobs.HasAt other.uri content := by
    rintro content ⟨key, type, -, -, huri, -⟩
    have hprefix : "blob://drawflow/".toList <+: other.uri.toList := by
      have hscheme : "blob://drawflow/".toList = Blob.scheme.toList ++ ("drawflow".toList ++ ['/']) := by decide
      refine ⟨key.toList, ?_⟩
      rw [huri, Blob.toList_address, hscheme, List.append_assoc, List.append_assoc]
      rfl
    exact absurd hprefix (by decide)
  refine ⟨hnamed _ _, rfl, hunused, ?_, ?_, ?_⟩
  · have hsources : [codes, notes, codes] = ([codes, elsewhere, notes] ++ [codes]).filter
        fun d => "blob://".toList <+: d.uri.toList := by decide
    obtain ⟨-, -, harchive⟩ := run_archives (hnamed [codes, elsewhere, notes] [codes]) rfl hunused hsources []
    have hhere : ∀ d ∈ [codes, notes, codes], ∃ content, w.blobs.HasAt d.uri content := by
      simp only [List.forall_mem_cons]
      exact ⟨⟨_, hcodes⟩, ⟨_, hnotes⟩, ⟨_, hcodes⟩, List.forall_mem_nil _⟩
    obtain ⟨members, record, w', hrun, -, hblobs, -, hcontents, hnames⟩ := harchive (by decide) hhere
    exact ⟨members, record, w', hrun, hblobs, hcontents, hnames (by decide)⟩
  · have hsources : [codes, other] = ([codes] ++ [other]).filter fun d => "blob://".toList <+: d.uri.toList := by
      decide
    obtain ⟨-, hmissing, -⟩ := run_archives (hnamed [codes] [other]) rfl hunused hsources []
    exact hmissing ⟨other, List.mem_cons_of_mem _ List.mem_cons_self, hother⟩
  · have hsources : [] = ([elsewhere] ++ []).filter fun d : NodeData => "blob://".toList <+: d.uri.toList := by decide
    obtain ⟨hnone, -⟩ := run_archives (hnamed [elsewhere] []) rfl hunused hsources []
    exact hnone rfl

end ExportNode
end HuntDraw
