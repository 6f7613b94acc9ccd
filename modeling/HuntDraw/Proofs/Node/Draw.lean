import HuntDraw.Node.Draw
import HuntDraw.Proofs.Blob.Address
import HuntDraw.Proofs.Draw.Result
import HuntDraw.Proofs.Draw.Tables
import HuntDraw.Proofs.Engine.Action

/-! What the draw node leaves. Where it finds its settings and sources, it fails or stores three documents, and which of
these it does depends on the draw alone. -/

namespace HuntDraw

open HuntDraw.Action Attempt

variable {T : Type}

namespace World

def keeping (w : World T) (d : Draft) : World T :=
  let record := d.record (idText (w.ids + 1))
  World.logged { w.numbered with
    blobs := { w.blobs with blobs := w.blobs.blobs.put record.blobKey ⟨d.content, d.mime.text⟩ }
    store := { w.store with documents := w.store.documents ++ [record] } } [⟨.debug, "document_stored", [
      ("document_id", .text record.id), ("blob_key", .text record.blobKey),
      ("size", Json.ofOption Json.nat d.content.size?)]⟩]

/-- Nothing is in the way of a new document: blobs are in memory, and the documents have ids that were given out. -/
structure HasRoom (w : World T) : Prop where
  memory : w.blobs.keeping = .memory
  given : ∀ d ∈ w.store.documents, ∃ n ≤ w.ids, d.id = idText n

variable {w : World T} {d : Draft}

@[simp]
theorem keeping_ids (w : World T) (d : Draft) : (w.keeping d).ids = w.ids + 1 := rfl

theorem HasRoom.keeping (h : w.HasRoom) (d : Draft) : (w.keeping d).HasRoom := by
  refine ⟨h.memory, fun r hr => ?_⟩
  rcases List.mem_append.1 hr with hr | hr
  · obtain ⟨n, hn, hid⟩ := h.given r hr
    exact ⟨n, Nat.le_succ_of_le hn, hid⟩
  · exact ⟨w.ids + 1, Nat.le_refl _, congrArg DocumentRecord.id (List.mem_singleton.1 hr)⟩

end World

namespace Draft

variable {w : World T} {d : Draft}

def nextKey (d : Draft) (w : World T) : String := key d.organization (idText (w.ids + 1)) d.filename

/-- Documents of one organization that are made at different times have different keys. -/
theorem nextKey_ne {e : Draft} {w' : World T} (horganization : d.organization = e.organization)
    (hids : w.ids < w'.ids) : d.nextKey w ≠ e.nextKey w' := by
  rw [nextKey, nextKey, horganization]
  exact Blob.documentKey_ne (by omega)

theorem runIn_store_of_unused (hmemory : w.blobs.keeping = .memory)
    (hunused : ∀ r ∈ w.store.documents, r.id ≠ idText (w.ids + 1)) (hkey : Blob.isKey (d.nextKey w).toList) :
    runIn w d.store = (.ok (d.record (idText (w.ids + 1))), w.keeping d) := by
  have hwrite : runIn w.numbered (write (d.nextKey w) d.content d.mime.text) =
      (.ok (Blob.address w.blobs.bucket (d.nextKey w)), { w.numbered with
        blobs := { w.blobs with blobs := w.blobs.blobs.put (d.nextKey w) ⟨d.content, d.mime.text⟩ } }) := by
    have hfree : w.numbered.blobs.obstacle (d.nextKey w) = none := by
      rw [BlobStore.obstacle, show w.numbered.blobs.keeping = .memory from hmemory]
    rw [runIn_write, BlobStore.write_of_free hkey hfree]
    rfl
  have hfresh : Store.fresh "draw_documents.document_id" DocumentRecord.id w.store.documents (idText (w.ids + 1)) =
      .ok () := by
    refine if_neg ?_
    simp only [List.any_eq_true, decide_eq_true_eq, not_exists, not_and]
    exact hunused
  have hcreate : w.store.createDocument (d.record (idText (w.ids + 1))) =
      .ok { w.store with documents := w.store.documents ++ [d.record (idText (w.ids + 1))] } :=
    bind_eq_ok.2 ⟨(), hfresh, rfl⟩
  exact (runIn_bind_ok runIn_newId).trans ((runIn_bind_ok hwrite).trans (runIn_bind_ok (runIn_alter hcreate)))

theorem runIn_store (h : w.HasRoom) (hkey : Blob.isKey (d.nextKey w).toList) :
    runIn w d.store = (.ok (d.record (idText (w.ids + 1))), w.keeping d) := by
  refine runIn_store_of_unused h.memory (fun r hr hid => ?_) hkey
  obtain ⟨n, hn, hid'⟩ := h.given r hr
  have := idText_injective (hid.symm.trans hid')
  omega

theorem get?_keeping_self (d : Draft) (w : World T) :
    (w.keeping d).blobs.blobs.get? (d.nextKey w) = some ⟨d.content, d.mime.text⟩ :=
  Fields.get?_put_self _ _

theorem get?_keeping {k : String} (h : k ≠ d.nextKey w) : (w.keeping d).blobs.blobs.get? k = w.blobs.blobs.get? k :=
  Fields.get?_put_of_ne _ h

theorem runIn_asData {w' : World T} (hkey : Blob.isKey (d.nextKey w).toList) (mime : MimeType) :
    runIn w' ((d.record (idText (w.ids + 1))).asData mime) =
      (.ok ⟨Blob.address w'.blobs.bucket (d.nextKey w), ⟨mime, .draw, d.type.text⟩⟩, w') := by
  have haddress : w'.blobs.addressOf (d.nextKey w) = .ok (Blob.address w'.blobs.bucket (d.nextKey w)) :=
    map_eq_ok.2 ⟨d.nextKey w, Blob.checkKey_eq_ok.2 ⟨hkey, rfl⟩, rfl⟩
  have hlook : runIn w' (look fun b => b.addressOf (d.nextKey w)) =
      (.ok (Blob.address w'.blobs.bucket (d.nextKey w)), w') := by
    rw [runIn_look, haddress]
    rfl
  exact runIn_bind_ok hlook

end Draft

namespace DrawNode

variable {p : Payload} {w w' : World T} {sort : DrawSort} {config : DrawConfig} {codes applicants : Bytes} {t : Tables}
  {workers : Int} {bound : Fields Json}

structure IsNamed (p : Payload) : Prop where
  organization : Blob.IsPlain p.organization
  job : Blob.IsPlain p.job
  node : Blob.IsPlain p.node

/-- A document that is named for the job and the node is kept under a key. -/
theorem isKey_named (h : IsNamed p) {ending : String} (hslash : '/' ∉ ending.toList) (hbackslash : '\\' ∉ ending.toList)
    (n : Nat) : Blob.isKey (Draft.key p.organization (idText n) (p.job ++ "_" ++ p.node ++ "_" ++ ending)).toList := by
  have hfile : (p.job ++ "_" ++ p.node ++ "_" ++ ending).toList =
      p.job.toList ++ ('_' :: p.node.toList ++ ('_' :: ending.toList)) := by
    simp only [String.toList_append, List.append_assoc]
    rfl
  refine Blob.isKey_documentKey h.organization _ (Blob.isStep_of_mem (c := '_') ?_ (by decide)) ?_ ?_
  · simp [hfile]
  · simp [hfile, h.job.slash, h.node.slash, hslash]
  · simp [hfile, h.job.backslash, h.node.backslash, hbackslash]

theorem isKey_nextKey (h : IsNamed p) {ending : String} (hslash : '/' ∉ ending.toList)
    (hbackslash : '\\' ∉ ending.toList) (type : DocumentType) (table : String) (w : World T) :
    Blob.isKey ((draft p ending type table).nextKey w).toList := by
  have hname : (draft p ending type table).filename = p.job ++ "_" ++ p.node ++ "_" ++ (ending ++ ".csv") := by
    rw [← String.append_assoc]
    rfl
  have htable : (".csv" : String).toList = ['.', 'c', 's', 'v'] := rfl
  rw [Draft.nextKey, hname]
  exact isKey_named h (by simp [String.toList_append, htable, hslash])
    (by simp [String.toList_append, htable, hbackslash]) _

def Leaves (workers : Int) (bound : Fields Json) (p : Payload) (w : World T) (t : Tables) : Prop :=
  ∃ applicants codes metrics w', runIn w (run workers bound p) = (.ok [applicants, codes, metrics], w') ∧
    w'.blobs.fetch applicants.uri = .ok (.ofText t.applicants) ∧ w'.blobs.fetch codes.uri = .ok (.ofText t.codes) ∧
      w'.blobs.fetch metrics.uri = .ok (.ofText t.metrics)

def Fails (workers : Int) (bound : Fields Json) (p : Payload) (w : World T) : Prop :=
  ∃ f w', runIn w (run workers bound p) = (.error f, w')

/-- Three documents that are stored in turn are data in the order that is asked for. -/
theorem runIn_storeAll {d₁ d₂ d₃ : Draft} (hroom : w.HasRoom) (h₁ : Blob.isKey (d₁.nextKey w).toList)
    (h₂ : Blob.isKey (d₂.nextKey (w.keeping d₁)).toList)
    (h₃ : Blob.isKey (d₃.nextKey ((w.keeping d₁).keeping d₂)).toList) (mime : MimeType) :
    runIn w (do
      let r₁ ← d₁.store
      let r₂ ← d₂.store
      let r₃ ← d₃.store
      [r₂, r₁, r₃].mapM fun r => r.asData mime) =
        (.ok [⟨Blob.address w.blobs.bucket (d₂.nextKey (w.keeping d₁)), ⟨mime, .draw, d₂.type.text⟩⟩,
          ⟨Blob.address w.blobs.bucket (d₁.nextKey w), ⟨mime, .draw, d₁.type.text⟩⟩,
          ⟨Blob.address w.blobs.bucket (d₃.nextKey ((w.keeping d₁).keeping d₂)), ⟨mime, .draw, d₃.type.text⟩⟩],
          ((w.keeping d₁).keeping d₂).keeping d₃) := by
  rw [runIn_bind_ok (Draft.runIn_store hroom h₁), runIn_bind_ok (Draft.runIn_store (hroom.keeping d₁) h₂),
    runIn_bind_ok (Draft.runIn_store ((hroom.keeping d₁).keeping d₂) h₃)]
  simp only [List.mapM_cons, List.mapM_nil]
  rw [runIn_bind_ok (Draft.runIn_asData h₂ mime), bind_assoc, runIn_bind_ok (Draft.runIn_asData h₁ mime), bind_assoc,
    bind_assoc, runIn_bind_ok (Draft.runIn_asData h₃ mime)]
  rfl

/-- The tables are stored, and each of them is found at its address. -/
theorem runIn_publish (h : IsNamed p) (hroom : w.HasRoom) (hbucket : Blob.IsBucket w.blobs.bucket) (r : DrawResult)
    (metrics : List (Metric × MetricValue)) : ∃ a c m w', runIn w (publish p r metrics) = (.ok [a, c, m], w') ∧
      w'.blobs.fetch a.uri = .ok (.ofText (Document.applicantTable r.applicants)) ∧
        w'.blobs.fetch c.uri = .ok (.ofText (Document.huntCodeTable r.codes)) ∧
          w'.blobs.fetch m.uri = .ok (.ofText (metricTable metrics)) := by
  have hkey {ending : String} (he : '/' ∉ ending.toList ∧ '\\' ∉ ending.toList) (type : DocumentType) (table : String)
      (w : World T) := isKey_nextKey h he.1 he.2 type table w
  rw [publish]
  generalize hdc : draft p "hunt_code_results" .huntCodes (Document.huntCodeTable r.codes) = dc
  generalize hda : draft p "applicant_results" .applicants (Document.applicantTable r.applicants) = da
  generalize hdm : draft p "draw_metrics" .metrics (metricTable metrics) = dm
  have hc : Blob.isKey (dc.nextKey w).toList := hdc ▸ hkey (by decide) _ _ _
  have ha : Blob.isKey (da.nextKey (w.keeping dc)).toList := hda ▸ hkey (by decide) _ _ _
  have hm : Blob.isKey (dm.nextKey ((w.keeping dc).keeping da)).toList := hdm ▸ hkey (by decide) _ _ _
  have hca : dc.nextKey w ≠ da.nextKey (w.keeping dc) :=
    Draft.nextKey_ne (by rw [← hdc, ← hda, draft, draft]) (by simp)
  have hcm : dc.nextKey w ≠ dm.nextKey ((w.keeping dc).keeping da) :=
    Draft.nextKey_ne (by rw [← hdc, ← hdm, draft, draft]) (by simp)
  have ham : da.nextKey (w.keeping dc) ≠ dm.nextKey ((w.keeping dc).keeping da) :=
    Draft.nextKey_ne (by rw [← hda, ← hdm, draft, draft]) (by simp)
  have hcodes : (((w.keeping dc).keeping da).keeping dm).blobs.blobs.get? (dc.nextKey w) =
      some ⟨dc.content, dc.mime.text⟩ := by
    rw [Draft.get?_keeping hcm, Draft.get?_keeping hca, Draft.get?_keeping_self]
  have happlicants : (((w.keeping dc).keeping da).keeping dm).blobs.blobs.get? (da.nextKey (w.keeping dc)) =
      some ⟨da.content, da.mime.text⟩ := by
    rw [Draft.get?_keeping ham, Draft.get?_keeping_self]
  have hbucket' : Blob.IsBucket (((w.keeping dc).keeping da).keeping dm).blobs.bucket := hbucket
  refine ⟨_, _, _, _, runIn_storeAll hroom hc ha hm .csv, ?_, ?_, ?_⟩
  · exact (BlobStore.fetch_address hbucket' ha happlicants).trans (by rw [← hda]; rfl)
  · exact (BlobStore.fetch_address hbucket' hc hcodes).trans (by rw [← hdc]; rfl)
  · exact (BlobStore.fetch_address hbucket' hm (Draft.get?_keeping_self dm _)).trans (by rw [← hdm]; rfl)

/-- A node whose settings are in a store that holds nothing else, and whose sources are blobs in memory. -/
structure Ready (p : Payload) (w : World T) (sort : DrawSort) (config : DrawConfig) (codes applicants : Bytes) :
    Prop where
  named : IsNamed p
  sortNamed : sort.id ≠ ""
  sorted : config.sortId = some sort.id
  store : (({} : Store).putSort sort).putConfig p.node config = .ok w.store
  memory : w.blobs.keeping = .memory
  codes : ∃ d, p.source .draw DocumentType.huntCodes.text = .ok d ∧ w.blobs.fetch d.uri = .ok (.bytes codes)
  applicants : ∃ d, p.source .draw DocumentType.applicants.text = .ok d ∧
    w.blobs.fetch d.uri = .ok (.bytes applicants)

variable (hready : Ready p w sort config codes applicants)

include hready

theorem Ready.store_eq : w.store = { sorts := [sort], configs := [(p.node, config)] } :=
  (Except.ok.inj hready.store).symm

theorem Ready.room : w.HasRoom := ⟨hready.memory, by rw [hready.store_eq]; exact nofun⟩

theorem Ready.bucket : Blob.IsBucket w.blobs.bucket := by
  obtain ⟨d, -, hfetch⟩ := hready.codes
  obtain ⟨key, hkey, -⟩ := bind_eq_ok.1 hfetch
  exact Blob.isBucket_of_keyOf hkey

theorem Ready.settings : w.store.drawSettings p.node =
    if sort.rules.isEmpty then .error (.noRules sort.id) else .ok (config, sort) := by
  have hconfig : w.store.getConfig p.node = some config := by
    rw [hready.store_eq, Store.getConfig, Fields.get?]
    simp
  have hsort : w.store.getSort sort.id = some sort := by
    rw [hready.store_eq, Store.getSort]
    simp
  rw [Store.drawSettings, hconfig]
  simp only [hready.sorted, hsort]
  rw [if_neg (by simpa using hready.sortNamed)]

omit hready in
theorem runIn_sourceRows {d : NodeData} {bs : Bytes} (h : w.blobs.fetch d.uri = .ok (.bytes bs)) :
    runIn w (sourceRows d) = (((Csv.readRows bs).mapError .notText).map (·.map Csv.Row.fields), w) := by
  obtain ⟨key, hkey, hread⟩ := bind_eq_ok.1 h
  have hlook : runIn w (look fun b => b.keyOf d.uri) = (.ok key, w) := by
    rw [runIn_look, hkey]
    rfl
  have hcontent : runIn w (look fun b => b.read key) = (.ok (.bytes bs), w) := by
    rw [runIn_look, hread]
    rfl
  rw [sourceRows, runIn_bind_ok hlook, runIn_bind_ok hcontent, runIn_bind, runIn_lift, Content.rows]
  cases Csv.readRows bs <;> rfl

def drawCompleted (bound : Fields Json) (config : DrawConfig) (r : DrawResult) : LogEvent :=
  ⟨.info, "draw_completed", bound ++ [
    ("draw_config_id", .text config.id),
    ("awarded", .nat (awardedCount r)),
    ("hunt_codes_in_draw", .nat r.used.length)]⟩

theorem leaves_of_makes {codeRows applicantRows : List Csv.Row} (hcodeRows : Csv.readRows codes = .ok codeRows)
    (happlicantRows : Csv.readRows applicants = .ok applicantRows)
    (h : Draw.Makes codeRows applicantRows sort config t) (workers : Int) (bound : Fields Json) :
    Leaves workers bound p w t := by
  obtain ⟨cs, as, r, metrics, hcs, has, hr, hmetrics, rfl⟩ := h
  obtain ⟨dc, hdc, hfetchc⟩ := hready.codes
  obtain ⟨da, hda, hfetcha⟩ := hready.applicants
  have hsettings : w.store.drawSettings p.node = .ok (config, sort) := by
    rw [hready.settings, if_neg]
    intro hnone
    have hvalid := (Draw.run_eq_ok.1 hr).1
    rw [List.isEmpty_iff.1 hnone] at hvalid
    exact absurd hvalid (by decide)
  have happlicants : runIn w (sourceRows da) = (.ok (applicantRows.map Csv.Row.fields), w) := by
    rw [runIn_sourceRows hfetcha, happlicantRows]
    rfl
  have hcodes : runIn w (sourceRows dc) = (.ok (codeRows.map Csv.Row.fields), w) := by
    rw [runIn_sourceRows hfetchc, hcodeRows]
    rfl
  let w₁ := w.logged ((Draw.journal cs as (some sort) (some config) workers).map (LogEvent.within bound))
  obtain ⟨a, c, m, w₂, hpublished, hfetched⟩ := runIn_publish (w := w₁) hready.named
    ⟨hready.room.memory, hready.room.given⟩ hready.bucket r metrics
  refine ⟨a, c, m, w₂.logged [drawCompleted bound config r], ?_, hfetched⟩
  rw [run, runIn_bind_ok runIn_get, runIn_bind_ok (runIn_lift_ok hsettings)]
  simp only
  rw [runIn_bind_ok (runIn_lift_ok hda), runIn_bind_ok (runIn_lift_ok hdc), runIn_bind_ok happlicants,
    runIn_bind_ok (runIn_lift_ok has), runIn_bind_ok hcodes, runIn_bind_ok (runIn_lift_ok hcs),
    runIn_bind_ok (runIn_logAll _ _), Draw.run_workers _ _ _ _ workers 1, runIn_bind_ok (runIn_lift_ok hr),
    runIn_bind_ok (runIn_lift_ok hmetrics), runIn_bind_ok hpublished, runIn_bind_ok (runIn_log _ _ _)]
  rfl

omit hready in
theorem sourceRows_eq_ok {d : NodeData} {bs : Bytes} {rows : List (Fields Json)}
    (h : w.blobs.fetch d.uri = .ok (.bytes bs)) (hrun : runIn w (sourceRows d) = (.ok rows, w')) :
    ∃ read, Csv.readRows bs = .ok read ∧ rows = read.map Csv.Row.fields ∧ w' = w := by
  rw [runIn_sourceRows h] at hrun
  obtain ⟨hrows, rfl⟩ := Prod.mk.inj hrun
  cases hread : Csv.readRows bs with
  | ok read =>
    rw [hread] at hrows
    exact ⟨read, rfl, (Except.ok.inj hrows).symm, rfl⟩
  | error f =>
    rw [hread] at hrows
    exact nomatch hrows

/-- A draw by the node that does not fail has made tables from the rows of its sources. -/
theorem makes_of_ok {data : List NodeData} (h : runIn w (run workers bound p) = (.ok data, w')) :
    ∃ codeRows applicantRows t, Csv.readRows codes = .ok codeRows ∧ Csv.readRows applicants = .ok applicantRows ∧
      Draw.Makes codeRows applicantRows sort config t := by
  obtain ⟨dc, hdc, hfetchc⟩ := hready.codes
  obtain ⟨da, hda, hfetcha⟩ := hready.applicants
  rw [run, runIn_bind_ok runIn_get] at h
  obtain ⟨⟨config', sort'⟩, w₁, hsettings, h⟩ := bind_runIn_eq_ok h
  obtain ⟨hsettings, rfl⟩ := lift_runIn_eq_ok hsettings
  rw [hready.settings] at hsettings
  split_ifs at hsettings
  obtain ⟨rfl, rfl⟩ := Prod.mk.inj (Except.ok.inj hsettings)
  simp only at h
  rw [runIn_bind_ok (runIn_lift_ok hda), runIn_bind_ok (runIn_lift_ok hdc)] at h
  obtain ⟨_, _, hrowsa, h₁⟩ := bind_runIn_eq_ok h
  obtain ⟨applicantRows, happlicantRows, rfl, rfl⟩ := sourceRows_eq_ok hfetcha hrowsa
  obtain ⟨as, _, has', h₂⟩ := bind_runIn_eq_ok h₁
  obtain ⟨has, rfl⟩ := lift_runIn_eq_ok has'
  obtain ⟨_, _, hrowsc, h₃⟩ := bind_runIn_eq_ok h₂
  obtain ⟨codeRows, hcodeRows, rfl, rfl⟩ := sourceRows_eq_ok hfetchc hrowsc
  obtain ⟨cs, _, hcs', h₄⟩ := bind_runIn_eq_ok h₃
  obtain ⟨hcs, rfl⟩ := lift_runIn_eq_ok hcs'
  rw [runIn_bind_ok (runIn_logAll _ _), Draw.run_workers _ _ _ _ workers 1] at h₄
  obtain ⟨r, _, hr', h₅⟩ := bind_runIn_eq_ok h₄
  obtain ⟨hr, rfl⟩ := lift_runIn_eq_ok hr'
  obtain ⟨metrics, _, hmetrics', -⟩ := bind_runIn_eq_ok h₅
  obtain ⟨hmetrics, rfl⟩ := lift_runIn_eq_ok hmetrics'
  exact ⟨codeRows, applicantRows, _, hcodeRows, happlicantRows, cs, as, r, metrics, hcs, has, hr, hmetrics, rfl⟩

end DrawNode
end HuntDraw
