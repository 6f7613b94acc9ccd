import HuntDraw.Build.Context
import HuntDraw.Node.Handler
import HuntDraw.Proofs.Blob.Store
import HuntDraw.Proofs.Engine.Along

/-! What the work of nodes does to a world. It makes documents, with ids of their own and under keys that no definition
has, and leaves everything else as it is. The records of jobs, results of nodes and log entries, are only added to, and
the work of a node leaves them alone. -/

namespace HuntDraw

open HuntDraw.Action

variable {T : Type}

/-- From one world to the next, documents are made and nothing else. -/
structure World.Documented (w w' : World T) : Prop where
  store : ∃ documents, w'.store = { w.store with documents }
  definitions : ∀ c : BuildContext, w'.blobs.blobs.get? c.definitionKey = w.blobs.blobs.get? c.definitionKey
  resources : w'.resources = w.resources
  created : w'.created = w.created
  ids : w.ids ≤ w'.ids

namespace World.Documented

variable {w w' : World T}

theorem logged {events : List LogEvent} (h : ∀ e ∈ events, e.Quiet) (w : World T) : w.Documented (w.logged events) :=
  ⟨⟨_, rfl⟩, fun _ => rfl, rfl, created_quiet h w, Nat.le_refl _⟩

theorem numbered (w : World T) : w.Documented w.numbered := ⟨⟨_, rfl⟩, fun _ => rfl, rfl, rfl, Nat.le_succ _⟩

instance : IsPreorder (World T) World.Documented where
  refl _ := ⟨⟨_, rfl⟩, fun _ => rfl, rfl, rfl, Nat.le_refl _⟩
  trans _ _ _ h h' := by
    obtain ⟨documents, hstore⟩ := h.store
    obtain ⟨documents', hstore'⟩ := h'.store
    exact ⟨⟨documents', by rw [hstore', hstore]⟩, fun c => (h'.definitions c).trans (h.definitions c),
      h'.resources.trans h.resources, h'.created.trans h.created, Nat.le_trans h.ids h'.ids⟩

end World.Documented

theorem BuildContext.definitionKey_eq (c : BuildContext) : c.definitionKey =
    c.organization ++ "/" ++ c.workflow ++ "/" ++ c.instanceId ++ "/task-chain.json" := rfl

theorem BuildContext.definitionKey_ne (c : BuildContext) (organization id name : String) {ending : String}
    (h : ending = ".csv" ∨ ending = ".zip") : c.definitionKey ≠ Draft.key organization id (name ++ ending) := by
  have hdefinition : c.definitionKey.toList.getLast? = some 'n' := by
    rw [definitionKey_eq, String.toList_append, List.getLast?_append_of_ne_nil _ (by decide)]
    rfl
  have hdocument : (Draft.key organization id (name ++ ending)).toList.getLast? = ending.toList.getLast? := by
    change (organization ++ "/documents/" ++ id ++ "/" ++ (name ++ ending)).toList.getLast? = _
    rw [String.toList_append, String.toList_append (s := name), ← List.append_assoc]
    rcases h with rfl | rfl <;> exact List.getLast?_append_of_ne_nil _ (by decide)
  intro heq
  rw [heq, hdocument] at hdefinition
  rcases h with rfl | rfl <;> exact absurd hdefinition (by decide)

open World

theorem Draft.store_documented (d : Draft) {name ending : String} (hname : d.filename = name ++ ending)
    (hending : ending = ".csv" ∨ ending = ".zip") : (d.store : Action T DocumentRecord).Along Documented := by
  have hwrite : ∀ id, (Action.write (d.record id).blobKey d.content d.mime.text : Action T String).Along Documented := by
    refine fun id => .write fun w blobs uri h => ?_
    obtain ⟨-, -, rfl, -⟩ := BlobStore.write_eq_ok h
    refine ⟨⟨_, rfl⟩, fun c => Fields.get?_put_of_ne _ ?_, rfl, rfl, Nat.le_refl _⟩
    rw [Draft.record, hname]
    exact c.definitionKey_ne _ _ _ hending
  have hcreate : ∀ r : DocumentRecord, (Action.alter fun s => s.createDocument r : Action T Unit).Along Documented := by
    refine fun r => .alter fun w s h => ?_
    obtain ⟨-, -, hpure⟩ := Attempt.bind_eq_ok.1 h
    obtain rfl := Attempt.pure_eq_ok.1 hpure
    exact ⟨⟨_, rfl⟩, fun _ => rfl, rfl, rfl, Nat.le_refl _⟩
  exact .bind (.newId .numbered) fun _ => .bind (hwrite _) fun _ => .bind (hcreate _) fun _ =>
    .bind (.log (.logged (List.forall_mem_singleton.2 (by decide : "document_stored" ≠ "resource_created")))) fun _ =>
    .pure _

theorem DocumentRecord.asData_documented (d : DocumentRecord) (mime : MimeType) :
    (d.asData mime : Action T NodeData).Along Documented :=
  .bind (.look _) fun _ => .pure _

theorem Draw.journal_quiet (codes : List HuntCode) (applicants : List Applicant) (sort : Option DrawSort)
    (config : Option DrawConfig) (workers : Int) : ∀ e ∈ Draw.journal codes applicants sort config workers, e.Quiet := by
  rw [Draw.journal]
  split
  · simp
  · split
    · simp
    · refine List.forall_mem_cons.2 ⟨(by decide : "draw_inputs_filtered" ≠ "resource_created"),
        List.forall_mem_map.2 fun s _ => (by decide : "draw_round_processed" ≠ "resource_created")⟩

theorem Action.logAll_documented {bound : Fields Json} {events : List LogEvent} (h : ∀ e ∈ events, e.Quiet) :
    (Action.logAll bound events : Action T Unit).Along Documented := fun w => by
  have hquiet : ∀ e ∈ events.map (LogEvent.within bound), e.Quiet := List.forall_mem_map.2 fun e he => h e he
  exact .logged hquiet w

theorem DrawNode.run_documented (workers : Int) (bound : Fields Json) (p : Payload) :
    (DrawNode.run workers bound p : Action T (List NodeData)).Along Documented := by
  have hrows : ∀ d, (DrawNode.sourceRows d : Action T (List (Fields Json))).Along Documented := fun d =>
    .bind (.look _) fun _ => .bind (.look _) fun _ => .bind (.lift _ _) fun _ => .pure _
  have hdraft : ∀ ending type table, ((DrawNode.draft p ending type table).store : Action T _).Along Documented :=
    fun _ _ _ => Draft.store_documented _ rfl (.inl rfl)
  have hpublish : ∀ result metrics, (DrawNode.publish p result metrics : Action T (List NodeData)).Along Documented :=
    fun result metrics => .bind (hdraft _ _ _) fun _ => .bind (hdraft _ _ _) fun _ => .bind (hdraft _ _ _) fun _ =>
      .mapM (fun d => d.asData_documented _) _
  exact .bind .get fun _ => .bind (.lift _ _) fun ⟨_, _⟩ => .bind (.lift _ _) fun _ => .bind (.lift _ _) fun _ =>
    .bind (hrows _) fun _ => .bind (.lift _ _) fun _ => .bind (hrows _) fun _ => .bind (.lift _ _) fun _ =>
    .bind (Action.logAll_documented (Draw.journal_quiet _ _ _ _ _)) fun _ => .bind (.lift _ _) fun _ =>
    .bind (.lift _ _) fun _ => .bind (hpublish _ _) fun _ =>
    .bind (.log (.logged (List.forall_mem_singleton.2 (by decide : "draw_completed" ≠ "resource_created")))) fun _ =>
    .pure _

theorem ExportNode.run_documented (bound : Fields Json) (p : Payload) :
    (ExportNode.run bound p : Action T (List NodeData)).Along Documented := by
  have hmember : ∀ d place, (ExportNode.member d place : Action T (String × Content)).Along Documented := fun d place =>
    .bind (.look _) fun _ => .bind (.look _) fun _ => .pure _
  rw [ExportNode.run]
  split_ifs
  · exact .bind (.log (.logged (List.forall_mem_singleton.2
      (by decide : "export_skipped_no_inputs" ≠ "resource_created")))) fun _ => .pure _
  · exact .bind (.mapM (fun _ => hmember _ _) _) fun _ => .bind (Draft.store_documented _ rfl (.inr rfl)) fun _ =>
      .bind (.log (.logged (List.forall_mem_singleton.2
        (by decide : "export_archive_written" ≠ "resource_created")))) fun _ =>
      .bind (DocumentRecord.asData_documented _ _) fun _ => .pure _

/-- The work of every type of node makes documents and nothing else. -/
theorem TaskType.work_documented (draw : DrawSettings) (bound : Fields Json) (p : Payload) :
    ∀ type : TaskType, (type.work draw bound p : Action T (List NodeData)).Along Documented
  | .draw => DrawNode.run_documented _ _ _
  | .export => ExportNode.run_documented _ _
  | .noop | .commit => .pure _

variable {α : Type}

/-- From one world to the next, results and log entries are added, and the jobs stay as they are. -/
structure World.Adds (w w' : World T) (results : List NodeResult) (logs : List JobLog) : Prop where
  jobs : w'.store.jobs = w.store.jobs
  results : w'.store.results = w.store.results ++ results
  logs : w'.store.logs = w.store.logs ++ logs
  ids : w.ids ≤ w'.ids

namespace World.Adds

variable {w w' w'' : World T} {results results' : List NodeResult} {logs logs' : List JobLog}

theorem of_store (hstore : w'.store = w.store) (hids : w.ids ≤ w'.ids) : w.Adds w' [] [] :=
  ⟨by rw [hstore], by simp [hstore], by simp [hstore], hids⟩

theorem refl (w : World T) : w.Adds w [] [] := of_store rfl (Nat.le_refl _)

theorem logged (w : World T) (events : List LogEvent) : w.Adds (w.logged events) [] [] := of_store rfl (Nat.le_refl _)

theorem trans (h : w.Adds w' results logs) (h' : w'.Adds w'' results' logs') :
    w.Adds w'' (results ++ results') (logs ++ logs') :=
  ⟨h'.jobs.trans h.jobs, by rw [h'.results, h.results, List.append_assoc],
    by rw [h'.logs, h.logs, List.append_assoc], Nat.le_trans h.ids h'.ids⟩

end World.Adds

/-- An action that adds nothing to the records of jobs. -/
def Action.Sparing (a : Action T α) : Prop := ∀ w : World T, w.Adds (runIn w a).2 [] []

theorem World.Documented.adds {w w' : World T} (h : w.Documented w') : w.Adds w' [] [] := by
  obtain ⟨documents, hstore⟩ := h.store
  exact ⟨by rw [hstore], by simp [hstore], by simp [hstore], h.ids⟩

/-- The work of every type of node leaves the records of jobs to its handler. -/
theorem TaskType.work_sparing (draw : DrawSettings) (bound : Fields Json) (p : Payload) (type : TaskType) :
    (type.work draw bound p : Action T (List NodeData)).Sparing := fun w => (type.work_documented draw bound p w).adds

end HuntDraw
