import HuntDraw.Build.Stages
import HuntDraw.Proofs.Data.Canonical
import HuntDraw.Proofs.Engine.Acceptance
import HuntDraw.Proofs.Graph.Parameters
import HuntDraw.Proofs.Node.Payload

/-! The definition of a chain on its way through a blob. It is written in canonical form, and what is read from there
and checked is the chain again, but for the order of fields. -/

namespace HuntDraw

open Attempt Checked
open Json (Plain Same arrange)

namespace Graph

theorem plain_suppliedTo (id : String) (data : List NodeData) : (Payload.tableJson (suppliedTo id data)).Plain := by
  have hdata : (Json.list (data.map NodeData.toJson)).Plain :=
    .list (List.forall_mem_map.2 fun d _ => d.plain_toJson)
  rw [suppliedTo]
  split_ifs
  · exact .of_names [] rfl List.nodup_nil (by simp)
  · exact .of_names [id] rfl (List.nodup_singleton _) (List.forall_mem_singleton.2 hdata)

theorem plain_parameters (t : Target) (first : Bool) (id : String) (data : List NodeData) :
    (Json.object (parameters t first id data)).Plain := by
  have hsupplied := plain_suppliedTo id data
  rw [tableJson_suppliedTo] at hsupplied
  cases first
  · have hstate : (Json.object [("organization_id", .text t.organization),
        ("workflow_job_id.$", .text "$.context.workflow_job_id"), ("node_id", .text id),
        ("previous_node_id.$", .text "$.context.previous_node_id")]).Plain :=
      .of_names ["organization_id", "workflow_job_id.$", "node_id", "previous_node_id.$"] rfl (by decide)
        (by simp [Plain.text])
    refine .of_names ["context", "node_result_data.$", "node_override_data"] rfl (by decide) fun v hv => ?_
    simp only [parameters, Bool.false_eq_true, if_false, List.map_cons, List.map_nil, List.mem_cons,
      List.not_mem_nil, or_false] at hv
    obtain rfl | rfl | rfl := hv
    exacts [hstate, .text _, hsupplied]
  · have hstate : (Json.object [("organization_id", .text t.organization),
        ("workflow_job_id.$", .text "$.context.workflow_job_id"), ("node_id", .text id)]).Plain :=
      .of_names ["organization_id", "workflow_job_id.$", "node_id"] rfl (by decide) (by simp [Plain.text])
    refine .of_names ["context", "node_result_data", "node_override_data"] rfl (by decide) fun v hv => ?_
    simp only [parameters, if_true, List.map_cons, List.map_nil, List.mem_cons, List.not_mem_nil, or_false] at hv
    obtain rfl | rfl | rfl := hv
    exacts [hstate, .of_names [] rfl List.nodup_nil (by simp), hsupplied]

end Graph

namespace Task

variable {t : Task}

def arranged (t : Task) : Task := { t with parameters := arrange t.parameters }

theorem plain_toJson (h : (Json.object t.parameters).Plain) : t.toJson.Plain := by
  have hnext : (Json.ofText? t.next).Plain := by
    cases t.next
    exacts [.null, .text _]
  refine .of_names ["resource_ref", "comment", "parameters", "next", "terminal"] rfl (by decide) fun v hv => ?_
  simp only [List.map_cons, List.map_nil, List.mem_cons, List.not_mem_nil, or_false] at hv
  obtain rfl | rfl | rfl | rfl | rfl := hv
  exacts [.text _, .text _, h, hnext, .bool _]

/-- The fields of a task are found by their names, so their order has no part in what is read. -/
theorem check_sortFields (h : t.resource ≠ "") : Task.check t.toJson.sortFields = .valid t.arranged := by
  have hget := @Json.get?_arrange [
    ("resource_ref", .text t.resource), ("comment", .text t.comment), ("parameters", .object t.parameters),
    ("next", Json.ofText? t.next), ("terminal", .bool t.terminal)]
    (show ["resource_ref", "comment", "parameters", "next", "terminal"].Nodup by decide)
  have hresource : Check.filledText (.text t.resource) = .valid t.resource := by
    rw [Check.filledText, Check.text, andThen, if_neg (by simpa using h)]
  have hparameters : Check.mapping Check.text Check.any (Json.sortFields (.object t.parameters)) =
      .valid (arrange t.parameters) := by
    rw [Json.sortFields_object]
    exact Check.entries_any _
  have hnext : Check.nullable Check.text (Json.ofText? t.next).sortFields = .valid t.next := by
    cases t.next <;> rfl
  rw [toJson, Json.sortFields_object]
  change Task.mk <$> Check.required (arrange _) "resource_ref" Check.filledText
    <*> Check.optional (arrange _) "comment" "" Check.text
    <*> Check.optional (arrange _) "parameters" [] (Check.mapping Check.text Check.any)
    <*> Check.optional (arrange _) "next" none (Check.nullable Check.text)
    <*> Check.optional (arrange _) "terminal" false Check.flag = _
  simp only [Check.required, Check.optional, hget]
  change Task.mk <$> (Check.filledText (.text t.resource)).within "resource_ref"
    <*> (Checked.valid t.comment).within "comment"
    <*> (Check.mapping Check.text Check.any (Json.sortFields (.object t.parameters))).within "parameters"
    <*> (Check.nullable Check.text (Json.ofText? t.next).sortFields).within "next"
    <*> (Checked.valid t.terminal).within "terminal" = .valid t.arranged
  rw [hresource, hparameters, hnext]
  rfl

theorem same_arranged (h : (Json.object t.parameters).Plain) : t.toJson.Same t.arranged.toJson := by
  have hparameters := h.same_sortFields
  rw [Json.sortFields_object] at hparameters
  exact .object (.refl _) rfl (.cons (.refl _) (.cons (.refl _) (.cons hparameters
    (.cons (.refl _) (.cons (.refl _) .nil)))))

end Task

namespace TaskChain

variable {c : TaskChain}

def arranged (c : TaskChain) : TaskChain :=
  ⟨c.start, (c.tasks.mergeSort fun a b => (Text.order16 a.1.toList b.1.toList).isLE).map
    fun p => (p.1, p.2.arranged)⟩

theorem arranged_perm (c : TaskChain) : c.arranged.tasks.Perm (c.tasks.map fun p => (p.1, p.2.arranged)) :=
  (List.mergeSort_perm _ _).map _

/-- The definition of a chain whose tasks have different names and plain parameters is plain. -/
theorem plain_toJson (hkeys : c.tasks.keys.Nodup) (hplain : ∀ p ∈ c.tasks, (Json.object p.2.parameters).Plain) :
    c.toJson.Plain := by
  refine .of_names ["start_node_id", "tasks"] rfl (by decide) fun v hv => ?_
  simp only [List.map_cons, List.map_nil, List.mem_cons, List.not_mem_nil, or_false] at hv
  obtain rfl | rfl := hv
  · exact .text _
  · exact .object (by rwa [Fields.keys_map fun p : String × Task => p.2.toJson])
      (List.forall_mem_map.2 fun p hp => Task.plain_toJson (hplain p hp))

theorem arrange_tasks (c : TaskChain) : arrange (c.tasks.map fun p => (p.1, p.2.toJson)) =
    (c.tasks.mergeSort fun a b => (Text.order16 a.1.toList b.1.toList).isLE).map
      fun p => (p.1, p.2.toJson.sortFields) := by
  rw [arrange, Json.sortEach_eq, List.map_map]
  exact (List.map_mergeSort (f := fun p : String × Task => (p.1, p.2.toJson.sortFields)) fun _ _ _ _ => rfl).symm

theorem check_sortFields (h : ∀ p ∈ c.tasks, p.2.resource ≠ "") :
    TaskChain.check c.toJson.sortFields = .valid c.arranged := by
  have hentries : ∀ tasks : Fields Task, (∀ p ∈ tasks, p.2.resource ≠ "") →
      Check.entries Check.text Task.check (tasks.map fun p => (p.1, p.2.toJson.sortFields)) =
        .valid (tasks.map fun p => (p.1, p.2.arranged)) := by
    intro tasks htasks
    induction tasks with
    | nil => rfl
    | cons p tasks ih =>
      obtain ⟨hp, hrest⟩ := List.forall_mem_cons.1 htasks
      rw [List.map_cons, Check.entries, ih hrest, Task.check_sortFields hp]
      rfl
  have hget := @Json.get?_arrange [
    ("start_node_id", .text c.start), ("tasks", .object (c.tasks.map fun p => (p.1, p.2.toJson)))]
    (show ["start_node_id", "tasks"].Nodup by decide)
  have htasks : Check.mapping Check.text Task.check
      (Json.sortFields (.object (c.tasks.map fun p => (p.1, p.2.toJson)))) = .valid c.arranged.tasks := by
    rw [Json.sortFields_object, arrange_tasks]
    exact hentries _ fun p hp => h p ((List.mergeSort_perm _ _).mem_iff.1 hp)
  rw [toJson, Json.sortFields_object]
  change TaskChain.mk <$> Check.required (arrange _) "start_node_id" Check.text
    <*> Check.required (arrange _) "tasks" (Check.mapping Check.text Task.check) = _
  simp only [Check.required, hget]
  change TaskChain.mk <$> (Checked.valid c.start).within "start_node_id"
    <*> (Check.mapping Check.text Task.check
      (Json.sortFields (.object (c.tasks.map fun p => (p.1, p.2.toJson))))).within "tasks" = .valid c.arranged
  rw [htasks]
  rfl

theorem same_arranged (h : ∀ p ∈ c.tasks, (Json.object p.2.parameters).Plain) :
    c.toJson.Same c.arranged.toJson := by
  have hperm := (c.arranged_perm.map fun p => (p.1, p.2.toJson)).symm
  rw [List.map_map] at hperm
  refine .object (.refl _) rfl (.cons (.refl _) (.cons (.object hperm ?_ ?_) .nil))
  · simp [Fields.keys]
  · simp only [List.map_map, List.forall₂_map_left_iff, List.forall₂_map_right_iff]
    exact List.forall₂_same.2 fun p hp => Task.same_arranged (h p hp)

/-- Definitions that differ in nothing but the order of fields start with the same task. -/
theorem start_eq_of_same {c' : TaskChain} (h : c.toJson.Same c'.toJson) : c.start = c'.start := by
  have hmem := Json.Same.mem_text h (k := "start_node_id") List.mem_cons_self
  simpa using hmem

theorem get?_arranged (h : c.tasks.keys.Nodup) (id : String) :
    c.arranged.tasks.get? id = (c.tasks.get? id).map Task.arranged := by
  rw [Fields.get?_perm c.arranged_perm (by rwa [Fields.keys_map fun p : String × Task => p.2.arranged]), Fields.get?_map]

theorem keys_arranged_perm (c : TaskChain) : c.arranged.tasks.keys.Perm c.tasks.keys := by
  have hperm := c.arranged_perm.map Prod.fst
  rwa [← Fields.keys, ← Fields.keys, Fields.keys_map fun p : String × Task => p.2.arranged] at hperm

theorem ordered_arranged (h : c.tasks.keys.Nodup) : c.arranged.ordered = c.ordered := by
  refine follow_perm c.keys_arranged_perm fun id => ?_
  rw [get?_arranged h, Option.map_map]
  rfl

theorem Linear.arranged {resources : List String} (hkeys : c.tasks.keys.Nodup) (h : c.Linear resources) :
    c.arranged.Linear resources := by
  have hordered := ordered_arranged hkeys
  refine ⟨hordered ▸ h.perm.trans c.keys_arranged_perm.symm, hordered ▸ h.nodup, hordered ▸ h.start,
    fun i id hid => ?_⟩
  rw [hordered] at hid ⊢
  obtain ⟨task, htask, hplace⟩ := h.places i id hid
  exact ⟨task.arranged, by rw [get?_arranged hkeys, htask]; rfl, hplace⟩

end TaskChain

/-- A definition that the engine finds no fault in is accepted as it is read back. -/
theorem Engine.accept_sortFields {T : Type} {e : Engine T} {c : TaskChain} (hkeys : c.tasks.keys.Nodup)
    (hresources : ∀ p ∈ c.tasks, p.2.resource ≠ "") (h : e.problems c.toJson = []) :
    e.accept c.toJson.sortFields = .ok c.arranged := by
  rw [problems, TaskChain.check_toJson hresources] at h
  have hkeys' : c.arranged.tasks.keys.Nodup := c.keys_arranged_perm.nodup_iff.2 hkeys
  have hnone := TaskChain.problems_of_linear hkeys' ((TaskChain.linear_of_problems h).arranged hkeys)
  rw [accept, TaskChain.check_sortFields hresources]
  simp only [hnone, List.isEmpty_nil, if_true]

namespace Graph

variable {g : Graph} {t : Target} {compiled : Compilation}

theorem compile_parameters (hc : g.compile t = .ok compiled) :
    ∀ p ∈ compiled.chain.tasks, (Json.object p.2.parameters).Plain := by
  obtain ⟨-, rest, hwalk, -⟩ := compile_eq_ok hc
  obtain ⟨task, more, htasks, ⟨_, _, hfirst⟩, hmore⟩ := walk_assigned hwalk
  rw [htasks]
  refine List.forall_mem_cons.2 ⟨hfirst.parameters ▸ plain_parameters .., fun p hp => ?_⟩
  obtain ⟨_, _, hassigned⟩ := hmore p hp
  exact hassigned.parameters ▸ plain_parameters ..

end Graph

namespace Builder

/-- A canonical definition that is kept as a blob is read as it was, its fields in order. -/
theorem parseDefinition_canonicalBytes {v : Json} (hv : v.Plain) {bytes : Bytes} (h : v.canonicalBytes = .ok bytes) :
    parseDefinition (.bytes bytes) = .ok v.sortFields := by
  obtain ⟨cs, hdecode, hread⟩ := hv.read_canonicalBytes h
  change ((Text.decodeDocument bytes).mapError Failure.notText >>= fun text =>
    (Json.read text).mapError fun f => Failure.notJson (f.message text)) = _
  rw [hdecode]
  change (Json.read cs).mapError _ = _
  rw [hread]
  rfl

end Builder
end HuntDraw
