import HuntDraw.Node.Handler
import HuntDraw.Proofs.Engine.Linear
import HuntDraw.Proofs.Graph.Walk
import HuntDraw.Proofs.Schema.Checked

/-! Whatever is compiled is accepted. A chain whose tasks have resources is read back as it was written, and one
that the compiler made runs along one path of the graph, in which the engine finds no fault. -/

namespace HuntDraw

open Attempt Checked

variable {fs : Fields Json} {task : Task} {c : TaskChain} {id : String}

theorem Check.entries_any (fs : Fields Json) : Check.entries Check.text Check.any fs = .valid fs := by
  induction fs with
  | nil => rfl
  | cons e fs ih =>
    rw [Check.entries, ih]
    rfl

theorem Task.check_toJson (h : task.resource ≠ "") : Task.check task.toJson = .valid task := by
  have hresource : Check.filledText (.text task.resource) = .valid task.resource := by
    have hfilled : task.resource.isEmpty = false := by simpa using h
    simp only [Check.filledText, Check.text, andThen, hfilled]
    rfl
  have hparameters : Check.mapping Check.text Check.any (.object task.parameters) = .valid task.parameters :=
    Check.entries_any _
  have hnext : Check.nullable Check.text (Json.ofText? task.next) = .valid task.next := by
    cases task.next <;> rfl
  change Task.mk <$> (Check.filledText (.text task.resource)).within "resource_ref"
    <*> (Checked.valid task.comment).within "comment"
    <*> (Check.mapping Check.text Check.any (.object task.parameters)).within "parameters"
    <*> (Check.nullable Check.text (Json.ofText? task.next)).within "next"
    <*> (Checked.valid task.terminal).within "terminal" = .valid task
  rw [hresource, hparameters, hnext]
  rfl

/-- A chain whose tasks have resources is read back as it was written. -/
theorem TaskChain.check_toJson (h : ∀ e ∈ c.tasks, e.2.resource ≠ "") : TaskChain.check c.toJson = .valid c := by
  have hentries : ∀ tasks : Fields Task, (∀ e ∈ tasks, e.2.resource ≠ "") →
      Check.entries Check.text Task.check (tasks.map fun p => (p.1, p.2.toJson)) = .valid tasks := by
    intro tasks htasks
    induction tasks with
    | nil => rfl
    | cons e tasks ih =>
      obtain ⟨he, hrest⟩ := List.forall_mem_cons.1 htasks
      rw [List.map_cons, Check.entries, ih hrest, Task.check_toJson he]
      rfl
  have htasks : Check.mapping Check.text Task.check (.object (c.tasks.map fun p => (p.1, p.2.toJson))) =
      .valid c.tasks := hentries c.tasks h
  change TaskChain.mk <$> (Checked.valid c.start).within "start_node_id"
    <*> (Check.mapping Check.text Task.check (.object (c.tasks.map fun p => (p.1, p.2.toJson)))).within "tasks" =
      .valid c
  rw [htasks]
  rfl

namespace Graph

variable {g : Graph} {t : Target} {r : Resources} {tasks : Fields Task} {left : List String}
  {compiled : Compilation} {nodes : List NodeRecord} {edges : List EdgeRecord} {documents : List DocumentRecord}

theorem Traced.ordered_eq (h : Traced g r c.tasks) (hstart : ∃ task more, c.tasks = (c.start, task) :: more)
    (hnodup : c.tasks.keys.Nodup) : c.ordered = c.tasks.keys := by
  obtain ⟨task₀, more, htasks⟩ := hstart
  have hhead : c.tasks.keys.head? = some c.start := by
    rw [htasks]
    rfl
  rw [TaskChain.ordered, ← hhead]
  refine TaskChain.follow_eq (fun i id hid => ?_) hnodup fun k hk => hk
  obtain ⟨task, hmem, hnext, -⟩ := h.places hid
  exact ⟨task, (Fields.get?_eq_some hnodup).2 hmem, hnext⟩

/-- A chain that runs in a row from its start is in one line, where its resources are known. -/
theorem Traced.linear (h : Traced g r c.tasks) (hstart : ∃ task more, c.tasks = (c.start, task) :: more)
    (hnodup : c.tasks.keys.Nodup) {resources : List String} (hresources : ∀ s, r.Given s → s ∈ resources) :
    c.Linear resources := by
  have hordered := h.ordered_eq hstart hnodup
  obtain ⟨task₀, more, htasks⟩ := hstart
  have hhead : c.tasks.keys.head? = some c.start := by
    rw [htasks]
    rfl
  refine ⟨hordered ▸ .refl _, hordered ▸ hnodup, hordered ▸ hhead, fun i id hid => ?_⟩
  rw [hordered] at hid ⊢
  obtain ⟨task, hmem, hnext, hterminal, -⟩ := h.places hid
  exact ⟨task, (Fields.get?_eq_some hnodup).2 hmem, hnext, hterminal, hresources _ (h.given hmem)⟩

/-- The tasks of a chain are the nodes of one path through the graph, from a node that no flow leads to up to one
that no flow leaves. -/
structure Path (g : Graph) (c : TaskChain) (path : List String) : Prop where
  distinct : path.Nodup
  tasks : c.tasks.keys = path
  start : path.head? = some c.start
  source : g.sources c.start = []
  places : ∀ i n, path[i]? = some n → ∃ task, c.tasks.get? n = some task ∧ task.next = path[i + 1]? ∧
    (task.terminal ↔ i + 1 = path.length) ∧ g.targets n = path[i + 1]?.toList

variable {T : Type} {e : Engine T} {draw : DrawSettings}

/-- The handlers of resources are there under all the resources that are given to tasks. -/
theorem mem_handlers (h : r.handlers draw = .ok e.handlers) {resource : String} (hgiven : r.Given resource) :
    resource ∈ e.handlers.keys := by
  rw [Resources.handlers] at h
  split at h
  · exact nomatch h
  · rw [← Except.ok.inj h, Fields.keys, List.map_map]
    exact hgiven.2

/-- What is compiled from stored records is one path through the graph, and an engine with the handlers of the same
resources accepts it as it is. -/
theorem compile_accepted [Timeline T] (hg : ofRecords nodes edges documents = .ok g)
    (hhandlers : t.resources.handlers draw = .ok e.handlers) (hc : g.compile t = .ok compiled) :
    (∃ path, g.Path compiled.chain path) ∧ e.problems compiled.chain.toJson = [] ∧
      e.accept compiled.chain.toJson = .ok compiled.chain := by
  obtain ⟨hsource, hstart, htraced, hnodup⟩ := compile_traced (nodup_ofRecords hg) hc
  have hread : TaskChain.check compiled.chain.toJson = .valid compiled.chain :=
    TaskChain.check_toJson fun e he => (htraced.given he).1
  have hnone : compiled.chain.problems e.handlers.keys = [] :=
    TaskChain.problems_of_linear hnodup (htraced.linear hstart hnodup fun _ hgiven => mem_handlers hhandlers hgiven)
  refine ⟨⟨compiled.chain.tasks.keys, hnodup, rfl, ?_, hsource, fun i n hn => ?_⟩, ?_, ?_⟩
  · obtain ⟨task, more, htasks⟩ := hstart
    rw [htasks]
    rfl
  · obtain ⟨task, hmem, hplace⟩ := htraced.places hn
    exact ⟨task, (Fields.get?_eq_some hnodup).2 hmem, hplace⟩
  · rw [Engine.problems, hread]
    exact hnone
  · rw [Engine.accept, hread]
    simp only [hnone, List.isEmpty_nil, if_true]

def drawRecord : NodeRecord := ⟨"draw", "I", "WorkflowDrawNode", none⟩

def exportRecord : NodeRecord := ⟨"export", "I", "WorkflowExportNode", none⟩

def flowRecord : EdgeRecord := ⟨"E", "I", "draw", "export"⟩

def exportGraph : Graph :=
  { nodes := [⟨"draw", .task .draw, none⟩, ⟨"export", .task .export, none⟩]
    edges := [⟨"E", "draw", "export", .flow⟩] }

def localTarget : Target := ⟨"org", .local, .ok⟩

theorem compile_accepted_export : ofRecords [drawRecord, exportRecord] [flowRecord] [] = .ok exportGraph ∧
    ∃ (e : Engine Binary64) (compiled : Compilation), localTarget.resources.handlers {} = .ok e.handlers ∧
      exportGraph.compile localTarget = .ok compiled ∧ exportGraph.Path compiled.chain ["draw", "export"] ∧
      e.problems compiled.chain.toJson = [] := by
  have hg : ofRecords [drawRecord, exportRecord] [flowRecord] [] = .ok exportGraph := by decide +kernel
  obtain ⟨handlers, hhandlers⟩ : ∃ handlers : Fields (Handler Binary64),
      localTarget.resources.handlers {} = .ok handlers := ⟨_, rfl⟩
  have hkeys : (fun c : Compilation => c.chain.tasks.keys) <$> exportGraph.compile localTarget =
      .ok ["draw", "export"] := by decide +kernel
  obtain ⟨compiled, hc, htasks⟩ := map_eq_ok.1 hkeys
  obtain ⟨⟨path, hpath⟩, hproblems, -⟩ :=
    compile_accepted (e := ⟨handlers, .zero false⟩) hg hhandlers hc
  obtain rfl : ["draw", "export"] = path := htasks.symm.trans hpath.tasks
  exact ⟨hg, _, compiled, hhandlers, hc, hpath, hproblems⟩

end Graph
end HuntDraw
