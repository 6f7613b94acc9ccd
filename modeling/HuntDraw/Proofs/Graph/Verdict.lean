import HuntDraw.Proofs.Graph.Skipped

/-! Which graphs can be compiled, and what is said of the others. A graph has to have one start and no more than one
end. From the start the flow is followed, and what is wrong at the first place where anything is wrong is what the
graph is refused for. -/

namespace HuntDraw

open Attempt

/-- Tasks of the type have somewhere to run. -/
def Resources.Runs (r : Resources) (type : NodeType) : Prop :=
  ∃ task resource, type = .task task ∧ r.get? task = some resource ∧ resource ≠ ""

theorem Resources.resolve_eq_error {r : Resources} {n : GraphNode} {f : GraphFault} :
    r.resolve n = .error f ↔ ¬r.Runs n.type ∧ .noResource n.id n.type.text = f := by
  have hruns : (∃ resource, r.resolve n = .ok resource) ↔ r.Runs n.type := by
    constructor
    · rintro ⟨resource, hresource⟩
      obtain ⟨task, htype, hget, hfilled⟩ := resolve_eq_ok hresource
      exact ⟨task, resource, htype, hget, hfilled⟩
    · rintro ⟨task, resource, htype, hget, hfilled⟩
      refine ⟨resource, ?_⟩
      simp only [resolve, htype, hget]
      rw [if_neg (by simpa using hfilled)]
  have hfault : ∀ f', r.resolve n = .error f' → .noResource n.id n.type.text = f' := by
    intro f' hf'
    simp only [resolve] at hf'
    split at hf'
    · split_ifs at hf'
      exact Except.error.inj hf'
    · exact Except.error.inj hf'
  rw [← hruns]
  cases hresolve : r.resolve n with
  | ok resource => simp
  | error f' => simp [hfault f' hresolve]

/-- The node, which is not of the null type, has no data to supply: it has no document, or one of a content type that
is not supported. -/
inductive GraphNode.Unfit (n : GraphNode) : GraphFault → Prop
  | noDocument (htype : n.type ≠ .data .null) (hnone : n.document = none) : Unfit n (.noDocument n.id)
  | unsupported {d : DocumentRecord} (htype : n.type ≠ .data .null) (hdocument : n.document = some d)
    (hmime : d.contentType ∉ Worded.texts MimeType) : Unfit n (.unsupportedMime n.id d.contentType)

theorem GraphNode.Unfit.unique {n : GraphNode} {f f' : GraphFault} (h : n.Unfit f) (h' : n.Unfit f') : f = f' := by
  cases h <;> cases h' <;> simp_all

namespace Graph

variable {g : Graph} {t : Target} {n : GraphNode} {nodes : List NodeRecord} {edges : List EdgeRecord}
  {documents : List DocumentRecord} {f f' : GraphFault} {s id next : String} {k : Nat} {first : Bool}
  {left rest : List String} {tasks : Fields Task}

def outflow (g : Graph) (id : String) : List GraphEdge := g.edges.filter fun e => e.kind = .flow ∧ e.source = id

def inflow (g : Graph) (id : String) : List GraphEdge := g.edges.filter fun e => e.kind = .flow ∧ e.target = id

def starts (g : Graph) : List String := g.tasks.filter fun id => g.inflow id = []

def ends (g : Graph) : List String := g.tasks.filter fun id => g.outflow id = []

/-- The node at a place of the way along the flow from a node, as far as it goes. -/
def onward (g : Graph) (s : String) : Nat → Option String
  | 0 => some s
  | k + 1 => (g.onward s k).bind fun id => (g.outflow id).head?.map GraphEdge.target

def UnfitAt (g : Graph) (id : String) (k : Nat) (f : GraphFault) : Prop :=
  ∃ d, (g.overrides id)[k]?.bind g.node? = some d ∧ d.Unfit f

/-- What is wrong with a node in itself: it branches, has nowhere to run, or is fed by a data node that is not fit. -/
inductive Faulty (g : Graph) (t : Target) (n : GraphNode) : GraphFault → Prop
  | parallel (hflow : 1 < (g.outflow n.id).length) : Faulty g t n (.parallel n.id)
  | noResource (hflow : (g.outflow n.id).length ≤ 1) (hruns : ¬t.resources.Runs n.type) :
    Faulty g t n (.noResource n.id n.type.text)
  | unfit {f : GraphFault} (hflow : (g.outflow n.id).length ≤ 1) (hruns : t.resources.Runs n.type)
    (hfirst : First (g.UnfitAt n.id) f) : Faulty g t n f

/-- What is wrong at a place of the way: its node was there before, or is faulty. -/
inductive FailsAt (g : Graph) (t : Target) (s : String) (k : Nat) : GraphFault → Prop
  | cycle {id : String} (hplace : g.onward s k = some id) (hback : ∃ j < k, g.onward s j = some id) :
    FailsAt g t s k (.cycle id)
  | fault {n : GraphNode} {f : GraphFault} (hplace : (g.onward s k).bind g.node? = some n)
    (hnew : ∀ j < k, g.onward s j ≠ g.onward s k) (hfault : g.Faulty t n f) : FailsAt g t s k f

/-- Why a graph is refused. -/
inductive Refused (g : Graph) (t : Target) : GraphFault → Prop
  | manyStarts (h : 1 < g.starts.length) : Refused g t (.manyStarts g.starts)
  | noStart (h : g.starts = []) : Refused g t .noStart
  | manyEnds {s : String} (hstart : g.starts = [s]) (h : 1 < g.ends.length) : Refused g t (.manyEnds g.ends)
  | onTheWay {s : String} {f : GraphFault} (hstart : g.starts = [s]) (hends : g.ends.length ≤ 1)
    (h : First (g.FailsAt t s) f) : Refused g t f

/-- The way from the only start comes to a node that nothing follows, and nothing is wrong up to there. -/
def Passed (g : Graph) (t : Target) : Prop := ∃ s, g.starts = [s] ∧ g.ends.length ≤ 1 ∧
  ∃ k id, g.onward s k = some id ∧ g.outflow id = [] ∧ ∀ j ≤ k, ∀ f, ¬g.FailsAt t s j f

theorem UnfitAt.unique (h : g.UnfitAt id k f) (h' : g.UnfitAt id k f') : f = f' := by
  obtain ⟨d, hd, hf⟩ := h
  obtain ⟨d', hd', hf'⟩ := h'
  obtain rfl := Option.some.inj (hd.symm.trans hd')
  exact hf.unique hf'

theorem Faulty.unique (h : g.Faulty t n f) (h' : g.Faulty t n f') : f = f' := by
  cases h with
  | parallel hflow =>
    cases h' with
    | parallel => rfl
    | noResource hflow' | unfit hflow' => exact absurd hflow (Nat.not_lt.2 hflow')
  | noResource hflow hruns =>
    cases h' with
    | parallel hflow' => exact absurd hflow' (Nat.not_lt.2 hflow)
    | noResource => rfl
    | unfit _ hruns' => exact absurd hruns' hruns
  | unfit hflow hruns hfirst =>
    cases h' with
    | parallel hflow' => exact absurd hflow' (Nat.not_lt.2 hflow)
    | noResource _ hruns' => exact absurd hruns hruns'
    | unfit _ _ hfirst' => exact hfirst.unique (fun h h' => h.unique h') hfirst'

theorem FailsAt.unique (h : g.FailsAt t s k f) (h' : g.FailsAt t s k f') : f = f' := by
  cases h with
  | cycle hplace hback =>
    obtain ⟨j, hj, hback⟩ := hback
    cases h' with
    | cycle hplace' => rw [Option.some.inj (hplace.symm.trans hplace')]
    | fault _ hnew => exact absurd (hback.trans hplace.symm) (hnew j hj)
  | fault hplace hnew hfault =>
    cases h' with
    | cycle hplace' hback =>
      obtain ⟨j, hj, hback⟩ := hback
      exact absurd (hback.trans hplace'.symm) (hnew j hj)
    | fault hplace' _ hfault' =>
      obtain rfl := Option.some.inj (hplace.symm.trans hplace')
      exact hfault.unique hfault'

theorem Refused.unique (h : g.Refused t f) (h' : g.Refused t f') : f = f' := by
  cases h with
  | manyStarts h =>
    cases h' with
    | manyStarts => rfl
    | noStart hnone => simp [hnone] at h
    | manyEnds hstart | onTheWay hstart => simp [hstart] at h
  | noStart h =>
    cases h' with
    | manyStarts hmany => simp [h] at hmany
    | noStart => rfl
    | manyEnds hstart | onTheWay hstart => simp [h] at hstart
  | manyEnds hstart h =>
    cases h' with
    | manyStarts hmany => simp [hstart] at hmany
    | noStart hnone => simp [hstart] at hnone
    | manyEnds => rfl
    | onTheWay _ hends => exact absurd h (Nat.not_lt.2 hends)
  | onTheWay hstart hends h =>
    cases h' with
    | manyStarts hmany => simp [hstart] at hmany
    | noStart hnone => simp [hstart] at hnone
    | manyEnds _ hmany => exact absurd hmany (Nat.not_lt.2 hends)
    | onTheWay hstart' _ h' =>
      obtain rfl : _ = _ := by simpa [hstart] using hstart'
      exact h.unique (fun h h' => h.unique h') h'

theorem onward_eq_none (hplace : g.onward s k = some id) (hlast : g.outflow id = []) {j : Nat} (hj : k < j) :
    g.onward s j = none := by
  induction j, hj using Nat.le_induction with
  | base => rw [onward, hplace, Option.bind_some, hlast]; rfl
  | succ j _ ih => rw [onward, ih]; rfl

theorem Passed.not_refused (h : g.Passed t) : ¬g.Refused t f := by
  obtain ⟨s, hstart, hends, k, id, hplace, hlast, hclear⟩ := h
  intro h
  cases h with
  | manyStarts hmany => simp [hstart] at hmany
  | noStart hnone => simp [hstart] at hnone
  | manyEnds _ hmany => exact absurd hmany (Nat.not_lt.2 hends)
  | onTheWay hstart' _ h =>
    obtain rfl : _ = _ := by simpa [hstart] using hstart'
    obtain ⟨j, hfails, -⟩ := h
    rcases Nat.lt_or_ge k j with hj | hj
    · have hnone := onward_eq_none hplace hlast hj
      cases hfails <;> simp_all
    · exact hclear j hj f hfails

theorem targets_perm (g : Graph) (id : String) :
    (g.targets id).Perm ((g.outflow id).map GraphEdge.target) := by
  have hedges : g.outflow id = (g.edges.filter (·.source = id)).filter (·.kind = .flow) := by
    rw [outflow, List.filter_filter]
    exact List.filter_congr fun e _ => Bool.decide_and ..
  rw [hedges]
  exact ((grouped_perm _ _).filter _).map _

theorem sources_perm (g : Graph) (id : String) :
    (g.sources id).Perm ((g.inflow id).map GraphEdge.source) := by
  have hedges : g.inflow id = (g.edges.filter (·.target = id)).filter (·.kind = .flow) := by
    rw [inflow, List.filter_filter]
    exact List.filter_congr fun e _ => Bool.decide_and ..
  rw [hedges]
  exact ((grouped_perm _ _).filter _).map _

theorem start_eq (g : Graph) : g.start = match g.starts with
    | [] => .error .noStart
    | [s] => if 1 < g.ends.length then .error (.manyEnds g.ends) else .ok s
    | more => .error (.manyStarts more) := by
  have hsources (id : String) : (g.sources id).isEmpty = decide (g.inflow id = []) := by
    rw [(g.sources_perm id).isEmpty_eq, List.isEmpty_map, Bool.eq_iff_iff]
    simp
  have htargets (id : String) : (g.targets id).isEmpty = decide (g.outflow id = []) := by
    rw [(g.targets_perm id).isEmpty_eq, List.isEmpty_map, Bool.eq_iff_iff]
    simp
  simp only [start, hsources, htargets]
  rfl

theorem starts_of_start (h : g.start = .ok s) : g.starts = [s] ∧ g.ends.length ≤ 1 := by
  rw [start_eq] at h
  split at h
  · cases h
  · rename_i s' hstarts
    split_ifs at h with hends
    exact ⟨Except.ok.inj h ▸ hstarts, Nat.not_lt.1 hends⟩
  · cases h

theorem refused_of_start (h : g.start = .error f) : g.Refused t f := by
  rw [start_eq] at h
  split at h
  · rename_i hstarts
    exact Except.error.inj h ▸ .noStart hstarts
  · rename_i s hstarts
    split_ifs at h with hends
    exact Except.error.inj h ▸ .manyEnds hstarts hends
  · rename_i hnone hone
    refine Except.error.inj h ▸ .manyStarts ?_
    rcases hstarts : g.starts with _ | ⟨s, _ | ⟨s', more⟩⟩
    · exact absurd hstarts hnone
    · exact absurd hstarts (hone s)
    · simp

/-- What is wrong with the data node that is found first is what no data are supplied for. -/
theorem suppliedBy_eq_error (huri : ∀ key, ∃ uri, t.address key = .ok uri) {e : CompileFault} :
    suppliedBy t n = .error e ↔ ∃ f, e = .graph f ∧ n.Unfit f := by
  have hmime (d : DocumentRecord) :
      Worded.ofText? (α := MimeType) d.contentType = none ↔ d.contentType ∉ Worded.texts MimeType := by
    simp [Worded.ofText?, Worded.texts]
  constructor
  · intro h
    rw [suppliedBy] at h
    split_ifs at h with htype
    split at h
    · rename_i hnone
      exact ⟨_, (Except.error.inj h).symm, .noDocument htype hnone⟩
    · rename_i d hdocument
      split at h
      · rename_i hnone
        exact ⟨_, (Except.error.inj h).symm, .unsupported htype hdocument ((hmime d).1 hnone)⟩
      · obtain ⟨uri, huri⟩ := huri d.blobKey
        rw [huri] at h
        cases h
  · rintro ⟨f, rfl, hunfit⟩
    cases hunfit with
    | noDocument htype hnone => simp only [suppliedBy, if_neg htype, hnone]
    | @unsupported d htype hdocument hunsupported =>
      simp only [suppliedBy, if_neg htype, hdocument, (hmime d).2 hunsupported]

theorem mem_ids_of_overrides (hclosed : g.Closed) {d : String} (hd : d ∈ g.overrides id) : d ∈ g.ids := by
  obtain ⟨e, he, rfl⟩ := List.mem_map.1 hd
  exact (hclosed e (List.mem_of_mem_filter (mem_grouped.1 (List.mem_of_mem_filter he)))).1

theorem getElem?_filterMap_node? {ids : List String} (hids : ∀ d ∈ ids, d ∈ g.ids) (k : Nat) :
    (ids.filterMap g.node?)[k]? = ids[k]?.bind g.node? := by
  induction ids generalizing k with
  | nil => rfl
  | cons d ids ih =>
    obtain ⟨hd, hids⟩ := List.forall_mem_cons.1 hids
    obtain ⟨n, hn⟩ := exists_node?_of_mem hd
    rw [List.filterMap_cons_some hn]
    cases k with
    | zero => simp [hn]
    | succ k => simpa using ih hids k

theorem supplied_eq_error (hclosed : g.Closed) (huri : ∀ key, ∃ uri, t.address key = .ok uri) {e : CompileFault} :
    g.supplied t id = .error e ↔ ∃ f, e = .graph f ∧ First (g.UnfitAt id) f := by
  rw [supplied, map_eq_error, mapM_eq_error, ← first_map]
  simp only [getElem?_filterMap_node? fun d hd => mem_ids_of_overrides hclosed hd, suppliedBy_eq_error huri, UnfitAt]
  refine iff_of_eq (congrArg (First · e) ?_)
  funext k e'
  exact propext ⟨fun ⟨d, hd, f, he', hf⟩ => ⟨f, he', d, hd, hf⟩, fun ⟨f, he', d, hd, hf⟩ => ⟨d, hd, f, he', hf⟩⟩

/-- Where a node does not branch, there is no task for it if it is faulty, and it is told what is wrong. -/
theorem task_eq_error (hclosed : g.Closed) (huri : ∀ key, ∃ uri, t.address key = .ok uri)
    (hflow : (g.outflow n.id).length ≤ 1) {next : Option String} {e : CompileFault} :
    g.task t first n next = .error e ↔ ∃ f, e = .graph f ∧ g.Faulty t n f := by
  simp only [task, bind_eq_error, mapError_eq_error, mapError_eq_ok, Resources.resolve_eq_error,
    supplied_eq_error hclosed huri]
  constructor
  · rintro (⟨f, ⟨hruns, rfl⟩, rfl⟩ | ⟨resource, hresource, ⟨f, rfl, hfirst⟩ | ⟨_, _, h⟩⟩)
    · exact ⟨_, rfl, .noResource hflow hruns⟩
    · obtain ⟨task, htype, hget, hfilled⟩ := Resources.resolve_eq_ok hresource
      exact ⟨f, rfl, .unfit hflow ⟨task, resource, htype, hget, hfilled⟩ hfirst⟩
    · cases h
  · rintro ⟨f, rfl, hfault⟩
    cases hfault with
    | parallel hmany => exact absurd hmany (Nat.not_lt.2 hflow)
    | noResource _ hruns => exact .inl ⟨_, ⟨hruns, rfl⟩, rfl⟩
    | unfit _ hruns hfirst =>
      cases hresolve : t.resources.resolve n with
      | error f' => exact absurd hruns (Resources.resolve_eq_error.1 hresolve).1
      | ok resource => exact .inr ⟨resource, rfl, .inl ⟨f, rfl, hfirst⟩⟩

/-- A walk from a start has come to a place: nothing is wrong before it, and what is left are the other nodes. -/
structure Came (g : Graph) (t : Target) (s : String) (k : Nat) (left : List String) (id : String) : Prop where
  place : g.onward s k = some id
  known : id ∈ g.ids
  nodup : left.Nodup
  left : ∀ x, x ∈ left ↔ x ∈ g.ids ∧ ∀ j < k, g.onward s j ≠ some x
  clear : ∀ j < k, ∀ f, ¬g.FailsAt t s j f

namespace Came

theorem zero (hids : g.ids.Nodup) (hs : s ∈ g.ids) : g.Came t s 0 g.ids s :=
  ⟨rfl, hs, hids, fun x => by simp, fun j hj => absurd hj j.not_lt_zero⟩

theorem isNew (h : g.Came t s k left id) (hid : id ∈ left) : ∀ j < k, g.onward s j ≠ g.onward s k :=
  h.place ▸ ((h.left id).1 hid).2

theorem failsAt (h : g.Came t s k left id) (hn : g.node? id = some n) (hid : id ∈ left) :
    g.FailsAt t s k f ↔ g.Faulty t n f := by
  constructor
  · intro hfails
    cases hfails with
    | cycle hplace hback =>
      obtain ⟨j, hj, hback⟩ := hback
      exact absurd (hback.trans hplace.symm) (h.isNew hid j hj)
    | fault hplace _ hfault =>
      rw [h.place, Option.bind_some, hn] at hplace
      exact Option.some.inj hplace ▸ hfault
  · intro hfault
    exact .fault (by rw [h.place, Option.bind_some, hn]) (h.isNew hid) hfault

theorem isFirst (h : g.Came t s k left id) (hfails : g.FailsAt t s k f) : First (g.FailsAt t s) f :=
  ⟨k, hfails, h.clear⟩

theorem clear_through (h : g.Came t s k left id) (hclear : ∀ f, ¬g.FailsAt t s k f) :
    ∀ j ≤ k, ∀ f, ¬g.FailsAt t s j f := by
  intro j hj
  rcases hj.lt_or_eq with hj | rfl
  · exact h.clear j hj
  · exact hclear

/-- What the flow leads to is come to next, if nothing is wrong here. -/
theorem step (h : g.Came t s k left id) (hclosed : g.Closed) (htargets : g.targets id = [next])
    (hclear : ∀ f, ¬g.FailsAt t s k f) : g.Came t s (k + 1) (left.erase id) next := by
  have hmap : (g.outflow id).map GraphEdge.target = [next] :=
    List.singleton_perm.1 (htargets ▸ g.targets_perm id) |>.symm
  refine ⟨?_, ?_, h.nodup.erase id, fun x => ?_, fun j hj => ?_⟩
  · rw [onward, h.place, Option.bind_some, ← List.head?_map, hmap]
    rfl
  · obtain ⟨e, he, -, -, rfl⟩ := mem_targets.1 (htargets ▸ List.mem_singleton_self next : next ∈ g.targets id)
    exact (hclosed e he).2
  · rw [h.nodup.mem_erase_iff, h.left]
    constructor
    · rintro ⟨hne, hx, hbefore⟩
      refine ⟨hx, fun j hj => ?_⟩
      rcases Nat.lt_succ_iff_lt_or_eq.1 hj with hj | rfl
      · exact hbefore j hj
      · rw [h.place]
        exact fun heq => hne (Option.some.inj heq).symm
    · rintro ⟨hx, hbefore⟩
      exact ⟨fun heq => hbefore k k.lt_succ_self (heq ▸ h.place), hx, fun j hj => hbefore j (Nat.lt_succ_of_lt hj)⟩
  · exact h.clear_through hclear j (Nat.le_of_lt_succ hj)

/-- Where there is one way on at most, the task of the node decides whether anything is wrong at its place. -/
theorem task_outcome (h : g.Came t s k left n.id) (hclosed : g.Closed)
    (huri : ∀ key, ∃ uri, t.address key = .ok uri) (hn : g.node? n.id = some n) (hmem : n.id ∈ left)
    (hflow : (g.outflow n.id).length ≤ 1) (first : Bool) (next : Option String) :
    (∀ e, g.task t first n next = .error e → ∃ f, e = .graph f ∧ First (g.FailsAt t s) f) ∧
    (∀ task, g.task t first n next = .ok task → ∀ f, ¬g.FailsAt t s k f) := by
  refine ⟨fun e herror => ?_, fun task hok f hf => ?_⟩
  · obtain ⟨f, rfl, hf⟩ := (task_eq_error hclosed huri hflow).1 herror
    exact ⟨f, rfl, h.isFirst ((h.failsAt hn hmem).2 hf)⟩
  · rw [(task_eq_error hclosed huri hflow).2 ⟨f, rfl, (h.failsAt hn hmem).1 hf⟩] at hok
    cases hok

end Came

/-- A walk fails for what is wrong first on the way, and if it does not fail it comes to its end. -/
theorem walk_outcome (hclosed : g.Closed) (huri : ∀ key, ∃ uri, t.address key = .ok uri)
    (hcame : g.Came t s k left id) :
    (∀ e, g.walk t first left id = .error e → ∃ f, e = .graph f ∧ First (g.FailsAt t s) f) ∧
    (∀ r, g.walk t first left id = .ok r →
      ∃ k id, g.onward s k = some id ∧ g.outflow id = [] ∧ ∀ j ≤ k, ∀ f, ¬g.FailsAt t s j f) := by
  fun_induction walk g t first left id generalizing k with
  | case1 first left id hnone =>
    obtain ⟨n, hn⟩ := exists_node?_of_mem hcame.known
    cases hnone.symm.trans hn
  | case2 first left id n hn hmem htargets =>
    obtain rfl := (mem_of_node? hn).2
    have hlast : g.outflow n.id = [] :=
      List.map_eq_nil_iff.1 (List.nil_perm.1 (htargets ▸ g.targets_perm n.id))
    obtain ⟨herror, hok⟩ := hcame.task_outcome hclosed huri hn hmem (by simp [hlast]) first none
    refine ⟨fun e h => ?_, fun r h => ?_⟩
    · rcases bind_eq_error.1 h with h | ⟨_, _, h⟩
      · exact herror e h
      · cases h
    · obtain ⟨task, h, -⟩ := bind_eq_ok.1 h
      exact ⟨k, n.id, hcame.place, hlast, hcame.clear_through (hok task h)⟩
  | case3 first left id n hn hmem next htargets ih =>
    obtain rfl := (mem_of_node? hn).2
    have hflow : (g.outflow n.id).length = 1 := by
      simpa [htargets] using (g.targets_perm n.id).length_eq.symm
    obtain ⟨herror, hok⟩ := hcame.task_outcome hclosed huri hn hmem hflow.le first (some next)
    refine ⟨fun e h => ?_, fun r h => ?_⟩
    · rcases bind_eq_error.1 h with h | ⟨task, h, hrest⟩
      · exact herror e h
      · rcases bind_eq_error.1 hrest with hrest | ⟨_, _, hrest⟩
        · exact (ih (hcame.step hclosed htargets (hok task h))).1 e hrest
        · cases hrest
    · obtain ⟨task, h, hrest⟩ := bind_eq_ok.1 h
      obtain ⟨more, hmore, -⟩ := bind_eq_ok.1 hrest
      exact (ih (hcame.step hclosed htargets (hok task h))).2 more hmore
  | case4 first left id n hn hmem hnil hone =>
    obtain rfl := (mem_of_node? hn).2
    have hmany : 1 < (g.outflow n.id).length := by
      have hlength := (g.targets_perm n.id).length_eq
      rw [List.length_map] at hlength
      rw [← hlength]
      rcases htargets : g.targets n.id with _ | ⟨a, _ | ⟨b, more⟩⟩
      · exact absurd htargets hnil
      · exact absurd htargets (hone a)
      · simp
    refine ⟨fun e h => ?_, fun r h => ?_⟩
    · exact ⟨_, (Except.error.inj h).symm, hcame.isFirst ((hcame.failsAt hn hmem).2 (.parallel hmany))⟩
    · cases h
  | case5 first left id n hn hmem =>
    have hback : ∃ j < k, g.onward s j = some id := by
      by_contra hnew
      exact hmem ((hcame.left id).2 ⟨hcame.known, fun j hj heq => hnew ⟨j, hj, heq⟩⟩)
    refine ⟨fun e h => ?_, fun r h => ?_⟩
    · exact ⟨_, (Except.error.inj h).symm, hcame.isFirst (.cycle hcame.place hback)⟩
    · cases h

/-- The flow edges that leave a node are told apart by their ids, or by where they lead to. -/
theorem nodup_outflow (hg : ofRecords nodes edges documents = .ok g) (id : String) :
    ((g.outflow id).map fun e => (e.id, e.target)).Nodup := by
  have hkeys : ((g.outflow id).map GraphEdge.key).Nodup :=
    (distinct_ofRecords hg).sublist (List.filter_sublist.map _)
  have hmap : (g.outflow id).map GraphEdge.key =
      ((g.outflow id).map fun e => (e.id, e.target)).map fun p => (p.1, id, p.2) := by
    rw [List.map_map]
    refine List.map_congr_left fun e he => ?_
    have hsource : e.source = id := (of_decide_eq_true (List.mem_filter.1 he).2).2
    rw [GraphEdge.key, hsource]
    rfl
  exact .of_map _ (hmap ▸ hkeys)

/-- Stored records are refused to be compiled for what is wrong with the ends of the flow, or first on the way along it,
and for nothing else. They are compiled exactly if that way comes to its end with nothing wrong. -/
theorem compile_verdict (hg : ofRecords nodes edges documents = .ok g)
    (huri : ∀ key, ∃ uri, t.address key = .ok uri) :
    (∀ id, ((g.outflow id).map fun e => (e.id, e.target)).Nodup) ∧
    (∀ e, g.compile t = .error e ↔ ∃ f, e = .graph f ∧ g.Refused t f) ∧
    ((∃ c, g.compile t = .ok c) ↔ g.Passed t) := by
  have hclosed : g.Closed := closed_ofRecords hg
  have hcame {s : String} (hstarts : g.starts = [s]) : g.Came t s 0 g.ids s := by
    refine .zero (nodup_ofRecords hg) ?_
    have hs : s ∈ g.tasks := List.mem_of_mem_filter (hstarts ▸ List.mem_singleton_self s)
    exact (List.filter_sublist.map GraphNode.id).mem hs
  have hrefused : ∀ e, g.compile t = .error e → ∃ f, e = .graph f ∧ g.Refused t f := by
    intro e h
    rw [compile] at h
    rcases bind_eq_error.1 h with h | ⟨s, hs, h⟩
    · obtain ⟨f, hf, rfl⟩ := mapError_eq_error.1 h
      exact ⟨f, rfl, refused_of_start hf⟩
    · obtain ⟨hstarts, hends⟩ := starts_of_start (mapError_eq_ok.1 hs)
      rcases bind_eq_error.1 h with h | ⟨_, _, h⟩
      · obtain ⟨f, rfl, hf⟩ := (walk_outcome hclosed huri (hcame hstarts)).1 e h
        exact ⟨f, rfl, .onTheWay hstarts hends hf⟩
      · cases h
  have hpassed : ∀ c, g.compile t = .ok c → g.Passed t := by
    intro c h
    obtain ⟨hs, rest, hwalk, -⟩ := compile_eq_ok h
    obtain ⟨hstarts, hends⟩ := starts_of_start hs
    exact ⟨_, hstarts, hends, (walk_outcome hclosed huri (hcame hstarts)).2 _ hwalk⟩
  refine ⟨nodup_outflow hg, fun e => ⟨hrefused e, ?_⟩, fun hc => hc.elim hpassed, fun h => ?_⟩
  · rintro ⟨f, rfl, hf⟩
    cases hc : g.compile t with
    | ok c => exact absurd hf (hpassed c hc).not_refused
    | error e =>
      obtain ⟨f', rfl, hf'⟩ := hrefused e hc
      rw [hf.unique hf']
  · cases hc : g.compile t with
    | ok c => exact ⟨c, rfl⟩
    | error e =>
      obtain ⟨f, -, hf⟩ := hrefused e hc
      exact absurd hf h.not_refused

/-- The second node of a ring is fed by a data node without a document. -/
def starvedRecords : List NodeRecord :=
  [noopRecord "a", noopRecord "b", noopRecord "c", ⟨"data", "I", "WorkflowDrawDataNode", none⟩]

def starvedEdges : List EdgeRecord :=
  [⟨"E1", "I", "a", "b"⟩, ⟨"E2", "I", "b", "c"⟩, ⟨"E3", "I", "c", "b"⟩, ⟨"E4", "I", "data", "c"⟩]

def starvedGraph : Graph :=
  { nodes := [⟨"a", .task .noop, none⟩, ⟨"b", .task .noop, none⟩, ⟨"c", .task .noop, none⟩,
      ⟨"data", .data .huntCodes, none⟩]
    edges := [⟨"E1", "a", "b", .flow⟩, ⟨"E2", "b", "c", .flow⟩, ⟨"E3", "c", "b", .flow⟩,
      ⟨"E4", "data", "c", .override⟩] }

/-- The data node is come upon before the way is back at the first node of the ring. -/
theorem compile_verdict_starved : ofRecords starvedRecords starvedEdges [] = .ok starvedGraph ∧
    (∀ key, ∃ uri, noopTarget.address key = .ok uri) ∧ starvedGraph.Refused noopTarget (.noDocument "data") ∧
    ¬starvedGraph.Passed noopTarget ∧ ringGraph.Passed noopTarget := by
  have hg : ofRecords starvedRecords starvedEdges [] = .ok starvedGraph := by decide +kernel
  have hring : ofRecords ringRecords ringEdges [] = .ok ringGraph := by decide +kernel
  have huri : ∀ key, ∃ uri, noopTarget.address key = .ok uri := fun key => ⟨key, rfl⟩
  obtain ⟨-, herror, hok⟩ := compile_verdict hg huri
  have hfails : (fun _ => ()) <$> starvedGraph.compile noopTarget = .error (.graph (.noDocument "data")) := by
    decide +kernel
  obtain ⟨f, hf, hrefused⟩ := (herror _).1 (map_eq_error.1 hfails)
  obtain rfl := CompileFault.graph.inj hf
  have hout : (fun c : Compilation => c.skipped) <$> ringGraph.compile noopTarget = .ok ["c", "d"] := by
    decide +kernel
  obtain ⟨c, hc, -⟩ := map_eq_ok.1 hout
  exact ⟨hg, huri, hrefused, fun h => h.not_refused hrefused, (compile_verdict hring huri).2.2.1 ⟨c, hc⟩⟩

end Graph
end HuntDraw
