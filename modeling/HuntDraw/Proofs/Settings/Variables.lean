import HuntDraw.Proofs.Text.Blank
import HuntDraw.Settings.Variables
import Mathlib.Data.List.Basic
import Mathlib.Data.List.Forall2

/-! References to variables, read once from left to right. A text has one decomposition into references and characters at
which no reference starts, each reference gives way to what its variable makes of it, and nothing else in a tree of
settings changes. -/

namespace HuntDraw

namespace Segment

variable {cs rest name : List Char} {c : Char} {s : Segment} {segments : List Segment}

/-- A reference as it has to be written: a name of letters, digits and underscores that does not start with a digit, and
perhaps a default without a closing brace. -/
def IsReference : Segment → Prop
  | .char _ => False
  | .reference name absent => (∃ c rest, name = c :: rest ∧ startsName c ∧ ∀ d ∈ rest, continuesName d) ∧
      ∀ d ∈ absent, '\x7d' ∉ d

theorem IsReference.dollar_mem (h : s.IsReference) : '$' ∈ s.written := by
  cases s with
  | char c => exact h.elim
  | reference name absent => cases absent <;> exact List.mem_cons_self

def Free (cs : List Char) : Prop := ∀ (s : Segment) (rest : List Char), s.IsReference → cs ≠ s.written ++ rest

/-- A text is read from left to right: a reference where one starts, and one character anywhere else. -/
inductive Parts : List Char → List Segment → Prop
  | nil : Parts [] []
  | reference {s : Segment} {rest : List Char} {segments : List Segment} (hs : s.IsReference)
      (hrest : Parts rest segments) : Parts (s.written ++ rest) (s :: segments)
  | char {c : Char} {rest : List Char} {segments : List Segment} (hfree : Free (c :: rest))
      (hrest : Parts rest segments) : Parts (c :: rest) (.char c :: segments)

theorem continuesName_of_startsName (h : startsName c) : continuesName c := by
  simp only [startsName, continuesName, Char.isAlphanum, Bool.or_eq_true, decide_eq_true_eq] at h ⊢
  tauto

theorem isName_iff : isName cs ↔ ∃ c rest, cs = c :: rest ∧ startsName c ∧ ∀ d ∈ rest, continuesName d := by
  cases cs with
  | nil => simp [isName]
  | cons c rest =>
    have hstart : startsName c → continuesName c := continuesName_of_startsName
    simp only [isName, List.head?_cons, Option.any_some, List.all_cons, Bool.and_eq_true, List.all_eq_true,
      List.cons.injEq]
    constructor
    · rintro ⟨hc, -, hrest⟩
      exact ⟨c, rest, ⟨rfl, rfl⟩, hc, hrest⟩
    · rintro ⟨_, _, ⟨rfl, rfl⟩, hc, hrest⟩
      exact ⟨hc, hstart hc, hrest⟩

/-- What a reference is written as is read as this reference, whatever follows. -/
theorem reference?_written (h : s.IsReference) (rest : List Char) : reference? (s.written ++ rest) = some (s, rest) := by
  cases s with
  | char c => exact h.elim
  | reference name absent =>
    obtain ⟨hname, habsent⟩ := h
    rw [← isName_iff] at hname
    have hall : ∀ d ∈ name, continuesName d := List.all_eq_true.1 (Bool.and_eq_true_iff.1 hname).2
    cases absent with
    | none =>
      obtain ⟨htake, hdrop⟩ := Text.scan_append hall (c := '\x7d') (by decide) rest
      simp [written, reference?, htake, hdrop, hname]
    | some absent =>
      have hbrace : ∀ d ∈ absent, decide (d ≠ '\x7d') = true := fun d hd =>
        decide_eq_true fun heq => habsent absent rfl (heq ▸ hd)
      obtain ⟨htake, hdrop⟩ := Text.scan_append hall (c := ':') (by decide) ('-' :: (absent ++ '\x7d' :: rest))
      obtain ⟨hdefault, hafter⟩ := Text.scan_append hbrace (c := '\x7d') (by decide) rest
      simp only [written, reference?, List.cons_append, List.append_assoc, List.nil_append, htake, hdrop, hname,
        hdefault, hafter, Bool.not_true, Bool.false_eq_true, if_false]

theorem eq_written_of_reference? (h : reference? cs = some (s, rest)) : s.IsReference ∧ cs = s.written ++ rest := by
  unfold reference? at h
  split at h
  · rename_i body
    simp only at h
    split_ifs at h with hname
    rw [Bool.not_eq_true', Bool.not_eq_false, isName_iff] at hname
    generalize hscanned : body.takeWhile continuesName = name at h hname
    split at h
    · rename_i after hbehind
      obtain ⟨rfl, rfl⟩ := Prod.mk.inj (Option.some.inj h)
      have hbody := (Text.eq_scan_append hbehind).1
      rw [hscanned] at hbody
      exact ⟨⟨hname, nofun⟩, by simp [written, hbody]⟩
    · rename_i more hbehind
      split at h
      · exact nomatch h
      · rename_i e after hclosed
        obtain ⟨rfl, rfl⟩ := Prod.mk.inj (Option.some.inj h)
        have hbody := (Text.eq_scan_append hbehind).1
        rw [hscanned] at hbody
        obtain ⟨hmore, hbrace⟩ := Text.eq_scan_append hclosed
        obtain rfl : e = '\x7d' := by simpa using hbrace
        have habsent : '\x7d' ∉ more.takeWhile (· ≠ '\x7d') := fun hmem => by simpa using List.mem_takeWhile_imp hmem
        refine ⟨⟨hname, fun d hd => Option.some.inj hd ▸ habsent⟩, ?_⟩
        rw [hbody, written]
        simpa using hmore
    · exact nomatch h
  · exact nomatch h

theorem reference?_eq_none : reference? cs = none ↔ Free cs := by
  constructor
  · rintro h s rest hs rfl
    exact nomatch h.symm.trans (reference?_written hs rest)
  · intro h
    rw [Option.eq_none_iff_forall_ne_some]
    rintro ⟨s, rest⟩ hread
    obtain ⟨hs, hcs⟩ := eq_written_of_reference? hread
    exact h s rest hs hcs

theorem read_nil : read [] = [] := by
  rw [read]
  split
  · rename_i hread
    cases hread
  · rfl

theorem read_of_reference? (h : reference? cs = some (s, rest)) : read cs = s :: read rest := by
  rw [read]
  split
  · rename_i hread
    obtain ⟨rfl, rfl⟩ := Prod.mk.inj (Option.some.inj (hread.symm.trans h))
    rfl
  · rename_i hread
    cases hread.symm.trans h

theorem read_of_free (h : Free (c :: rest)) : read (c :: rest) = .char c :: read rest := by
  have hread := reference?_eq_none.2 h
  rw [read]
  split
  · rename_i hsome
    cases hsome.symm.trans hread
  · rfl

theorem parts_read (cs : List Char) : Parts cs (read cs) := by
  induction cs using read.induct with
  | case1 cs s rest hread _ ih =>
    obtain ⟨hs, rfl⟩ := eq_written_of_reference? hread
    rw [read_of_reference? hread]
    exact .reference hs ih
  | case2 => rw [read_nil]; exact .nil
  | case3 c rest hread ih =>
    have hfree := reference?_eq_none.1 hread
    rw [read_of_free hfree]
    exact .char hfree ih

/-- A text is read in one way. -/
theorem parts_iff : Parts cs segments ↔ read cs = segments := by
  refine ⟨fun h => ?_, fun h => h ▸ parts_read cs⟩
  induction h with
  | nil => exact read_nil
  | reference hs _ ih => rw [read_of_reference? (reference?_written hs _), ih]
  | char hfree _ ih => rw [read_of_free hfree, ih]

/-- What takes the place of a piece. A variable that is set gives its value, even an empty one. -/
inductive Replaces (env : Environment) : Segment → List Char → Prop
  | char (c : Char) : Replaces env (.char c) [c]
  | value {name : List Char} {absent : Option (List Char)} {v : String}
      (hset : env.get? (String.ofList name) = some v) : Replaces env (.reference name absent) v.toList
  | default {name absent : List Char} (hunset : env.get? (String.ofList name) = none) :
      Replaces env (.reference name (some absent)) absent
  | kept {name : List Char} (hunset : env.get? (String.ofList name) = none) :
      Replaces env (.reference name none) (written (.reference name none))

theorem replaces_iff {env : Environment} : Replaces env s cs ↔ s.value env = cs := by
  constructor
  · intro h
    cases h with
    | char c => rfl
    | value hset => simp [value, hset]
    | default hunset => simp [value, hunset]
    | kept hunset => simp [value, hunset]
  · rintro rfl
    cases s with
    | char c => exact .char c
    | reference name absent =>
      cases hv : env.get? (String.ofList name) with
      | some v => simpa [value, hv] using Replaces.value hv
      | none =>
        cases absent with
        | none => simpa [value, hv] using Replaces.kept hv
        | some absent => simpa [value, hv] using Replaces.default hv

theorem Parts.value_eq (h : Parts cs segments) (env : Environment)
    (hnone : ∀ (before : List Char) (r : Segment) (after : List Char), r.IsReference →
      cs ≠ before ++ r.written ++ after) : segments.flatMap (value env) = cs := by
  induction h with
  | nil => rfl
  | @reference s rest _ hs _ _ => exact absurd rfl (hnone [] s rest hs)
  | @char c rest _ _ _ ih =>
    have hrest := ih fun before r after hr heq => hnone (c :: before) r after hr (congrArg (c :: ·) heq)
    rw [List.flatMap_cons, hrest, value, List.singleton_append]

end Segment

namespace Environment

open Segment

variable {env : Environment} {s t : String} {v w : Json}

/-- A text becomes another when its pieces, in their order, give way to what replaces them. -/
def Expands (env : Environment) (s t : String) : Prop := ∃ segments pieces,
  Parts s.toList segments ∧ List.Forall₂ (Replaces env) segments pieces ∧ t.toList = pieces.flatten

/-- A tree becomes another of its shape. Only its texts differ, and its keys are no texts of it. -/
inductive Expansion (env : Environment) : Json → Json → Prop
  | text {s t : String} (h : env.Expands s t) : Expansion env (.text s) (.text t)
  | list {items items' : List Json} (h : List.Forall₂ (Expansion env) items items') :
      Expansion env (.list items) (.list items')
  | object {fields fields' : Fields Json} (hkeys : fields.keys = fields'.keys)
      (h : List.Forall₂ (Expansion env) (fields.map (·.2)) (fields'.map (·.2))) :
      Expansion env (.object fields) (.object fields')
  | null : Expansion env .null .null
  | bool (b : Bool) : Expansion env (.bool b) (.bool b)
  | int (i : Int) : Expansion env (.int i) (.int i)
  | float (x : Binary64) : Expansion env (.float x) (.float x)

theorem expands_iff : env.Expands s t ↔ env.expandText s = t := by
  have hreplaces : Replaces env = fun s cs => s.value env = cs := by
    funext s cs
    exact propext replaces_iff
  have hpieces (segments : List Segment) (pieces : List (List Char)) :
      List.Forall₂ (Replaces env) segments pieces ↔ segments.map (Segment.value env) = pieces := by
    rw [hreplaces, ← List.forall₂_map_left_iff (R := (· = ·)), List.forall₂_eq_eq_eq]
  simp only [Expands, parts_iff, hpieces, expandText, expandChars, List.flatMap]
  constructor
  · rintro ⟨_, _, rfl, rfl, ht⟩
    rw [← ht, String.ofList_toList]
  · rintro rfl
    exact ⟨_, _, rfl, rfl, String.toList_ofList⟩

theorem expandFields_eq (fields : List (String × Json)) :
    env.expandFields fields = fields.map fun p => (p.1, env.expand p.2) := by
  induction fields with
  | nil => rfl
  | cons p fields ih => rw [expandFields, List.map_cons, ih]

theorem keys_expandFields (fields : Fields Json) : Fields.keys (env.expandFields fields) = fields.keys := by
  simp [expandFields_eq, Fields.keys]

mutual

theorem expansion_expand : ∀ v : Json, Expansion env v (env.expand v)
  | .text _ => .text (expands_iff.2 rfl)
  | .list items => .list (expansion_items items)
  | .object fields => .object (keys_expandFields fields).symm (expansion_fields fields)
  | .null => .null
  | .bool _ => .bool _
  | .int _ => .int _
  | .float _ => .float _

theorem expansion_items : ∀ items : List Json, List.Forall₂ (Expansion env) items (env.expandItems items)
  | [] => .nil
  | v :: rest => .cons (expansion_expand v) (expansion_items rest)

theorem expansion_fields : ∀ fields : Fields Json,
    List.Forall₂ (Expansion env) (fields.map (·.2)) ((env.expandFields fields).map (·.2))
  | [] => .nil
  | (_, v) :: rest => .cons (expansion_expand v) (expansion_fields rest)

end

mutual

theorem expand_of_expansion : ∀ {v w : Json}, Expansion env v w → env.expand v = w
  | .text _, _, .text h => congrArg Json.text (expands_iff.1 h)
  | .list _, _, .list h => congrArg Json.list (items_of_expansion h)
  | .object _, _, .object hkeys h => congrArg Json.object (fields_of_expansion hkeys h)
  | .null, _, .null => rfl
  | .bool _, _, .bool _ => rfl
  | .int _, _, .int _ => rfl
  | .float _, _, .float _ => rfl

theorem items_of_expansion : ∀ {items items' : List Json},
    List.Forall₂ (Expansion env) items items' → env.expandItems items = items'
  | [], _, .nil => rfl
  | _ :: _, _, .cons h hrest => congrArg₂ List.cons (expand_of_expansion h) (items_of_expansion hrest)

theorem fields_of_expansion : ∀ {fields fields' : Fields Json}, fields.keys = fields'.keys →
    List.Forall₂ (Expansion env) (fields.map (·.2)) (fields'.map (·.2)) → env.expandFields fields = fields'
  | [], [], _, _ => rfl
  | (_, _) :: _, (_, _) :: _, hkeys, .cons h hrest =>
    congrArg₂ List.cons (Prod.ext (List.cons.inj hkeys).1 (expand_of_expansion h))
      (fields_of_expansion (List.cons.inj hkeys).2 hrest)

end

/-- The references in a tree of settings are replaced in one pass over each of its texts: what takes the place of a
reference is not read again, whatever is no reference stays, and a text without one stays whole. -/
theorem expand_reads (env : Environment) :
    (∀ v w : Json, env.expand v = w ↔ Expansion env v w) ∧
      ∀ s : String, (∀ (before : List Char) (r : Segment) (after : List Char), r.IsReference →
        s.toList ≠ before ++ r.written ++ after) → env.expand (.text s) = .text s := by
  refine ⟨fun v w => ⟨fun h => h ▸ expansion_expand v, expand_of_expansion⟩, fun s hnone => ?_⟩
  rw [expand, expandText, expandChars, (parts_read s.toList).value_eq env hnone, String.ofList_toList]

/-- A default ends at the first brace, and neither a default nor a value is read again. -/
theorem expand_reads_once :
    let env : Environment := [("A", "$\x7bB\x7d"), ("B", "b"), ("N", "")]
    let settings : Json := .object [("$\x7bA\x7d", .text "$\x7bA\x7d$\x7bN:-n\x7d"),
      ("list", .list [.text "$\x7bR:-$\x7bB\x7d\x7d", .text "$\x7bR\x7d", .int 5])]
    let expanded : Json := .object [("$\x7bA\x7d", .text "$\x7bB\x7d"),
      ("list", .list [.text "$\x7bB\x7d", .text "$\x7bR\x7d", .int 5])]
    Expansion env settings expanded ∧
      (∀ (before : List Char) (r : Segment) (after : List Char), r.IsReference →
        "5 or \x7bB\x7d".toList ≠ before ++ r.written ++ after) ∧
      env.expand (.text "5 or \x7bB\x7d") = .text "5 or \x7bB\x7d" := by
  intro env settings expanded
  have hnone : ∀ (before : List Char) (r : Segment) (after : List Char), r.IsReference →
      "5 or \x7bB\x7d".toList ≠ before ++ r.written ++ after := by
    intro before r after hr heq
    have hdollar : '$' ∈ before ++ r.written ++ after := by simp [hr.dollar_mem]
    rw [← heq] at hdollar
    exact absurd hdollar (by decide)
  refine ⟨((expand_reads env).1 settings expanded).1 ?_, hnone, (expand_reads env).2 _ hnone⟩
  have hset : read "$\x7bA\x7d$\x7bN:-n\x7d".toList = [.reference ['A'] none, .reference ['N'] (some ['n'])] := by
    have hfirst : reference? "$\x7bA\x7d$\x7bN:-n\x7d".toList =
      some (.reference ['A'] none, "$\x7bN:-n\x7d".toList) := by decide
    have hsecond : reference? "$\x7bN:-n\x7d".toList = some (.reference ['N'] (some ['n']), []) := by decide
    rw [read_of_reference? hfirst, read_of_reference? hsecond, read_nil]
  have hunset : read "$\x7bR:-$\x7bB\x7d\x7d".toList = [.reference ['R'] (some "$\x7bB".toList), .char '\x7d'] := by
    have hdefault : reference? "$\x7bR:-$\x7bB\x7d\x7d".toList =
      some (.reference ['R'] (some "$\x7bB".toList), ['\x7d']) := by decide
    have hbrace : Free ['\x7d'] := reference?_eq_none.1 (by decide)
    rw [read_of_reference? hdefault, read_of_free hbrace, read_nil]
  have hkept : read "$\x7bR\x7d".toList = [.reference ['R'] none] := by
    have hbare : reference? "$\x7bR\x7d".toList = some (.reference ['R'] none, []) := by decide
    rw [read_of_reference? hbare, read_nil]
  have htexts : env.expandText "$\x7bA\x7d$\x7bN:-n\x7d" = "$\x7bB\x7d" ∧
      env.expandText "$\x7bR:-$\x7bB\x7d\x7d" = "$\x7bB\x7d" ∧ env.expandText "$\x7bR\x7d" = "$\x7bR\x7d" := by
    simp only [expandText, expandChars, hset, hunset, hkept]
    decide
  simp only [settings, expanded, expand, expandItems, expandFields, htexts]

end Environment
end HuntDraw
