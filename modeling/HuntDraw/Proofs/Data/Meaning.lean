import HuntDraw.Data.Datum
import HuntDraw.Proofs.Data.Canonical
import HuntDraw.Proofs.Text.Order

/-! What a document says, whatever order the fields of its objects stand in. Putting the fields in order leaves this as
it is, and leaves nothing else: values that say the same have one canonical text, and values with one canonical text say
the same. -/

namespace HuntDraw

open Attempt Std

/-- What a value says. An object is what it holds under each name. -/
inductive Meaning where
  | null
  | bool (b : Bool)
  | int (i : Int)
  | float (x : Binary64)
  | text (s : String)
  | list (items : List Meaning)
  | object (field : String → Option Meaning)

namespace Json

mutual

def meaning : Json → Meaning
  | .null => .null
  | .bool b => .bool b
  | .int i => .int i
  | .float x => .float x
  | .text s => .text s
  | .list items => .list (meanings items)
  | .object fields => .object fun k => meaningOf? k fields

def meanings : List Json → List Meaning
  | [] => []
  | v :: rest => meaning v :: meanings rest

def meaningOf? (k : String) : List (String × Json) → Option Meaning
  | [] => none
  | (name, v) :: rest => if name = k then some (meaning v) else meaningOf? k rest

end

variable {v w : Json} {fields fields' : Fields Json}

theorem meanings_eq (items : List Json) : meanings items = items.map meaning := by
  induction items with
  | nil => rfl
  | cons v items ih => rw [meanings, ih, List.map_cons]

theorem meaningOf?_eq (k : String) (fields : Fields Json) : meaningOf? k fields = (fields.get? k).map meaning := by
  induction fields with
  | nil => rfl
  | cons p fields ih =>
    obtain ⟨name, v⟩ := p
    rw [meaningOf?, Fields.get?_cons, ih]
    split_ifs <;> rfl

theorem meaning_list (items : List Json) : meaning (.list items) = .list (items.map meaning) := by
  rw [meaning, meanings_eq]

theorem meaning_object (fields : Fields Json) :
    meaning (.object fields) = .object fun k => (fields.get? k).map meaning := by
  rw [meaning]
  exact congrArg Meaning.object (funext fun k => meaningOf?_eq k fields)

theorem Plain.meaning_sortFields (hv : v.Plain) : v.sortFields.meaning = v.meaning := by
  induction hv with
  | null | bool | int | text => rfl
  | list _ ih =>
    rw [Json.sortFields, sortItems_eq, meaning_list, meaning_list, List.map_map]
    exact congrArg Meaning.list (List.map_congr_left ih)
  | object hkeys _ ih =>
    rw [sortFields_object, meaning_object, meaning_object]
    refine congrArg Meaning.object (funext fun k => ?_)
    rw [get?_arrange hkeys, Option.map_map]
    exact Option.map_congr fun v hv => ih (k, v) (Fields.mem_of_get? hv)

theorem arrange_congr (hkeys : fields.keys.Nodup) (hperm : (arrange fields).Perm (arrange fields')) :
    arrange fields = arrange fields' := by
  have hsorted : ∀ fields : Fields Json,
      (arrange fields).Pairwise fun p q => (Text.order16 p.1.toList q.1.toList).isLE := by
    intro fields
    have htrans : ∀ p q r : String × Json, (Text.order16 p.1.toList q.1.toList).isLE →
        (Text.order16 q.1.toList r.1.toList).isLE → (Text.order16 p.1.toList r.1.toList).isLE :=
      fun _ _ _ => TransCmp.isLE_trans
    refine List.pairwise_mergeSort htrans (fun p q => ?_) _
    have hswap : Text.order16 q.1.toList p.1.toList = (Text.order16 p.1.toList q.1.toList).swap := OrientedCmp.eq_swap
    rw [hswap]
    cases Text.order16 p.1.toList q.1.toList <;> rfl
  refine hperm.eq_of_pairwise (fun p q hp hq hpq hqp => ?_) (hsorted fields) (hsorted fields')
  have hname : p.1 = q.1 := String.toList_injective (LawfulEqCmp.eq_of_compare (OrientedCmp.isLE_antisymm hpq hqp))
  obtain ⟨name, v⟩ := p
  obtain ⟨name', w⟩ := q
  obtain rfl : name = name' := hname
  rw [Fields.eq_of_mem (nodup_keys_arrange hkeys) hp (hperm.mem_iff.2 hq)]

theorem mem_arrange_of_meaning (hkeys : fields.keys.Nodup) (hkeys' : fields'.keys.Nodup)
    (hsame : ∀ k, (fields.get? k).map meaning = (fields'.get? k).map meaning)
    (hvalues : ∀ k v w, (k, v) ∈ fields → (k, w) ∈ fields' → v.meaning = w.meaning → v.sortFields = w.sortFields)
    {p : String × Json} (hp : p ∈ arrange fields) : p ∈ arrange fields' := by
  obtain ⟨⟨k, v⟩, hv, rfl⟩ := List.mem_map.1 ((arrange_perm fields).mem_iff.1 hp)
  have hw := hsame k
  rw [(Fields.get?_eq_some hkeys).2 hv, Option.map_some] at hw
  obtain ⟨w, hw, hmeaning⟩ := Option.map_eq_some_iff.1 hw.symm
  have hmem := (Fields.get?_eq_some hkeys').1 hw
  refine (arrange_perm fields').mem_iff.2 (List.mem_map.2 ⟨(k, w), hmem, ?_⟩)
  rw [hvalues k v w hv hmem hmeaning.symm]

theorem map_congr_of_map {α β γ : Type} {f : α → β} {g : α → γ} {xs ys : List α} (h : xs.map f = ys.map f)
    (hg : ∀ x ∈ xs, ∀ y ∈ ys, f x = f y → g x = g y) : xs.map g = ys.map g := by
  induction xs generalizing ys with
  | nil =>
    cases ys with
    | nil => rfl
    | cons y ys => cases h
  | cons x xs ih =>
    cases ys with
    | nil => cases h
    | cons y ys =>
      obtain ⟨hxy, hrest⟩ := List.cons.inj h
      rw [List.map_cons, List.map_cons, hg x List.mem_cons_self y List.mem_cons_self hxy,
        ih hrest fun u hu v hv => hg u (List.mem_cons_of_mem _ hu) v (List.mem_cons_of_mem _ hv)]

/-- Values that say the same differ in nothing but the order of their fields. -/
theorem Plain.sortFields_eq (hv : v.Plain) (hw : w.Plain) (h : v.meaning = w.meaning) : v.sortFields = w.sortFields := by
  induction hv generalizing w with
  | null => cases hw <;> first | rfl | cases h
  | bool b => cases hw <;> first | exact congrArg Json.bool (Meaning.bool.inj h) | cases h
  | int hsafe => cases hw <;> first | exact congrArg Json.int (Meaning.int.inj h) | cases h
  | text s => cases hw <;> first | exact congrArg Json.text (Meaning.text.inj h) | cases h
  | @list items hitems ih =>
    cases hw with
    | null | bool | int | text | object => cases h
    | @list items' hitems' =>
      rw [meaning_list, meaning_list, Meaning.list.injEq] at h
      rw [Json.sortFields, Json.sortFields, sortItems_eq, sortItems_eq]
      exact congrArg Json.list (map_congr_of_map h fun u hu u' hu' => ih u hu (hitems' u' hu'))
  | @object fields hkeys hfields ih =>
    cases hw with
    | null | bool | int | text | list => cases h
    | @object fields' hkeys' hfields' =>
      rw [meaning_object, meaning_object, Meaning.object.injEq] at h
      have hsame := congrFun h
      have hvalues : ∀ k v w, (k, v) ∈ fields → (k, w) ∈ fields' → v.meaning = w.meaning →
          v.sortFields = w.sortFields := fun k v w hv hw => ih (k, v) hv (hfields' (k, w) hw)
      rw [sortFields_object, sortFields_object]
      refine congrArg Json.object (arrange_congr hkeys ((List.perm_ext_iff_of_nodup
        (nodup_keys_arrange hkeys).of_map (nodup_keys_arrange hkeys').of_map).2 fun p => ⟨?_, ?_⟩))
      · exact mem_arrange_of_meaning hkeys hkeys' hsame hvalues
      · exact mem_arrange_of_meaning hkeys' hkeys (fun k => (hsame k).symm)
          fun k v w hv hw hmeaning => (hvalues k w v hw hv hmeaning.symm).symm

/-- Values have one canonical text where they say the same, and only there. -/
theorem Plain.canonicalBytes_eq_iff (hv : v.Plain) (hw : w.Plain) :
    v.canonicalBytes = w.canonicalBytes ↔ v.meaning = w.meaning := by
  constructor
  · intro h
    obtain ⟨bytes, hbytes⟩ := hv.canonicalBytes_total
    obtain ⟨cs, hcs, hread⟩ := hv.read_canonicalBytes hbytes
    obtain ⟨cs', hcs', hread'⟩ := hw.read_canonicalBytes (h.symm.trans hbytes)
    obtain rfl := Except.ok.inj (hcs.symm.trans hcs')
    rw [← hv.meaning_sortFields, ← hw.meaning_sortFields, Except.ok.inj (hread.symm.trans hread')]
  · intro h
    rw [canonicalBytes, canonicalBytes, hv.canonical_eq, hw.canonical_eq, hv.sortFields_eq hw h]

end Json

namespace Datum

mutual

def meaning : Datum → Meaning
  | .null => .null
  | .bool b => .bool b
  | .int i => .int i
  | .float x => .float x
  | .text s => .text s
  | .member _ _ word => .text word
  | .constant _ _ value => value.meaning
  | .list items => .list (meanings items)
  | .tuple items => .list (meanings items)
  | .mapping entries => .object fun k => meaningOf? k entries

def meanings : List Datum → List Meaning
  | [] => []
  | v :: rest => meaning v :: meanings rest

/-- What is said under a name: keys are texts, or members that are. -/
def meaningOf? (k : String) : List (Datum × Datum) → Option Meaning
  | [] => none
  | (key, v) :: rest => if key.word? = some k then some (meaning v) else meaningOf? k rest

end

/-- Values whose numbers are whole ones that canonical text has room for, and whose keys are texts, each of which stands
once. -/
inductive Writable : Datum → Prop
  | null : Writable .null
  | bool (b : Bool) : Writable (.bool b)
  | int {i : Int} (hsafe : Json.isSafe i) : Writable (.int i)
  | text (s : String) : Writable (.text s)
  | member (set name word : String) : Writable (.member set name word)
  | constant (set name : String) {value : Json} (hvalue : value.Plain) : Writable (.constant set name value)
  | list {items : List Datum} (hitems : ∀ v ∈ items, Writable v) : Writable (.list items)
  | tuple {items : List Datum} (hitems : ∀ v ∈ items, Writable v) : Writable (.tuple items)
  | mapping {entries : List (Datum × Datum)} {names : List String}
      (hkeys : entries.map (fun p => p.1.word?) = names.map some) (hnames : names.Nodup)
      (hvalues : ∀ p ∈ entries, Writable p.2) : Writable (.mapping entries)

variable {v w : Datum} {entries : List (Datum × Datum)} {names : List String}

theorem meanings_eq (items : List Datum) : meanings items = items.map meaning := by
  induction items with
  | nil => rfl
  | cons v items ih => rw [meanings, ih, List.map_cons]

theorem jsonItems_eq (items : List Datum) : jsonItems items = items.map toJson := by
  induction items with
  | nil => rfl
  | cons v items ih => rw [jsonItems, ih, List.map_cons]

theorem jsonEntries_eq (entries : List (Datum × Datum)) :
    jsonEntries entries = entries.map fun p => (p.1.asText, p.2.toJson) := by
  induction entries with
  | nil => rfl
  | cons p entries ih => rw [jsonEntries, ih, List.map_cons]

theorem asText_eq {s : String} (h : v.word? = some s) : v.asText = s := by
  cases v with
  | text t => exact Option.some.inj h
  | member set name word => exact Option.some.inj h
  | _ => cases h

theorem keys_jsonEntries (hkeys : entries.map (fun p => p.1.word?) = names.map some) :
    Fields.keys (jsonEntries entries) = names := by
  rw [jsonEntries_eq, Fields.keys, List.map_map]
  induction entries generalizing names with
  | nil => exact (List.map_eq_nil_iff.1 hkeys.symm).symm
  | cons p entries ih =>
    cases names with
    | nil => cases hkeys
    | cons name names =>
      obtain ⟨hname, hrest⟩ := List.cons.inj hkeys
      rw [List.map_cons, ih hrest]
      exact congrArg (· :: names) (asText_eq hname)

theorem meaningOf?_jsonEntries (hkeys : entries.map (fun p => p.1.word?) = names.map some)
    (hvalues : ∀ p ∈ entries, p.2.toJson.meaning = p.2.meaning) (k : String) :
    Json.meaningOf? k (jsonEntries entries) = meaningOf? k entries := by
  induction entries generalizing names with
  | nil => rfl
  | cons p entries ih =>
    cases names with
    | nil => cases hkeys
    | cons name names =>
      obtain ⟨hname, hrest⟩ := List.cons.inj hkeys
      obtain ⟨hvalue, hothers⟩ := List.forall_mem_cons.1 hvalues
      obtain ⟨key, v⟩ := p
      have hname : key.word? = some name := hname
      rw [jsonEntries, Json.meaningOf?, meaningOf?, asText_eq hname, hname, ih hrest hothers, hvalue]
      exact if_congr (Option.some.injEq _ _).symm.to_iff rfl rfl

theorem toJson_mapping (hkeys : entries.map (fun p => p.1.word?) = names.map some) (hnames : names.Nodup) :
    (mapping entries).toJson = .object (jsonEntries entries) ∧ (Fields.keys (jsonEntries entries)).Nodup := by
  have hnodup : (Fields.keys (jsonEntries entries)).Nodup := by rwa [keys_jsonEntries hkeys]
  exact ⟨by rw [toJson, Fields.ofPairs_eq_self hnodup], hnodup⟩

theorem nonFiniteItem?_eq {items : List Datum} (h : ∀ v ∈ items, v.nonFinite? = none) :
    nonFiniteItem? items = none := by
  induction items with
  | nil => rfl
  | cons v items ih =>
    obtain ⟨hv, hrest⟩ := List.forall_mem_cons.1 h
    rw [nonFiniteItem?, hv, ih hrest, Option.none_or]

theorem nonFinitePair?_eq (h : ∀ p ∈ entries, p.2.nonFinite? = none) : nonFinitePair? entries = none := by
  induction entries with
  | nil => rfl
  | cons p entries ih =>
    obtain ⟨hp, hrest⟩ := List.forall_mem_cons.1 h
    rw [nonFinitePair?, hp, ih hrest, Option.none_or]

namespace Writable

theorem plain_toJson (hv : v.Writable) : v.toJson.Plain := by
  induction hv with
  | null => exact .null
  | bool b => exact .bool b
  | int hsafe => exact .int hsafe
  | text s => exact .text s
  | member set name word => exact .text word
  | constant set name hvalue => exact hvalue
  | list _ ih | tuple _ ih =>
    rw [toJson, jsonItems_eq]
    exact .list (List.forall_mem_map.2 ih)
  | @mapping entries names hkeys hnames _ ih =>
    obtain ⟨htoJson, hnodup⟩ := toJson_mapping hkeys hnames
    rw [htoJson]
    refine .object hnodup fun q hq => ?_
    rw [jsonEntries_eq] at hq
    obtain ⟨p, hp, rfl⟩ := List.mem_map.1 hq
    exact ih p hp

theorem meaning_toJson (hv : v.Writable) : v.toJson.meaning = v.meaning := by
  induction hv with
  | null | bool | int | text | member | constant => rfl
  | list _ ih | tuple _ ih =>
    rw [toJson, jsonItems_eq, Json.meaning_list, List.map_map, meaning, meanings_eq]
    exact congrArg Meaning.list (List.map_congr_left ih)
  | @mapping entries names hkeys hnames _ ih =>
    rw [(toJson_mapping hkeys hnames).1, Json.meaning, meaning]
    exact congrArg Meaning.object (funext (meaningOf?_jsonEntries hkeys ih))

theorem nonFinite?_eq (hv : v.Writable) : v.nonFinite? = none := by
  induction hv with
  | null | bool | int | text | member | constant => rfl
  | list _ ih | tuple _ ih => exact nonFiniteItem?_eq ih
  | mapping _ _ _ ih => exact nonFinitePair?_eq ih

theorem canonicalBytes_eq (hv : v.Writable) : v.canonicalBytes = v.toJson.canonicalBytes := by
  rw [Datum.canonicalBytes, Datum.canonical, hv.nonFinite?_eq, Json.canonicalBytes, hv.plain_toJson.canonical_eq]

end Writable

end Datum
end HuntDraw
