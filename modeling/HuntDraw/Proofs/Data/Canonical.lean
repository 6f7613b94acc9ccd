import HuntDraw.Data.Canonical
import HuntDraw.Proofs.Data.Attempt
import HuntDraw.Proofs.Data.Written
import HuntDraw.Proofs.Text.Utf8

/-! Canonical text is read back as the value that it was written from, with the fields of its objects in order. -/

namespace HuntDraw.Json

open Attempt

/-- Values whose numbers are whole ones that canonical text has room for, in whose objects every key stands once. -/
inductive Plain : Json → Prop
  | null : Plain .null
  | bool (b : Bool) : Plain (.bool b)
  | int {i : Int} (hsafe : isSafe i) : Plain (.int i)
  | text (s : String) : Plain (.text s)
  | list {items : List Json} (hitems : ∀ v ∈ items, Plain v) : Plain (.list items)
  | object {fields : Fields Json} (hkeys : fields.keys.Nodup) (hfields : ∀ p ∈ fields, Plain p.2) :
      Plain (.object fields)

variable {v : Json} {cs : List Char}

/-- Fields with different names and plain values make a plain object. -/
theorem Plain.of_names {fields : Fields Json} (names : List String) (hkeys : fields.keys = names)
    (hnames : names.Nodup) (hvalues : ∀ v ∈ fields.map Prod.snd, v.Plain) : (Json.object fields).Plain :=
  .object (hkeys ▸ hnames) fun _ hp => hvalues _ (List.mem_map_of_mem hp)

theorem escapes_canonicalChar : Escapes canonicalChar := by
  intro c e rest
  have hchar : ∀ {n : Nat}, c.toNat = n → c = Char.ofNat n := fun h => h ▸ (Char.ofNat_toNat c).symm
  rw [canonicalChar]
  split_ifs with hquote hescape h8 h9 h10 h12 h13 hcontrol
  · subst hquote
    exact readChars_escaped (by decide) rfl e rest
  · subst hescape
    exact readChars_escaped (by decide) rfl e rest
  · exact hchar h8 ▸ readChars_escaped (by decide) rfl e rest
  · exact hchar h9 ▸ readChars_escaped (by decide) rfl e rest
  · exact hchar h10 ▸ readChars_escaped (by decide) rfl e rest
  · exact hchar h12 ▸ readChars_escaped (by decide) rfl e rest
  · exact hchar h13 ▸ readChars_escaped (by decide) rfl e rest
  · have hdigits := readHex4?_digits (a := 0) (b := 0) (c := c.toNat / 16 % 16) (d := c.toNat % 16) (by omega) (by omega)
      (by omega) (by omega) e rest
    refine (readChars_unit hdigits (by omega)).trans ?_
    rw [← hchar (by omega)]
  · exact readChars_plain hquote hescape hcontrol

theorem serializeItems_parts {items : List Json} {more : List Char} (h : serializeItems items = .ok more) :
    ∃ parts, List.Forall₂ (fun u cs => serialize u = .ok cs) items parts ∧ more = behindCommas 0 parts := by
  induction items generalizing more with
  | nil => exact ⟨[], .nil, (Except.ok.inj h).symm⟩
  | cons u items ih =>
    obtain ⟨first, hfirst, h⟩ := bind_eq_ok.1 h
    obtain ⟨others, hothers, h⟩ := bind_eq_ok.1 h
    obtain rfl := Except.ok.inj h
    obtain ⟨parts, hparts, rfl⟩ := ih hothers
    exact ⟨first :: parts, .cons hfirst hparts, rfl⟩

theorem serializeFields_parts {fields : Fields Json} {more : List Char} (h : serializeFields fields = .ok more) :
    ∃ parts, List.Forall₂ (fun p part => ∃ cs, serialize p.2 = .ok cs ∧ part = canonicalText p.1 ++ ':' :: cs) fields
      parts ∧ more = behindCommas 0 parts := by
  induction fields generalizing more with
  | nil => exact ⟨[], .nil, (Except.ok.inj h).symm⟩
  | cons p fields ih =>
    obtain ⟨first, hfirst, h⟩ := bind_eq_ok.1 h
    obtain ⟨others, hothers, h⟩ := bind_eq_ok.1 h
    obtain rfl := Except.ok.inj h
    obtain ⟨parts, hparts, rfl⟩ := ih hothers
    exact ⟨_ :: parts, .cons ⟨first, hfirst, rfl⟩ hparts, by simp [behindCommas]⟩

theorem forall₂_imp_of_mem {α β : Type} {R S : α → β → Prop} {xs : List α} {ys : List β}
    (himp : ∀ x ∈ xs, ∀ y, R x y → S x y) (h : List.Forall₂ R xs ys) : List.Forall₂ S xs ys := by
  induction h with
  | nil => exact .nil
  | cons hxy hrest ih =>
    exact .cons (himp _ List.mem_cons_self _ hxy) (ih fun x hx => himp x (List.mem_cons_of_mem _ hx))

theorem Plain.writtenAs (hv : v.Plain) (h : serialize v = .ok cs) : WrittenAs v cs := by
  induction hv generalizing cs with
  | null => exact Except.ok.inj h ▸ .null
  | bool b => exact Except.ok.inj h ▸ .bool b
  | @int i hsafe =>
    rw [serialize, if_pos hsafe] at h
    exact Except.ok.inj h ▸ .int i
  | text s => exact Except.ok.inj h ▸ .text escapes_canonicalChar s
  | @list items hitems ih =>
    cases items with
    | nil => exact Except.ok.inj h ▸ .emptyList
    | cons u items =>
      obtain ⟨first, hfirst, h⟩ := bind_eq_ok.1 h
      obtain ⟨more, hmore, h⟩ := bind_eq_ok.1 h
      obtain rfl := Except.ok.inj h
      obtain ⟨parts, hparts, rfl⟩ := serializeItems_parts hmore
      rw [List.append_assoc]
      exact .list 0 (ih u List.mem_cons_self hfirst)
        (forall₂_imp_of_mem (fun w hw _ hcs => ih w (List.mem_cons_of_mem _ hw) hcs) hparts)
  | @object fields hkeys hfields ih =>
    cases fields with
    | nil => exact Except.ok.inj h ▸ .emptyObject
    | cons p fields =>
      obtain ⟨first, hfirst, h⟩ := bind_eq_ok.1 h
      obtain ⟨more, hmore, h⟩ := bind_eq_ok.1 h
      obtain rfl := Except.ok.inj h
      obtain ⟨parts, hparts, rfl⟩ := serializeFields_parts hmore
      have hfield : ∀ q ∈ p :: fields, ∀ part, (∃ cs, serialize q.2 = .ok cs ∧ part = canonicalText q.1 ++ ':' :: cs) →
          WrittenAs.Field canonicalChar 0 q part := fun q hq _ ⟨cs, hcs, hpart⟩ => ⟨cs, ih q hq hcs, hpart⟩
      have htext : canonicalText p.1 ++ ':' :: (first ++ behindCommas 0 parts ++ ['\x7d']) =
          canonicalText p.1 ++ ':' :: first ++ (behindCommas 0 parts ++ ['\x7d']) := by simp
      rw [htext]
      exact .object escapes_canonicalChar hkeys (hfield p List.mem_cons_self _ ⟨first, hfirst, rfl⟩)
        (forall₂_imp_of_mem (fun q hq => hfield q (List.mem_cons_of_mem _ hq)) hparts)

theorem Plain.read_serialize (hv : v.Plain) (h : serialize v = .ok cs) : read cs = .ok v := (hv.writtenAs h).read_eq

theorem serializeItems_total {items : List Json} (h : ∀ v ∈ items, ∃ cs, serialize v = .ok cs) :
    ∃ cs, serializeItems items = .ok cs := by
  induction items with
  | nil => exact ⟨_, rfl⟩
  | cons v items ih =>
    obtain ⟨⟨first, hfirst⟩, hitems⟩ := List.forall_mem_cons.1 h
    obtain ⟨more, hmore⟩ := ih hitems
    exact ⟨_, bind_eq_ok.2 ⟨first, hfirst, bind_eq_ok.2 ⟨more, hmore, rfl⟩⟩⟩

theorem serializeFields_total {fields : Fields Json} (h : ∀ p ∈ fields, ∃ cs, serialize p.2 = .ok cs) :
    ∃ cs, serializeFields fields = .ok cs := by
  induction fields with
  | nil => exact ⟨_, rfl⟩
  | cons p fields ih =>
    obtain ⟨⟨first, hfirst⟩, hfields⟩ := List.forall_mem_cons.1 h
    obtain ⟨more, hmore⟩ := ih hfields
    exact ⟨_, bind_eq_ok.2 ⟨first, hfirst, bind_eq_ok.2 ⟨more, hmore, rfl⟩⟩⟩

theorem Plain.serialize_total (hv : v.Plain) : ∃ cs, serialize v = .ok cs := by
  induction hv with
  | null | bool | text => exact ⟨_, rfl⟩
  | int hsafe => exact ⟨_, if_pos hsafe⟩
  | @list items hitems ih =>
    cases items with
    | nil => exact ⟨_, rfl⟩
    | cons u items =>
      obtain ⟨⟨first, hfirst⟩, hrest⟩ := List.forall_mem_cons.1 ih
      obtain ⟨more, hmore⟩ := serializeItems_total hrest
      exact ⟨_, bind_eq_ok.2 ⟨first, hfirst, bind_eq_ok.2 ⟨more, hmore, rfl⟩⟩⟩
  | @object fields hkeys hfields ih =>
    cases fields with
    | nil => exact ⟨_, rfl⟩
    | cons p fields =>
      obtain ⟨⟨first, hfirst⟩, hrest⟩ := List.forall_mem_cons.1 ih
      obtain ⟨more, hmore⟩ := serializeFields_total hrest
      exact ⟨_, bind_eq_ok.2 ⟨first, hfirst, bind_eq_ok.2 ⟨more, hmore, rfl⟩⟩⟩

theorem sortItems_eq (items : List Json) : sortItems items = items.map sortFields := by
  induction items with
  | nil => rfl
  | cons v items ih => rw [sortItems, ih, List.map_cons]

theorem sortEach_eq (fields : Fields Json) : sortEach fields = fields.map fun p => (p.1, sortFields p.2) := by
  induction fields with
  | nil => rfl
  | cons p fields ih => rw [sortEach, ih, List.map_cons]

/-- The fields of an object in their canonical order, with all that is in them. -/
def arrange (fields : Fields Json) : Fields Json :=
  (sortEach fields).mergeSort fun a b => (Text.order16 a.1.toList b.1.toList).isLE

theorem sortFields_object (fields : Fields Json) : sortFields (.object fields) = .object (arrange fields) := by
  rw [sortFields, arrange]

theorem arrange_perm (fields : Fields Json) : (arrange fields).Perm (fields.map fun p => (p.1, sortFields p.2)) :=
  sortEach_eq fields ▸ List.mergeSort_perm _ _

theorem nodup_keys_arrange {fields : Fields Json} (h : fields.keys.Nodup) : (arrange fields).keys.Nodup := by
  rw [Fields.keys, ((arrange_perm fields).map Prod.fst).nodup_iff, List.map_map]
  exact h

theorem get?_arrange {fields : Fields Json} (h : fields.keys.Nodup) (k : String) :
    (arrange fields).get? k = (fields.get? k).map sortFields := by
  rw [Fields.get?_perm (arrange_perm fields), Fields.get?_map sortFields]
  rw [Fields.keys, List.map_map]
  exact h

theorem Plain.sortFields (hv : v.Plain) : v.sortFields.Plain := by
  induction hv with
  | null => exact .null
  | bool b => exact .bool b
  | int hsafe => exact .int hsafe
  | text s => exact .text s
  | list _ ih =>
    rw [Json.sortFields, sortItems_eq]
    exact .list (List.forall_mem_map.2 ih)
  | object hkeys _ ih =>
    rw [sortFields_object]
    refine .object (nodup_keys_arrange hkeys) fun p hp => ?_
    obtain ⟨q, hq, rfl⟩ := List.mem_map.1 ((arrange_perm _).mem_iff.1 hp)
    exact ih q hq

theorem nonFiniteItem?_eq {items : List Json} (h : ∀ v ∈ items, nonFinite? v = none) : nonFiniteItem? items = none := by
  induction items with
  | nil => rfl
  | cons v items ih =>
    obtain ⟨hv, hitems⟩ := List.forall_mem_cons.1 h
    rw [nonFiniteItem?, hv, ih hitems, Option.none_or]

theorem nonFiniteField?_eq {fields : Fields Json} (h : ∀ p ∈ fields, nonFinite? p.2 = none) :
    nonFiniteField? fields = none := by
  induction fields with
  | nil => rfl
  | cons p fields ih =>
    obtain ⟨hp, hfields⟩ := List.forall_mem_cons.1 h
    rw [nonFiniteField?, hp, ih hfields, Option.none_or]

theorem Plain.nonFinite?_eq (hv : v.Plain) : nonFinite? v = none := by
  induction hv with
  | null | bool | int | text => rfl
  | list _ ih => exact nonFiniteItem?_eq ih
  | object _ _ ih => exact nonFiniteField?_eq ih

/-- The canonical text of a value is the text of the value with its fields in order. -/
theorem Plain.canonical_eq (hv : v.Plain) : canonical v = serialize v.sortFields := by
  rw [canonical, hv.nonFinite?_eq]

theorem Plain.canonicalBytes_total (hv : v.Plain) : ∃ bytes, v.canonicalBytes = .ok bytes := by
  obtain ⟨cs, hcs⟩ := hv.sortFields.serialize_total
  exact ⟨_, map_eq_ok.2 ⟨cs, hv.canonical_eq.trans hcs, rfl⟩⟩

/-- The bytes of a canonical document are decoded to a text, and the text is read as the value in order. -/
theorem Plain.read_canonicalBytes (hv : v.Plain) {bytes : Bytes} (h : v.canonicalBytes = .ok bytes) :
    ∃ cs, Text.decodeDocument bytes = .ok cs ∧ read cs = .ok v.sortFields := by
  obtain ⟨cs, hcs, rfl⟩ := map_eq_ok.1 h
  rw [hv.canonical_eq] at hcs
  obtain ⟨c, more, rfl, hc⟩ := (hv.sortFields.writtenAs hcs).starts
  refine ⟨_, Text.decodeDocument_encodeUtf8 fun hmark => ?_, hv.sortFields.read_serialize hcs⟩
  exact hc.2.2.2 (Option.some.inj hmark)

/-- Values that are equal but for the order of the fields of their objects. -/
inductive Same : Json → Json → Prop
  | refl (v : Json) : Same v v
  | list {items items' : List Json} (hitems : List.Forall₂ Same items items') : Same (.list items) (.list items')
  | object {fields renewed fields' : Fields Json} (hperm : renewed.Perm fields')
      (hkeys : renewed.keys = fields.keys) (hvalues : List.Forall₂ Same (fields.map Prod.snd) (renewed.map Prod.snd)) :
      Same (.object fields) (.object fields')

/-- The fields of an object may each be replaced by an equal one, and then be put into any order. -/
theorem Same.of_map {fields fields' : Fields Json} {f : String × Json → Json}
    (hperm : (fields.map fun p => (p.1, f p)).Perm fields') (hsame : ∀ p ∈ fields, Same p.2 (f p)) :
    Same (.object fields) (.object fields') := by
  refine .object hperm (Fields.keys_map f) ?_
  rw [List.map_map, List.forall₂_map_left_iff, List.forall₂_map_right_iff]
  exact List.forall₂_same.2 hsame

theorem Same.mem_text {fields fields' : Fields Json} (h : Same (.object fields) (.object fields')) {k t : String}
    (hmem : (k, .text t) ∈ fields) : (k, .text t) ∈ fields' := by
  have hrenewed : ∀ renewed : Fields Json, renewed.keys = fields.keys →
      List.Forall₂ Same (fields.map Prod.snd) (renewed.map Prod.snd) → (k, .text t) ∈ renewed := by
    clear h
    induction fields with
    | nil => exact nomatch hmem
    | cons p fields ih =>
      intro renewed hkeys hvalues
      cases renewed with
      | nil => exact nomatch hkeys
      | cons q renewed =>
        obtain ⟨hkey, hkeys⟩ := List.cons.inj hkeys
        obtain ⟨hvalue, hvalues⟩ := List.forall₂_cons.1 hvalues
        rcases List.mem_cons.1 hmem with rfl | hmem
        · obtain ⟨key, value⟩ := q
          obtain rfl : key = k := hkey
          cases hvalue
          exact List.mem_cons_self
        · exact List.mem_cons_of_mem _ (ih hmem renewed hkeys hvalues)
  cases h with
  | refl => exact hmem
  | object hperm hkeys hvalues => exact hperm.mem_iff.1 (hrenewed _ hkeys hvalues)

theorem Plain.same_sortFields (hv : v.Plain) : v.Same v.sortFields := by
  induction hv with
  | null | bool | int | text => exact .refl _
  | @list items _ ih =>
    rw [Json.sortFields, sortItems_eq]
    exact .list (List.forall₂_map_right_iff.2 (List.forall₂_same.2 ih))
  | @object fields hkeys _ ih =>
    rw [sortFields_object]
    exact .of_map (arrange_perm fields).symm ih

end HuntDraw.Json
