import HuntDraw.Schema.Check

/-! What a check that passes says of its parts: every part passed, and the value is made of theirs. -/

namespace HuntDraw

namespace Checked

variable {α β : Type} {x : Checked α} {a : α} {b : β}

theorem map_eq_valid {f : α → β} : f <$> x = .valid b ↔ ∃ a, x = .valid a ∧ f a = b := by
  cases x <;> simp [Functor.map, Checked.map]

theorem seq_eq_valid {f : Checked (α → β)} :
    f <*> x = .valid b ↔ ∃ g a, f = .valid g ∧ x = .valid a ∧ g a = b := by
  cases f <;> cases x <;> simp [Seq.seq, apply]

theorem andThen_eq_valid {f : α → Checked β} :
    x.andThen f = .valid b ↔ ∃ a, x = .valid a ∧ f a = .valid b := by
  cases x <;> simp [andThen]

@[simp] theorem within_eq_valid {step : String} : x.within step = .valid a ↔ x = .valid a := by
  cases x <;> simp [within]

@[simp] theorem complain_ne_valid {c : Complaint} : (complain c : Checked α) ≠ .valid a := by
  simp [complain]

def Telling (x : Checked α) : Prop := x ≠ .faulty []

namespace Telling

theorem valid (a : α) : (Checked.valid a).Telling := nofun

theorem complain (c : Complaint) : (Checked.complain c : Checked α).Telling := nofun

theorem map {f : α → β} (h : x.Telling) : (f <$> x).Telling := by
  cases x with
  | valid a => exact valid (f a)
  | faulty faults => exact fun heq => h (congrArg Checked.faulty (Checked.faulty.inj heq))

theorem seq {f : Checked (α → β)} (hf : f.Telling) (hx : x.Telling) : (f <*> x).Telling := by
  cases f with
  | valid f =>
    cases x with
    | valid a => exact valid (f a)
    | faulty faults => exact fun heq => hx (congrArg Checked.faulty (Checked.faulty.inj heq))
  | faulty faults =>
    cases x with
    | valid a => exact fun heq => hf (congrArg Checked.faulty (Checked.faulty.inj heq))
    | faulty more =>
      exact fun heq => hf (congrArg Checked.faulty (List.append_eq_nil_iff.1 (Checked.faulty.inj heq)).1)

theorem andThen {f : α → Checked β} (hx : x.Telling) (hf : ∀ a, (f a).Telling) : (x.andThen f).Telling := by
  cases x with
  | valid a => exact hf a
  | faulty faults => exact fun heq => hx (congrArg Checked.faulty (Checked.faulty.inj heq))

theorem within {step : String} (h : x.Telling) : (x.within step).Telling := by
  cases x with
  | valid a => exact valid a
  | faulty faults =>
    exact fun heq => h (congrArg Checked.faulty (List.map_eq_nil_iff.1 (Checked.faulty.inj heq)))

end Telling

end Checked

namespace Check

open Checked

variable {α : Type} {fs : Fields Json} {name : String} {check : Check α} {a : α}

theorem required_eq_valid :
    required fs name check = .valid a ↔ ∃ v, fs.get? name = some v ∧ check v = .valid a := by
  rw [required]
  cases fs.get? name <;> simp

/-- What holds of the value of an absent field and of whatever passes holds of the field. -/
theorem optional_valid {P : α → Prop} {absent : α} (habsent : P absent)
    (hcheck : ∀ v a, check v = .valid a → P a) (h : optional fs name absent check = .valid a) : P a := by
  rw [optional] at h
  split at h
  · exact hcheck _ a (within_eq_valid.1 h)
  · rw [valid.injEq] at h
    exact h ▸ habsent

theorem nullable_eq_some {v : Json} (h : nullable check v = .valid (some a)) : check v = .valid a := by
  have hmap : (check v).map some = .valid (some a) := by
    cases v with
    | null => simp [nullable] at h
    | _ => exact h
  obtain ⟨b, hb, hsome⟩ := map_eq_valid.1 hmap
  rw [hb, Option.some.inj hsome]

theorem wholeFrom_le {least : Nat} {v : Json} {i : Int} (h : wholeFrom least v = .valid i) : (least : Int) ≤ i := by
  obtain ⟨j, -, hj⟩ := andThen_eq_valid.1 h
  by_cases hle : (least : Int) ≤ j
  · rw [if_pos hle, valid.injEq] at hj
    exact hj ▸ hle
  · rw [if_neg hle] at hj
    exact absurd hj complain_ne_valid

theorem numberFrom_le {least : Nat} {v : Json} {x : Binary64} (h : numberFrom least v = .valid x) :
    (Binary64.ofNat least).le x := by
  obtain ⟨y, -, hy⟩ := andThen_eq_valid.1 h
  by_cases hle : (Binary64.ofNat least).le y
  · rw [if_pos hle, valid.injEq] at hy
    exact hy ▸ hle
  · rw [if_neg hle] at hy
    exact absurd hy complain_ne_valid

theorem member_mem [Worded α] {v : Json} (h : member α v = .valid a) : a ∈ Worded.all (α := α) := by
  cases v with
  | text s =>
    rw [member] at h
    cases hs : (Worded.ofText? s : Option α) with
    | none => simp [hs] at h
    | some b =>
      simp only [hs, valid.injEq] at h
      exact h ▸ List.mem_of_find?_eq_some hs
  | _ => simp [member] at h

theorem sequence_map {β : Type} {check : Check β} {f : β → Json} {xs : List β} (h : ∀ x ∈ xs, check (f x) = .valid x) :
    sequence check (.list (xs.map f)) = .valid xs := by
  have hitems : ∀ i, items check i (xs.map f) = .valid xs := by
    induction xs with
    | nil => exact fun _ => rfl
    | cons x xs ih =>
      intro i
      rw [List.map_cons, items, h x List.mem_cons_self, ih fun y hy => h y (List.mem_cons_of_mem x hy)]
      rfl
  exact hitems 0

theorem text_eq_valid {v : Json} {s : String} : text v = .valid s ↔ v = .text s := by
  cases v <;> simp [text]

theorem filledText_eq_valid {v : Json} {s : String} : filledText v = .valid s ↔ v = .text s ∧ s ≠ "" := by
  rw [filledText, andThen_eq_valid]
  constructor
  · rintro ⟨t, ht, hfilled⟩
    by_cases hempty : t.isEmpty
    · simp [hempty] at hfilled
    · rw [if_neg hempty, valid.injEq] at hfilled
      subst hfilled
      exact ⟨text_eq_valid.1 ht, fun heq => hempty (by rw [heq]; rfl)⟩
  · rintro ⟨rfl, hne⟩
    exact ⟨s, rfl, by simp [hne]⟩

theorem filledText_ne {v : Json} {s : String} (h : filledText v = .valid s) : s ≠ "" :=
  (filledText_eq_valid.1 h).2

theorem telling_required (h : ∀ v, (check v).Telling) : (required fs name check).Telling := by
  rw [required]
  split
  · exact (h _).within
  · exact (Telling.complain _).within

theorem telling_optional {absent : α} (h : ∀ v, (check v).Telling) : (optional fs name absent check).Telling := by
  rw [optional]
  split
  · exact (h _).within
  · exact .valid _

theorem telling_nullable (h : ∀ v, (check v).Telling) (v : Json) : (nullable check v).Telling := by
  cases v with
  | null => exact .valid _
  | _ => exact (h _).map

theorem telling_text (v : Json) : (text v).Telling := by
  cases v with
  | text s => exact .valid s
  | _ => exact .complain _

theorem telling_filledText (v : Json) : (filledText v).Telling := by
  refine (telling_text v).andThen fun s => ?_
  split
  · exact .complain _
  · exact .valid s

theorem telling_flag (v : Json) : (flag v).Telling := by
  have hnumber (i : Int) : (flag (.int i)).Telling := by
    change (if i = 0 then Checked.valid false else if i = 1 then .valid true else complain .boolSyntax).Telling
    split
    · exact .valid _
    · split
      · exact .valid _
      · exact .complain _
  cases v with
  | bool b => exact .valid b
  | int i => exact hnumber i
  | float x =>
    rw [flag]
    split
    · split
      · exact hnumber _
      · exact .complain _
    · exact .complain _
  | text s =>
    dsimp only [flag]
    split
    · exact .valid _
    · split
      · exact .valid _
      · exact .complain _
  | _ => exact .complain _

theorem telling_mapping {β : Type} {key : Check α} {value : Check β} (hkey : ∀ v, (key v).Telling)
    (hvalue : ∀ v, (value v).Telling) (v : Json) : (mapping key value v).Telling := by
  have hentries (fields : List (String × Json)) : (entries key value fields).Telling := by
    induction fields with
    | nil => exact .valid _
    | cons e fields ih => exact (((hkey _).within.within.map.seq (hvalue _).within).map).seq ih
  cases v with
  | object fields => exact hentries fields
  | _ => exact .complain _

theorem telling_record (name : String) (v : Json) : (record name v).Telling := by
  cases v with
  | object fields => exact .valid fields
  | _ => exact .complain _

end Check
end HuntDraw
