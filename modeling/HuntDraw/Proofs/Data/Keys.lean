import HuntDraw.Proofs.Data.Attempt
import Mathlib.Data.List.Induction
import Mathlib.Data.List.Nodup

/-! Elements and their keys. Keys without their repetitions stand in the order in which they first appear, and different
keys part the elements that have one of them. -/

namespace HuntDraw

open Attempt

variable {ε α β κ : Type}

theorem eraseDups_concat [BEq κ] [LawfulBEq κ] (ks : List κ) (k : κ) :
    (ks ++ [k]).eraseDups = if k ∈ ks then ks.eraseDups else ks.eraseDups ++ [k] := by
  rw [List.eraseDups_append]
  by_cases h : k ∈ ks <;> simp [List.removeAll, h, List.eraseDups_cons]

theorem nodup_eraseDups [BEq κ] [LawfulBEq κ] (ks : List κ) : ks.eraseDups.Nodup := by
  induction ks using List.reverseRecOn with
  | nil => exact List.nodup_nil
  | append_singleton ks k ih =>
    rw [eraseDups_concat]
    split_ifs with h
    · exact ih
    · refine List.nodup_append.2 ⟨ih, by simp, fun k' hk' l hl => ?_⟩
      rw [List.mem_singleton.1 hl]
      exact ne_of_mem_of_not_mem (List.mem_eraseDups.1 hk') h

theorem eraseDups_of_nodup [BEq κ] [LawfulBEq κ] {ks : List κ} (h : ks.Nodup) : ks.eraseDups = ks := by
  induction ks using List.reverseRecOn with
  | nil => rfl
  | append_singleton ks k ih =>
    obtain ⟨hks, -, hdisjoint⟩ := List.nodup_append'.1 h
    rw [eraseDups_concat, if_neg (List.disjoint_singleton.1 hdisjoint), ih hks]

/-- The elements with one of some different keys are those with the first key, those with the second one, and so on. -/
theorem flatMap_filter_key_perm [DecidableEq κ] {key : α → κ} {ks : List κ} (hks : ks.Nodup) (xs : List α) :
    (ks.flatMap fun k => xs.filter (key · = k)).Perm (xs.filter (key · ∈ ks)) := by
  induction ks with
  | nil => simp
  | cons k ks ih =>
    obtain ⟨hk, hks⟩ := List.nodup_cons.1 hks
    have hfirst : (xs.filter (key · ∈ k :: ks)).filter (key · = k) = xs.filter (key · = k) := by
      rw [List.filter_filter]
      refine List.filter_congr fun x _ => ?_
      simp +contextual
    have hothers : (xs.filter (key · ∈ k :: ks)).filter (fun x => !decide (key x = k)) = xs.filter (key · ∈ ks) := by
      rw [List.filter_filter]
      refine List.filter_congr fun x _ => ?_
      have hne : key x ∈ ks → key x ≠ k := fun hx => ne_of_mem_of_not_mem hx hk
      rw [Bool.eq_iff_iff]
      simp only [List.mem_cons, Bool.and_eq_true, Bool.not_eq_true', decide_eq_true_eq, decide_eq_false_iff_not]
      exact ⟨fun ⟨hfirst, hx⟩ => hx.resolve_left hfirst, fun hx => ⟨hne hx, .inr hx⟩⟩
    have hparts := List.filter_append_perm (fun x => decide (key x = k)) (xs.filter (key · ∈ k :: ks))
    rw [hfirst, hothers] at hparts
    rw [List.flatMap_cons]
    exact ((ih hks).append_left _).trans hparts

/-- Where each step puts the key of its element behind the others, unless it is there, a chain of steps comes to the
keys of its elements without their repetitions. -/
theorem foldlM_eraseDups [BEq κ] [LawfulBEq κ] {f : β → α → Except ε β} (keys : β → List κ) (key : α → κ)
    (hstep : ∀ b x c, f b x = .ok c → keys c = if key x ∈ keys b then keys b else keys b ++ [key x]) {xs : List α}
    {b c : β} (h : xs.foldlM f b = .ok c) (hb : keys b = []) : keys c = (xs.map key).eraseDups := by
  induction xs using List.reverseRecOn generalizing c with
  | nil => rw [← pure_eq_ok.1 h, hb]; rfl
  | append_singleton xs x ih =>
    rw [List.foldlM_append, bind_eq_ok] at h
    obtain ⟨d, hd, hlast⟩ := h
    obtain ⟨c, hc, hpure⟩ := bind_eq_ok.1 hlast
    obtain rfl := pure_eq_ok.1 hpure
    rw [hstep d x c hc, ih hd, List.map_append, List.map_singleton, eraseDups_concat]
    simp only [List.mem_eraseDups]

end HuntDraw
