import HuntDraw.Text.Blank
import Mathlib.Data.List.DropRight
import Mathlib.Data.List.TakeWhile

/-! Runs of characters with a property: the one that a text starts with ends where another character follows. Trimmed
texts: a text without blanks at its ends is left as it is, and trimming leaves such a text. -/

namespace HuntDraw.Text

/-- Not empty, and without blanks at its ends. -/
def Filled (s : String) : Prop := s ≠ "" ∧ strip s = s

instance (s : String) : Decidable (Filled s) := inferInstanceAs (Decidable (_ ∧ _))

variable {p : Char → Bool} {cs : List Char}

theorem scan_append {c : Char} {body : List Char} (hbody : ∀ d ∈ body, p d) (hc : p c = false) (rest : List Char) :
    (body ++ c :: rest).takeWhile p = body ∧ (body ++ c :: rest).dropWhile p = c :: rest := by
  rw [List.takeWhile_append_of_pos hbody, List.dropWhile_append_of_pos hbody]
  simp [hc]

theorem eq_scan_append {c : Char} {rest : List Char} (h : cs.dropWhile p = c :: rest) :
    cs = cs.takeWhile p ++ c :: rest ∧ p c = false := by
  have hhead := List.head?_dropWhile_not p cs
  rw [h] at hhead
  exact ⟨by rw [← h, List.takeWhile_append_dropWhile], hhead⟩

theorem dropWhile_eq (h : ∀ c ∈ cs.head?, p c = false) : cs.dropWhile p = cs := by
  cases cs with
  | nil => rfl
  | cons c cs => simp [h c rfl]

theorem trimChars_eq (hhead : ∀ c ∈ cs.head?, p c = false) (hlast : ∀ c ∈ cs.getLast?, p c = false) :
    trimChars p cs = cs := by
  have hreverse : ∀ c ∈ cs.reverse.head?, p c = false := fun c hc => hlast c (List.head?_reverse ▸ hc)
  rw [trimChars, dropWhile_eq hhead, dropWhile_eq hreverse, List.reverse_reverse]

theorem trimChars_eq_of_forall (h : ∀ c ∈ cs, p c = false) : trimChars p cs = cs :=
  trimChars_eq (fun c hc => h c (List.mem_of_mem_head? hc)) fun c hc => h c (List.mem_of_mem_getLast? hc)

theorem head?_dropWhile (p : Char → Bool) (cs : List Char) : ∀ c ∈ (cs.dropWhile p).head?, p c = false := by
  intro c hc
  simpa [Option.mem_def.1 hc] using List.head?_dropWhile_not p cs

theorem trimChars_trimChars (p : Char → Bool) (cs : List Char) : trimChars p (trimChars p cs) = trimChars p cs := by
  refine trimChars_eq (fun c hc => ?_) fun c hc => ?_
  · -- what is left at the front was there before the end was trimmed
    have hstarts : trimChars p cs <+: cs.dropWhile p := List.rdropWhile_prefix p _
    obtain ⟨rest, hrest⟩ := hstarts
    refine head?_dropWhile p cs c ?_
    rw [← hrest, List.head?_append, Option.mem_def.1 hc]
    rfl
  · rw [trimChars, List.getLast?_reverse] at hc
    exact head?_dropWhile p _ c hc

/-- What stands between characters with the property, and has none of them, is left. -/
theorem trimChars_append {before after : List Char} (hbefore : ∀ c ∈ before, p c) (hafter : ∀ c ∈ after, p c)
    (hcs : ∀ c ∈ cs, p c = false) (hne : cs ≠ []) : trimChars p (before ++ cs ++ after) = cs := by
  have hfront : (cs ++ after).dropWhile p = cs ++ after := dropWhile_eq fun c hc => by
    rw [List.head?_append_of_ne_nil _ hne] at hc
    exact hcs c (List.mem_of_mem_head? hc)
  have hback : cs.reverse.dropWhile p = cs.reverse := dropWhile_eq fun c hc =>
    hcs c (List.mem_reverse.1 (List.mem_of_mem_head? hc))
  rw [trimChars, List.append_assoc, List.dropWhile_append_of_pos hbefore, hfront, List.reverse_append,
    List.dropWhile_append_of_pos fun c hc => hafter c (List.mem_reverse.1 hc), hback, List.reverse_reverse]

theorem exists_trimChars (p : Char → Bool) (cs : List Char) : ∃ before after,
    cs = before ++ trimChars p cs ++ after ∧ (∀ c ∈ before, p c) ∧ ∀ c ∈ after, p c := by
  refine ⟨cs.takeWhile p, ((cs.dropWhile p).reverse.takeWhile p).reverse, ?_, fun c => List.mem_takeWhile_imp,
    fun c hc => List.mem_takeWhile_imp (List.mem_reverse.1 hc)⟩
  rw [trimChars, List.append_assoc, ← List.reverse_append, List.takeWhile_append_dropWhile, List.reverse_reverse,
    List.takeWhile_append_dropWhile]

theorem strip_strip (s : String) : strip (strip s) = strip s := by
  rw [strip, strip, String.toList_ofList, trimChars_trimChars]

end HuntDraw.Text
