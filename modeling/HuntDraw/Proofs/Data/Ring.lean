import Mathlib.Data.Fintype.Pigeonhole
import Mathlib.Data.List.Cycle
import Mathlib.Data.Set.Finite.Basic
import Mathlib.Dynamics.PeriodicPts.Defs

/-! Going backwards without end in a finite list: whoever always finds one element before another one runs through a
ring of them. -/

namespace HuntDraw

variable {α β : Type}

theorem chain_reverse {r : α → α → Prop} {ring : Cycle α} :
    ring.reverse.Chain r ↔ ring.Chain fun a b => r b a := by
  induction ring using Quotient.inductionOn' with
  | h l =>
    change (Cycle.reverse (l : Cycle α)).Chain r ↔ (l : Cycle α).Chain _
    cases l with
    | nil => simp
    | cons a l =>
      have hturn : ((a :: l).reverse : Cycle α) = ((a :: l.reverse : List α) : Cycle α) := by
        rw [List.reverse_cons, Cycle.coe_eq_coe]
        exact ⟨l.reverse.length, List.rotate_append_length_eq _ _⟩
      rw [Cycle.reverse_coe, hturn, Cycle.chain_coe_cons, Cycle.chain_coe_cons, ← List.isChain_reverse]
      simp

theorem exists_periodic [Finite β] (f : β → β) (b : β) : ∃ y, y ∈ Function.periodicPts f := by
  obtain ⟨i, j, hne, heq⟩ := Finite.exists_ne_map_eq_of_infinite fun n => f^[n] b
  wlog hlt : i < j generalizing i j
  · exact this j i hne.symm heq.symm (by omega)
  refine ⟨f^[i] b, j - i, by omega, ?_⟩
  rw [Function.IsPeriodicPt, Function.IsFixedPt, ← Function.iterate_add_apply, Nat.sub_add_cancel hlt.le]
  exact heq.symm

/-- Where each element of a list has another one before it, some of them make a ring. -/
theorem exists_ring {s : List α} {r : α → α → Prop} (hne : s ≠ []) (hbefore : ∀ b ∈ s, ∃ a ∈ s, r a b) :
    ∃ ring : Cycle α, ring ≠ Cycle.nil ∧ ring.Nodup ∧ ring.Chain r ∧ ∀ a ∈ ring, a ∈ s := by
  have hstep : ∀ b : {b // b ∈ s}, ∃ a : {a // a ∈ s}, r a b := fun b =>
    let ⟨a, ha, hr⟩ := hbefore b b.2
    ⟨⟨a, ha⟩, hr⟩
  choose before hr using hstep
  have : Finite {b // b ∈ s} := (List.finite_toSet s).to_subtype
  obtain ⟨b, hb⟩ := List.exists_mem_of_ne_nil s hne
  obtain ⟨y, hy⟩ := exists_periodic before ⟨b, hb⟩
  have hchain : (Function.periodicOrbit before y).Chain fun a b : {b // b ∈ s} => r b a := by
    rw [Function.periodicOrbit_chain' _ hy]
    intro n
    rw [Function.iterate_succ_apply']
    exact hr _
  refine ⟨((Function.periodicOrbit before y).map Subtype.val).reverse, ?_, ?_, ?_, ?_⟩
  · have hmem : y.1 ∈ ((Function.periodicOrbit before y).map Subtype.val).reverse :=
      Cycle.mem_reverse_iff.2 (Cycle.mem_map.2 ⟨y, Function.self_mem_periodicOrbit hy, rfl⟩)
    intro hnil
    exact Cycle.notMem_nil _ (hnil ▸ hmem)
  · have hnodup : (Function.periodicOrbit before y).Nodup := Function.nodup_periodicOrbit
    rw [Function.periodicOrbit, Cycle.nodup_coe_iff] at hnodup
    rw [Cycle.nodup_reverse_iff, Function.periodicOrbit, Cycle.map_coe, Cycle.nodup_coe_iff]
    exact hnodup.map Subtype.val_injective
  · rw [chain_reverse, Cycle.chain_map]
    exact hchain
  · intro a ha
    obtain ⟨b, -, rfl⟩ := Cycle.mem_map.1 (Cycle.mem_reverse_iff.1 ha)
    exact b.2

end HuntDraw
