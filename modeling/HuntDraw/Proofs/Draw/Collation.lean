import HuntDraw.Draw.Collation
import HuntDraw.Proofs.Data.Attempt
import HuntDraw.Proofs.Text.Digit
import HuntDraw.Proofs.Text.Order
import Mathlib.Data.List.SplitBy

/-! Keys of texts are totally ordered, and each is the key of one text. A text has a plain key; it has a digit-aware one
where its digits can be read, run by run, and texts that differ in the digits of one run are ordered by the numbers that
these stand for. -/
namespace HuntDraw

open Attempt Std

section Order

namespace KeyPart

variable {m n : Nat} {s t : String}

@[simp] theorem order_number : (number m).order (number n) = compare m n := rfl

@[simp] theorem order_text : (text s).order (text t) = Text.order s t := rfl

@[simp] theorem order_number_text : (number m).order (text t) = .lt := rfl

@[simp] theorem order_text_number : (text s).order (number n) = .gt := rfl

instance : TransCmp order where
  eq_swap {p q} := by
    cases p <;> cases q
    case number.number =>
      rw [order_number, order_number]
      exact OrientedCmp.eq_swap
    case text.text =>
      rw [order_text, order_text]
      exact OrientedCmp.eq_swap
    all_goals rfl
  isLE_trans {p q r} h h' := by
    cases p <;> cases q <;> cases r
    case number.number.number =>
      rw [order_number] at h h' ⊢
      exact TransCmp.isLE_trans h h'
    case text.text.text =>
      rw [order_text] at h h' ⊢
      exact TransCmp.isLE_trans h h'
    all_goals simp_all

instance : LawfulEqCmp order where
  compare_self {p} := by
    cases p
    case number => exact order_number.trans ReflCmp.compare_self
    case text => exact order_text.trans ReflCmp.compare_self
  eq_of_compare {p q} h := by
    cases p <;> cases q
    case number.number => exact congrArg number (LawfulEqOrd.eq_of_compare (order_number.symm.trans h))
    case text.text => exact congrArg text (LawfulEqCmp.eq_of_compare (order_text.symm.trans h))
    all_goals exact nomatch h

end KeyPart

namespace CollationKey

theorem orderParts_eq (ps qs : List KeyPart) : orderParts ps qs = List.compareLex KeyPart.order ps qs := by
  induction ps generalizing qs with
  | nil => cases qs <;> rfl
  | cons p ps ih =>
    cases qs with
    | nil => rfl
    | cons q qs => rw [orderParts, ih, List.compareLex_cons_cons]

theorem orderParts_append (rs ps qs : List KeyPart) : orderParts (rs ++ ps) (rs ++ qs) = orderParts ps qs := by
  induction rs with
  | nil => rfl
  | cons r rs ih =>
    have hself : r.order r = .eq := ReflCmp.compare_self
    rw [List.cons_append, List.cons_append, orderParts, ih, hself]
    rfl

theorem order_eq : order = compareLex (fun a b => List.compareLex KeyPart.order a.parts b.parts)
    (fun a b => Text.order a.raw b.raw) := by
  funext a b
  rw [order, orderParts_eq]
  rfl

instance : TransCmp order := by
  have hparts : TransCmp fun a b : CollationKey => List.compareLex KeyPart.order a.parts b.parts :=
    { eq_swap := OrientedCmp.eq_swap, isLE_trans := TransCmp.isLE_trans }
  have hraw : TransCmp fun a b : CollationKey => Text.order a.raw b.raw :=
    { eq_swap := OrientedCmp.eq_swap, isLE_trans := TransCmp.isLE_trans }
  exact order_eq ▸ inferInstance

instance : LawfulEqCmp order where
  compare_self := ReflCmp.compare_self
  eq_of_compare {a b} h := by
    obtain ⟨hparts, hraw⟩ := Ordering.then_eq_eq.1 h
    rw [orderParts_eq] at hparts
    cases a
    cases b
    exact congr (congrArg mk (LawfulEqCmp.eq_of_compare hparts)) (LawfulEqCmp.eq_of_compare hraw)

end CollationKey

end Order

section Runs

namespace Text

/-- A run in the text around it that is as long as can be, of decimal digits or of other characters. -/
structure MaximalRun (decimal : Bool) (before run after : List Char) : Prop where
  filled : run ≠ []
  same : ∀ c ∈ run, isDecimal c = decimal
  starts : ∀ c ∈ before.getLast?, isDecimal c ≠ decimal
  ends : ∀ c ∈ after.head?, isDecimal c ≠ decimal

def sameKind (c d : Char) : Bool := isDecimal c == isDecimal d

end Text

namespace CollationKey

open Text

variable {before run after cs : List Char} {decimal : Bool}

theorem isChain_sameKind {c : Char} :
    (c :: cs).IsChain (fun a b => sameKind a b) ↔ ∀ d ∈ cs, isDecimal d = isDecimal c := by
  induction cs generalizing c with
  | nil => simp
  | cons d cs ih =>
    rw [List.isChain_cons_cons, ih, List.forall_mem_cons, sameKind, beq_iff_eq, eq_comm]
    exact and_congr_right fun h => by rw [h]

/-- Runs of digits and of other characters are those whose neighbours are of one kind. -/
theorem splitBy_sameKind (cs : List Char) : cs.splitBy sameKind = digitRuns cs := by
  induction cs with
  | nil => rfl
  | cons c cs ih =>
    obtain ⟨hflat, hfilled, hchains, hapart⟩ := List.splitBy_eq_iff.1 ih
    rw [List.splitBy_eq_iff, digitRuns]
    rcases hruns : digitRuns cs with _ | ⟨_ | ⟨d, ds⟩, runs⟩ <;> rw [hruns] at hflat hfilled hchains hapart
    · subst hflat
      exact ⟨rfl, by simp, by simp, List.isChain_singleton _⟩
    · exact absurd List.mem_cons_self hfilled
    · have hne : ([] : List Char) ∉ runs := fun h => hfilled (List.mem_cons_of_mem _ h)
      rw [List.forall_mem_cons] at hchains
      by_cases hsame : isDecimal c = isDecimal d
      · simp only [if_pos hsame]
        refine ⟨by rw [hflat]; rfl, by simpa using hne, ?_, by simpa [List.isChain_cons] using hapart⟩
        exact List.forall_mem_cons.2 ⟨List.isChain_cons_cons.2 ⟨beq_iff_eq.2 hsame, hchains.1⟩, hchains.2⟩
      · simp only [if_neg hsame]
        refine ⟨by rw [hflat]; rfl, by simpa using hne, ?_, List.isChain_cons_cons.2 ⟨?_, hapart⟩⟩
        · exact List.forall_mem_cons.2 ⟨List.isChain_singleton _, List.forall_mem_cons.2 hchains⟩
        · exact ⟨List.cons_ne_nil _ _, List.cons_ne_nil _ _, beq_eq_false_iff_ne.2 hsame⟩

theorem digitRuns_append (h : MaximalRun decimal before run after) :
    digitRuns (before ++ (run ++ after)) = digitRuns before ++ run :: digitRuns after := by
  have hchain : run.IsChain fun a b => sameKind a b := by
    cases run with
    | nil => exact List.isChain_nil
    | cons c cs =>
      have hall := List.forall_mem_cons.1 h.same
      exact isChain_sameKind.2 fun d hd => (hall.2 d hd).trans hall.1.symm
  have hends : ∀ c ∈ run.getLast?, ∀ d ∈ after.head?, sameKind c d = false := fun c hc d hd => by
    rw [sameKind, h.same c (List.mem_of_getLast? hc)]
    exact beq_eq_false_iff_ne.2 (h.ends d hd).symm
  have hstarts : ∀ c ∈ before.getLast?, ∀ d ∈ (run ++ after).head?, sameKind c d = false := fun c hc d hd => by
    rw [List.head?_append_of_ne_nil _ h.filled] at hd
    rw [sameKind, h.same d (List.mem_of_mem_head? hd)]
    exact beq_eq_false_iff_ne.2 (h.starts c hc)
  simp only [← splitBy_sameKind]
  rw [List.splitBy_append hstarts, List.splitBy_append hends, List.splitBy_of_isChain h.filled hchain,
    List.singleton_append]

theorem maximalRun_of_mem (h : run ∈ digitRuns cs) :
    ∃ decimal before after, cs = before ++ (run ++ after) ∧ MaximalRun decimal before run after := by
  obtain ⟨runs, runs', hruns⟩ := List.append_of_mem h
  obtain ⟨hflat, hfilled, hchains, hapart⟩ := List.splitBy_eq_iff.1 (splitBy_sameKind cs)
  rw [hruns] at hflat hfilled hchains hapart
  obtain ⟨c, run, rfl⟩ := List.exists_cons_of_ne_nil fun hnil : run = [] => hfilled (by simp [hnil])
  have hsame : ∀ d ∈ c :: run, isDecimal d = isDecimal c :=
    List.forall_mem_cons.2 ⟨rfl, isChain_sameKind.1 (hchains _ (List.mem_append_right _ List.mem_cons_self))⟩
  obtain ⟨-, hright, hleft⟩ := List.isChain_append.1 hapart
  refine ⟨isDecimal c, runs.flatten, runs'.flatten, by simpa using hflat, List.cons_ne_nil _ _, hsame,
    fun d hd => ?_, fun d hd => ?_⟩
  · rcases runs.eq_nil_or_concat with rfl | ⟨runs, last, rfl⟩
    · exact nomatch hd
    · obtain ⟨hlast, _, hdiffers⟩ := hleft last (by simp) (c :: run) (by simp)
      rw [List.concat_eq_append, List.flatten_append, List.flatten_singleton, List.getLast?_append_of_ne_nil _ hlast,
        List.getLast?_eq_some_getLast hlast, Option.mem_some_iff] at hd
      exact hd ▸ beq_eq_false_iff_ne.1 hdiffers
  · cases runs' with
    | nil => exact nomatch hd
    | cons next runs' =>
      obtain ⟨hrun, hnext, hdiffers⟩ := (List.isChain_cons_cons.1 hright).1
      rw [List.flatten_cons, List.head?_append_of_ne_nil _ hnext, List.head?_eq_some_head hnext,
        Option.mem_some_iff] at hd
      rw [← hd, ← hsame _ (List.getLast_mem hrun)]
      exact (beq_eq_false_iff_ne.1 hdiffers).symm

/-- Characters of one kind in front of a text are a run of their own, or go on in its first run. -/
theorem digitRuns_append_same {c : Char} (hsame : ∀ d ∈ cs, isDecimal d = isDecimal c) (after : List Char) :
    digitRuns (c :: (cs ++ after)) = match digitRuns after with
      | (d :: ds) :: runs =>
        if isDecimal c = isDecimal d then (c :: (cs ++ d :: ds)) :: runs else (c :: cs) :: (d :: ds) :: runs
      | runs => (c :: cs) :: runs := by
  induction cs generalizing c with
  | nil => rfl
  | cons e cs ih =>
    obtain ⟨he, hsame⟩ := List.forall_mem_cons.1 hsame
    rw [List.cons_append, digitRuns, ih fun d hd => (hsame d hd).trans he.symm]
    rcases digitRuns after with _ | ⟨_ | ⟨d, ds⟩, runs⟩
    · simp [he]
    · simp [he]
    · by_cases hd : isDecimal e = isDecimal d <;> simp [hd, ← he]

theorem exists_foldChar (c : Char) :
    ∃ e es, foldChar c = e :: es ∧ isDecimal e = isDecimal c ∧ ∀ d ∈ es, isDecimal d = isDecimal e := by
  obtain ⟨hne, hkind⟩ := foldChar_kind c
  obtain ⟨e, es, hfold⟩ := List.exists_cons_of_ne_nil hne
  rw [hfold, List.forall_mem_cons] at hkind
  exact ⟨e, es, hfold, hkind.1.2, fun d hd => (hkind.2 d hd).2.trans hkind.1.2.symm⟩

theorem digitRuns_foldCase (cs : List Char) : digitRuns (foldCase cs) = (digitRuns cs).map foldCase := by
  have hcons : ∀ c cs, foldCase (c :: cs) = foldChar c ++ foldCase cs := fun c cs => List.flatMap_cons
  induction cs with
  | nil => rfl
  | cons c cs ih =>
    obtain ⟨e, es, hfold, he, hsame⟩ := exists_foldChar c
    rw [hcons, hfold, List.cons_append, digitRuns_append_same hsame, ih, digitRuns]
    rcases digitRuns cs with _ | ⟨_ | ⟨d, ds⟩, runs⟩
    · simp [hfold, foldCase]
    · simp [hfold, foldCase]
    · obtain ⟨e', es', hfold', he', -⟩ := exists_foldChar d
      by_cases hd : isDecimal c = isDecimal d
      · simp [hfold, hfold', he, he', hd, foldCase]
      · simp [hfold, hfold', he, he', hd, foldCase]

end CollationKey

end Runs

section Keys

namespace Text

/-- A text that can be ordered by its digits: no decimal digits make a numeral that is too long, and no row of
characters between them is made only of digits that no numeral is made of. -/
structure Collates (cs : List Char) : Prop where
  short : ∀ before run after, cs = before ++ (run ++ after) → MaximalRun true before run after →
    run.length ≤ numeralLimit
  worded : ∀ before run after, cs = before ++ (run ++ after) → MaximalRun false before run after →
    ∃ c ∈ run, isDigit c = false

end Text

namespace CollationKey

open Text

variable {before run run' after : List Char} {s t : String} {a b : CollationKey} {numeric : Bool}

theorem partOf_decimal (h : MaximalRun true before run after) {part : KeyPart} :
    partOf (foldCase run) = .ok part ↔ run.length ≤ numeralLimit ∧ part = .number (numeralValue run) := by
  have hdigits : run.all isDigit := List.all_eq_true.2 fun c hc => by rw [isDigit, h.same c hc, Bool.true_or]
  rw [foldCase_eq_self hdigits, partOf, if_pos hdigits, map_eq_ok]
  simp only [mapError_eq_ok, parseNumeral_eq_ok]
  constructor
  · rintro ⟨n, ⟨-, -, hlength, rfl⟩, rfl⟩
    exact ⟨hlength, rfl⟩
  · rintro ⟨hlength, rfl⟩
    exact ⟨_, ⟨h.filled, h.same, hlength, rfl⟩, rfl⟩

theorem partOf_other (h : MaximalRun false before run after) :
    (∃ part, partOf (foldCase run) = .ok part) ↔ ∃ c ∈ run, isDigit c = false := by
  rw [partOf, all_isDigit_foldCase]
  split_ifs with hdigits
  · refine iff_of_false ?_ fun ⟨c, hc, hother⟩ => nomatch hother.symm.trans (List.all_eq_true.1 hdigits c hc)
    rintro ⟨part, hpart⟩
    obtain ⟨n, hread, -⟩ := map_eq_ok.1 hpart
    rw [foldCase_eq_self hdigits, mapError_eq_ok, parseNumeral_eq_ok] at hread
    obtain ⟨c, hc⟩ := List.exists_mem_of_ne_nil _ h.filled
    exact nomatch (h.same c hc).symm.trans (hread.2.1 c hc)
  · exact iff_of_true ⟨_, rfl⟩ (by simpa using hdigits)

theorem ofText_numeric (s : String) :
    ofText s true = (fun parts => ⟨parts, s⟩) <$> (digitRuns s.toList).mapM fun run => partOf (foldCase run) := by
  rw [ofText, if_pos rfl, digitRuns_foldCase, List.mapM_map]
  rfl

/-- A text has a key where it can be ordered in the way that is asked for. -/
theorem exists_ofText : (∃ k, ofText s numeric = .ok k) ↔ (numeric = true → Collates s.toList) := by
  cases numeric with
  | false => exact iff_of_true ⟨plain s, rfl⟩ nofun
  | true =>
    rw [ofText_numeric]
    simp only [map_eq_ok, forall_const]
    constructor
    · rintro ⟨-, parts, hparts, -⟩
      have hpart : ∀ before run after, s.toList = before ++ (run ++ after) → ∀ {decimal},
          MaximalRun decimal before run after → ∃ part, partOf (foldCase run) = .ok part := by
        intro before run after hs decimal hrun
        have hmem : run ∈ digitRuns s.toList := by
          rw [hs, digitRuns_append hrun]
          exact List.mem_append_right _ List.mem_cons_self
        obtain ⟨part, -, hpart⟩ := (mapM_mem hparts).2 run hmem
        exact ⟨part, hpart⟩
      refine ⟨fun before run after hs hrun => ?_, fun before run after hs hrun => ?_⟩
      · obtain ⟨part, hpart⟩ := hpart before run after hs hrun
        exact ((partOf_decimal hrun).1 hpart).1
      · exact (partOf_other hrun).1 (hpart before run after hs hrun)
    · intro h
      obtain ⟨parts, hparts⟩ : ∃ parts, (digitRuns s.toList).mapM (fun run => partOf (foldCase run)) = .ok parts := by
        refine mapM_total fun run hmem => ?_
        obtain ⟨decimal, before, after, hs, hrun⟩ := maximalRun_of_mem hmem
        cases decimal with
        | false => exact (partOf_other hrun).2 (h.worded before run after hs hrun)
        | true => exact ⟨_, (partOf_decimal hrun).2 ⟨h.short before run after hs hrun, rfl⟩⟩
      exact ⟨_, parts, hparts, rfl⟩

theorem raw_of_ofText (h : ofText s numeric = .ok a) : a.raw = s := by
  rw [ofText] at h
  split_ifs at h
  · obtain ⟨parts, -, rfl⟩ := map_eq_ok.1 h
    rfl
  · cases h
    rfl

theorem parts_of_ofText (hs : s.toList = before ++ (run ++ after)) (hrun : MaximalRun true before run after)
    (h : ofText s true = .ok a) : ∃ ps qs, (digitRuns before).mapM (fun run => partOf (foldCase run)) = .ok ps ∧
      (digitRuns after).mapM (fun run => partOf (foldCase run)) = .ok qs ∧
      a.parts = ps ++ .number (numeralValue run) :: qs := by
  rw [ofText_numeric, hs, digitRuns_append hrun] at h
  obtain ⟨parts, hparts, rfl⟩ := map_eq_ok.1 h
  rw [List.mapM_append, bind_eq_ok] at hparts
  obtain ⟨ps, hps, hparts⟩ := hparts
  obtain ⟨rest, hrest, hparts⟩ := bind_eq_ok.1 hparts
  rw [List.mapM_cons, bind_eq_ok] at hrest
  obtain ⟨part, hpart, hrest⟩ := hrest
  obtain ⟨qs, hqs, hrest⟩ := bind_eq_ok.1 hrest
  obtain ⟨-, rfl⟩ := (partOf_decimal hrun).1 hpart
  cases hrest
  cases hparts
  exact ⟨ps, qs, hps, hqs, rfl⟩

/-- What the keys of two texts say of these: how they compare is turned around with them, they are alike for one text
only, plain ones follow the foldings, and digit-aware ones the numbers where only the digits of one run differ. -/
structure Orders (numeric : Bool) (s t : String) (a b : CollationKey) : Prop where
  swaps : b.order a = (a.order b).swap
  tells : (a = b ↔ s = t) ∧ (a.order b = .eq ↔ s = t)
  folds : numeric = false → foldCase s.toList ≠ foldCase t.toList →
    a.order b = Text.order (String.ofList (foldCase s.toList)) (String.ofList (foldCase t.toList))
  counts : numeric = true → ∀ before run run' after,
    s.toList = before ++ (run ++ after) → MaximalRun true before run after →
    t.toList = before ++ (run' ++ after) → MaximalRun true before run' after →
    numeralValue run ≠ numeralValue run' → a.order b = compare (numeralValue run) (numeralValue run')

theorem order_of_foldings (h : foldCase s.toList ≠ foldCase t.toList) : (plain s).order (plain t) =
    Text.order (String.ofList (foldCase s.toList)) (String.ofList (foldCase t.toList)) := by
  have hne : Text.order (String.ofList (foldCase s.toList)) (String.ofList (foldCase t.toList)) ≠ .eq := fun heq =>
    h (String.ofList_injective (LawfulEqCmp.eq_of_compare heq))
  rw [order, plain, plain, orderParts, KeyPart.order_text, then_of_ne hne, then_of_ne hne]

theorem order_of_runs (hs : s.toList = before ++ (run ++ after)) (hrun : MaximalRun true before run after)
    (ht : t.toList = before ++ (run' ++ after)) (hrun' : MaximalRun true before run' after)
    (ha : ofText s true = .ok a) (hb : ofText t true = .ok b) (hne : numeralValue run ≠ numeralValue run') :
    a.order b = compare (numeralValue run) (numeralValue run') := by
  obtain ⟨ps, qs, hps, hqs, hparts⟩ := parts_of_ofText hs hrun ha
  obtain ⟨ps', qs', hps', hqs', hparts'⟩ := parts_of_ofText ht hrun' hb
  cases hps.symm.trans hps'
  cases hqs.symm.trans hqs'
  have hvalues : compare (numeralValue run) (numeralValue run') ≠ .eq := fun heq => hne (LawfulEqOrd.eq_of_compare heq)
  rw [order, hparts, hparts', orderParts_append, orderParts, KeyPart.order_number, then_of_ne hvalues,
    then_of_ne hvalues]

theorem orders_of_ofText (ha : ofText s numeric = .ok a) (hb : ofText t numeric = .ok b) : Orders numeric s t a b where
  swaps := OrientedCmp.eq_swap
  tells := by
    have hkeys : a = b ↔ s = t := by
      constructor
      · rintro rfl
        exact (raw_of_ofText ha).symm.trans (raw_of_ofText hb)
      · rintro rfl
        exact Except.ok.inj (ha.symm.trans hb)
    exact ⟨hkeys, LawfulEqCmp.compare_eq_iff_eq.trans hkeys⟩
  folds hnumeric hne := by
    subst hnumeric
    cases ha
    cases hb
    exact order_of_foldings hne
  counts hnumeric before run run' after hs hrun ht hrun' hne := by
    subst hnumeric
    exact order_of_runs hs hrun ht hrun' ha hb hne

/-- Keys order texts: every text has a plain key, and a digit-aware one where its digits can be read, and the keys of
one kind are in a total order in which only one text has a key. -/
theorem ofText_orders (numeric : Bool) :
    (∀ s, (∃ k, ofText s numeric = .ok k) ↔ (numeric = true → Collates s.toList)) ∧
    (∀ s t a b, ofText s numeric = .ok a → ofText t numeric = .ok b → Orders numeric s t a b) ∧
    ∀ a b c : CollationKey, (a.order b).isLE → (b.order c).isLE → (a.order c).isLE :=
  ⟨fun _ => exists_ofText, fun _ _ _ _ => orders_of_ofText, fun _ _ _ => TransCmp.isLE_trans⟩

/-- Digits behind the same letters are ordered by their values. -/
theorem ofText_orders_codes :
    let a : CollationKey := ⟨[.text "hc", .number 9], "HC9"⟩
    let b : CollationKey := ⟨[.text "hc", .number 10], "HC10"⟩
    ofText "HC9" true = .ok a ∧ ofText "HC10" true = .ok b ∧ a.order b = .lt ∧ b.order a = .gt := by
  intro a b
  have ha : ofText "HC9" true = .ok a := by decide +kernel
  have hb : ofText "HC10" true = .ok b := by decide +kernel
  obtain ⟨-, horders, -⟩ := ofText_orders true
  have hnine : MaximalRun true ['H', 'C'] ['9'] [] :=
    ⟨by decide, List.all_eq_true.1 (by decide), fun | _, rfl => by decide, nofun⟩
  have hten : MaximalRun true ['H', 'C'] ['1', '0'] [] :=
    ⟨by decide, List.all_eq_true.1 (by decide), fun | _, rfl => by decide, nofun⟩
  have hlt := (horders _ _ _ _ ha hb).counts rfl _ _ _ _ rfl hnine rfl hten (by decide +kernel)
  refine ⟨ha, hb, hlt.trans (by decide +kernel), ?_⟩
  rw [(horders _ _ _ _ ha hb).swaps, hlt]
  decide +kernel

/-- Not every text has a digit-aware key: a superscript is a digit, and no numeral is made of it. -/
theorem not_ofText_total : ¬∀ s numeric, ∃ k, ofText s numeric = .ok k := by
  intro h
  have hrun : MaximalRun false [] ['²'] [] :=
    ⟨by decide, List.forall_mem_singleton.2 (by decide +kernel), nofun, nofun⟩
  obtain ⟨c, hc, hother⟩ := (exists_ofText.1 (h "²" true) rfl).worded [] ['²'] [] rfl hrun
  rw [List.mem_singleton.1 hc] at hother
  exact absurd hother (by decide +kernel)

end CollationKey

end Keys

end HuntDraw
