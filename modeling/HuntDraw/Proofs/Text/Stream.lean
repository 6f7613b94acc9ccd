import HuntDraw.Proofs.Text.Utf8
import HuntDraw.Text.Stream

/-! Text that is decoded piece by piece is the text that is decoded at once. Only the place of a fault is counted
otherwise, so what is compared is whether there is a text, and which. -/

namespace HuntDraw.Text

open Attempt

variable {pos : Nat} {bs xs ys : Bytes} {cs : List Char} {f : Utf8Fault}

/-- Bytes taken apart into characters, up to the first fault. It is all the same where they stand, and only an end that
comes too early is no fault with more bytes behind it. -/
inductive Spelled : Bytes → Prop
  | nil : Spelled []
  | char (unit : Bytes) {c : Char} {rest : Bytes} :
      (∀ pos rest, decodeFrom pos (unit ++ rest) = (c :: ·) <$> decodeFrom (pos + unit.length) rest) →
      Spelled rest → Spelled (unit ++ rest)
  | cut {bs : Bytes} : (∀ pos, decodeFrom pos bs = .error ⟨.unexpectedEnd, pos, bs⟩) → Spelled bs
  | fault {bs : Bytes} (kind : Utf8Fault.Kind) (bad : Bytes) : kind ≠ .unexpectedEnd →
      (∀ pos more, decodeFrom pos (bs ++ more) = .error ⟨kind, pos, bad⟩) → Spelled bs

theorem spelled_of_two {b : UInt8} {rest : Bytes} (hlow : 0xC2 ≤ b) (hhigh : b < 0xE0)
    (hrest : ∀ xs : Bytes, xs.length < (b :: rest).length → Spelled xs) : Spelled (b :: rest) := by
  have h80 : ¬b < 0x80 := UInt8.not_lt.2 (UInt8.le_trans (by decide) hlow)
  have hC2 : ¬b < 0xC2 := UInt8.not_lt.2 hlow
  rcases rest with _ | ⟨c, rest⟩
  · refine .cut fun pos => ?_
    rw [decodeFrom.eq_def]
    simp only [h80, hC2, hhigh, if_true, if_false]
  · by_cases hc : isContinuation c
    · exact .char [b, c] (fun pos rest => decodeFrom_two hlow hhigh hc) (hrest rest (by grind))
    · refine .fault .invalidContinuation [b] (by decide) fun pos more => ?_
      rw [List.cons_append, List.cons_append, decodeFrom.eq_def]
      simp only [h80, hC2, hhigh, hc, if_true, if_false, Bool.not_false]

theorem spelled_of_three {b : UInt8} {rest : Bytes} (hlow : 0xE0 ≤ b) (hhigh : b < 0xF0)
    (hrest : ∀ xs : Bytes, xs.length < (b :: rest).length → Spelled xs) : Spelled (b :: rest) := by
  have h80 : ¬b < 0x80 := UInt8.not_lt.2 (UInt8.le_trans (by decide) hlow)
  have hC2 : ¬b < 0xC2 := UInt8.not_lt.2 (UInt8.le_trans (by decide) hlow)
  have hE0 : ¬b < 0xE0 := UInt8.not_lt.2 hlow
  rcases rest with _ | ⟨c, rest⟩
  · refine .cut fun pos => ?_
    rw [decodeFrom.eq_def]
    simp only [h80, hC2, hE0, hhigh, if_true, if_false]
  by_cases hc : mayFollow b c
  swap
  · refine .fault .invalidContinuation [b] (by decide) fun pos more => ?_
    rw [List.cons_append, List.cons_append, decodeFrom.eq_def]
    rcases rest ++ more with _ | ⟨d, more⟩ <;>
      simp only [h80, hC2, hE0, hhigh, hc, if_true, if_false, Bool.not_false]
  rcases rest with _ | ⟨d, rest⟩
  · refine .cut fun pos => ?_
    rw [decodeFrom.eq_def]
    simp only [h80, hC2, hE0, hhigh, hc, if_true, if_false, Bool.not_true, Bool.false_eq_true]
  by_cases hd : isContinuation d
  · exact .char [b, c, d] (fun pos rest => decodeFrom_three hlow hhigh hc hd) (hrest rest (by grind))
  · refine .fault .invalidContinuation [b, c] (by decide) fun pos more => ?_
    rw [List.cons_append, List.cons_append, List.cons_append, decodeFrom.eq_def]
    simp only [h80, hC2, hE0, hhigh, hc, hd, if_true, if_false, Bool.not_false, Bool.not_true, Bool.false_eq_true]

theorem spelled_of_four {b : UInt8} {rest : Bytes} (hlow : 0xF0 ≤ b) (hhigh : b < 0xF5)
    (hrest : ∀ xs : Bytes, xs.length < (b :: rest).length → Spelled xs) : Spelled (b :: rest) := by
  have h80 : ¬b < 0x80 := UInt8.not_lt.2 (UInt8.le_trans (by decide) hlow)
  have hC2 : ¬b < 0xC2 := UInt8.not_lt.2 (UInt8.le_trans (by decide) hlow)
  have hE0 : ¬b < 0xE0 := UInt8.not_lt.2 (UInt8.le_trans (by decide) hlow)
  have hF0 : ¬b < 0xF0 := UInt8.not_lt.2 hlow
  rcases rest with _ | ⟨c, rest⟩
  · refine .cut fun pos => ?_
    rw [decodeFrom.eq_def]
    simp only [h80, hC2, hE0, hF0, hhigh, if_true, if_false]
  by_cases hc : mayFollow b c
  swap
  · refine .fault .invalidContinuation [b] (by decide) fun pos more => ?_
    rw [List.cons_append, List.cons_append, decodeFrom.eq_def]
    rcases rest ++ more with _ | ⟨d, _ | ⟨e, more⟩⟩ <;>
      simp only [h80, hC2, hE0, hF0, hhigh, hc, if_true, if_false, Bool.not_false]
  rcases rest with _ | ⟨d, rest⟩
  · refine .cut fun pos => ?_
    rw [decodeFrom.eq_def]
    simp only [h80, hC2, hE0, hF0, hhigh, hc, if_true, if_false, Bool.not_true, Bool.false_eq_true]
  by_cases hd : isContinuation d
  swap
  · refine .fault .invalidContinuation [b, c] (by decide) fun pos more => ?_
    rw [List.cons_append, List.cons_append, List.cons_append, decodeFrom.eq_def]
    rcases rest ++ more with _ | ⟨e, more⟩ <;>
      simp only [h80, hC2, hE0, hF0, hhigh, hc, hd, if_true, if_false, Bool.not_false, Bool.not_true,
        Bool.false_eq_true]
  rcases rest with _ | ⟨e, rest⟩
  · refine .cut fun pos => ?_
    rw [decodeFrom.eq_def]
    simp only [h80, hC2, hE0, hF0, hhigh, hc, hd, if_true, if_false, Bool.not_true, Bool.false_eq_true]
  by_cases he : isContinuation e
  · exact .char [b, c, d, e] (fun pos rest => decodeFrom_four hlow hhigh hc hd he) (hrest rest (by grind))
  · refine .fault .invalidContinuation [b, c, d] (by decide) fun pos more => ?_
    rw [List.cons_append, List.cons_append, List.cons_append, List.cons_append, decodeFrom.eq_def]
    simp only [h80, hC2, hE0, hF0, hhigh, hc, hd, he, if_true, if_false, Bool.not_false, Bool.not_true,
      Bool.false_eq_true]

theorem spelled_of_invalid {b : UInt8} {rest : Bytes} (h80 : ¬b < 0x80) (h : b < 0xC2 ∨ ¬b < 0xF5) :
    Spelled (b :: rest) := by
  refine .fault .invalidStart [b] (by decide) fun pos more => ?_
  rw [List.cons_append, decodeFrom.eq_def]
  rcases h with hC2 | hF5
  · simp only [h80, hC2, if_true, if_false]
  · have hless {k : UInt8} (hk : k ≤ 0xF5) : ¬b < k := UInt8.not_lt.2 (UInt8.le_trans hk (UInt8.not_lt.1 hF5))
    simp only [h80, hless (show 0xC2 ≤ 0xF5 by decide), hless (show 0xE0 ≤ 0xF5 by decide),
      hless (show 0xF0 ≤ 0xF5 by decide), hF5, if_false]

theorem spelled (bs : Bytes) : Spelled bs := by
  induction hlen : bs.length using Nat.strongRecOn generalizing bs with | ind n ih
  have hrest (xs : Bytes) (hshort : xs.length < bs.length) : Spelled xs := ih _ (hlen ▸ hshort) xs rfl
  rcases bs with _ | ⟨b, rest⟩
  · exact .nil
  by_cases h80 : b < 0x80
  · exact .char [b] (fun pos rest => decodeFrom_one h80) (hrest rest (Nat.lt_succ_self _))
  by_cases hC2 : b < 0xC2
  · exact spelled_of_invalid h80 (.inl hC2)
  by_cases hE0 : b < 0xE0
  · exact spelled_of_two (UInt8.not_lt.1 hC2) hE0 hrest
  by_cases hF0 : b < 0xF0
  · exact spelled_of_three (UInt8.not_lt.1 hE0) hF0 hrest
  by_cases hF5 : b < 0xF5
  · exact spelled_of_four (UInt8.not_lt.1 hF0) hF5 hrest
  · exact spelled_of_invalid h80 (.inr hF5)

def decoded (bs : Bytes) : Option (List Char) := (decodeUtf8 bs).toOption

theorem toOption_map {ε α β : Type} (g : α → β) (x : Except ε α) : (g <$> x).toOption = x.toOption.map g := by
  cases x <;> rfl

/-- Where the bytes stand changes nothing but the place of a fault. -/
theorem toOption_decodeFrom (pos pos' : Nat) (bs : Bytes) :
    (decodeFrom pos bs).toOption = (decodeFrom pos' bs).toOption := by
  induction spelled bs generalizing pos pos' with
  | nil => rfl
  | char unit hchar _ ih => rw [hchar, hchar, toOption_map, toOption_map, ih]
  | cut hcut => rw [hcut, hcut]; rfl
  | fault kind bad _ hfault =>
    have hpos := hfault pos []
    have hpos' := hfault pos' []
    rw [List.append_nil] at hpos hpos'
    rw [hpos, hpos']
    rfl

theorem decodeFrom_append (h : decodeFrom pos xs = .ok cs) (ys : Bytes) :
    decodeFrom pos (xs ++ ys) = (cs ++ ·) <$> decodeFrom (pos + xs.length) ys := by
  induction spelled xs generalizing pos cs with
  | nil =>
    obtain rfl := Except.ok.inj h
    rw [List.nil_append, List.length_nil, Nat.add_zero]
    cases decodeFrom pos ys <;> rfl
  | char unit hchar _ ih =>
    rw [hchar] at h
    obtain ⟨more, hmore, rfl⟩ := map_eq_ok.1 h
    rw [List.append_assoc, hchar, ih hmore, List.length_append, Nat.add_assoc]
    cases decodeFrom _ ys <;> rfl
  | cut hcut => rw [hcut] at h; cases h
  | fault kind bad _ hfault =>
    have hpos := hfault pos []
    rw [List.append_nil, h] at hpos
    cases hpos

/-- A fault other than an end that comes too early is one whatever is behind it. -/
theorem decodeFrom_append_error (h : decodeFrom pos xs = .error f) (hkind : f.kind ≠ .unexpectedEnd) (ys : Bytes) :
    decodeFrom pos (xs ++ ys) = .error f := by
  induction spelled xs generalizing pos with
  | nil => cases h
  | char unit hchar _ ih =>
    rw [hchar, map_eq_error] at h
    rw [List.append_assoc, hchar, ih h]
    rfl
  | cut hcut =>
    rw [hcut] at h
    obtain rfl := Except.error.inj h
    exact absurd rfl hkind
  | fault kind bad _ hfault =>
    have hpos := hfault pos []
    rw [List.append_nil, h] at hpos
    rw [hfault, hpos]

theorem decodeFrom_take (h : decodeFrom pos xs = .error f) (hkind : f.kind = .unexpectedEnd) :
    pos ≤ f.position ∧ ∃ cs, decodeFrom pos (xs.take (f.position - pos)) = .ok cs := by
  induction spelled xs generalizing pos with
  | nil => cases h
  | @char unit c rest hchar _ ih =>
    rw [hchar, map_eq_error] at h
    obtain ⟨hle, cs, hcs⟩ := ih h
    refine ⟨by omega, c :: cs, ?_⟩
    rw [List.take_append, List.take_of_length_le (by omega), hchar, Nat.sub_sub, hcs]
    rfl
  | cut hcut =>
    rw [hcut] at h
    obtain rfl := Except.error.inj h
    exact ⟨Nat.le_refl _, [], by rw [Nat.sub_self, List.take_zero]; rfl⟩
  | fault kind bad hkind' hfault =>
    have hpos := hfault pos []
    rw [List.append_nil, h] at hpos
    obtain rfl := Except.error.inj hpos
    exact absurd hkind hkind'

theorem decoded_append (h : decodeUtf8 xs = .ok cs) (ys : Bytes) :
    decoded (xs ++ ys) = (decoded ys).map (cs ++ ·) := by
  rw [decoded, decodeUtf8, decodeFrom_append h, toOption_map, toOption_decodeFrom _ 0, ← decodeUtf8, ← decoded]

theorem decodeOpen_append (bs ys : Bytes) :
    decoded (bs ++ ys) = (decodeOpen bs).toOption.bind fun p => (decoded (p.2 ++ ys)).map (p.1 ++ ·) := by
  rw [decodeOpen]
  cases hbs : decodeUtf8 bs with
  | ok cs => exact decoded_append hbs ys
  | error f =>
    dsimp only
    split
    · rename_i hkind
      obtain ⟨-, cs, hcs⟩ := decodeFrom_take hbs hkind
      rw [Nat.sub_zero, ← decodeUtf8] at hcs
      rw [hcs]
      conv_lhs => rw [← List.take_append_drop f.position bs, List.append_assoc]
      exact decoded_append hcs _
    · rename_i hkind
      rw [decoded, decodeUtf8, decodeFrom_append_error hbs hkind]
      rfl

theorem decodePieces_toOption {fuel : Nat} {pending bs : Bytes} (hfuel : bs.length < fuel) :
    (decodePieces fuel pending bs).toOption = decoded (pending ++ bs) := by
  induction fuel generalizing pending bs with
  | zero => exact absurd hfuel (Nat.not_lt_zero _)
  | succ fuel ih =>
    rw [decodePieces]
    split
    · rename_i hempty
      rw [List.isEmpty_iff.1 hempty, List.append_nil]
      rfl
    · rename_i hempty
      have hpos : 0 < bs.length := List.length_pos_iff.2 (by simpa using hempty)
      have hrest : (bs.drop pieceSize).length < fuel := by
        rw [List.length_drop, pieceSize]
        omega
      conv_rhs => rw [← List.take_append_drop pieceSize bs, ← List.append_assoc, decodeOpen_append]
      cases decodeOpen (pending ++ bs.take pieceSize) with
      | error f => rfl
      | ok p =>
        change ((p.1 ++ ·) <$> decodePieces fuel p.2 (bs.drop pieceSize)).toOption = _
        rw [toOption_map, ih hrest]
        rfl

theorem decodeFile_toOption (bs : Bytes) : (decodeFile bs).toOption = decoded bs :=
  decodePieces_toOption (Nat.lt_succ_self _)

/-- A byte order mark that the end cuts short. -/
def IsCutMark (bs : Bytes) : Prop := bs = [0xEF] ∨ bs = [0xEF, 0xBB]

instance (bs : Bytes) : Decidable (IsCutMark bs) := inferInstanceAs (Decidable (_ ∨ _))

/-- A file holds the text of a document, except where all it holds is a byte order mark that is cut short. -/
theorem decodeMarkedFile_toOption (h : ¬IsCutMark bs) :
    (decodeMarkedFile bs).toOption = (decodeDocument bs).toOption := by
  rw [decodeMarkedFile.eq_def]
  split
  · rfl
  · exact absurd (.inl rfl) h
  · exact absurd (.inr rfl) h
  · rename_i rest
    change _ = decoded rest
    conv_rhs => rw [← List.take_append_drop (pieceSize - 3) rest, decodeOpen_append]
    cases decodeOpen (rest.take (pieceSize - 3)) with
    | error f => rfl
    | ok p =>
      change ((p.1 ++ ·) <$> decodePieces _ p.2 (rest.drop (pieceSize - 3))).toOption = _
      rw [toOption_map, decodePieces_toOption (by rw [List.length_drop]; omega)]
      rfl
  · rename_i hmark
    rw [decodeFile_toOption, decodeDocument.eq_def]
    split
    · exact absurd rfl (hmark _)
    · rfl

theorem decodeMarkedFile_eq_ok (h : decodeDocument bs = .ok cs) : decodeMarkedFile bs = .ok cs := by
  have hmark : ¬IsCutMark bs := by
    rintro (rfl | rfl) <;> cases h
  have hfile := decodeMarkedFile_toOption hmark
  rw [h] at hfile
  cases hread : decodeMarkedFile bs with
  | ok cs' =>
    rw [hread] at hfile
    rw [Option.some.inj hfile]
  | error f =>
    rw [hread] at hfile
    cases hfile

/-- A cut mark is the empty text to a file, and no text to a document. -/
theorem decodeMarkedFile_cut (h : IsCutMark bs) :
    decodeMarkedFile bs = .ok [] ∧ decodeDocument bs = .error ⟨.unexpectedEnd, 0, bs⟩ := by
  rcases h with rfl | rfl <;> exact ⟨rfl, rfl⟩

end HuntDraw.Text
