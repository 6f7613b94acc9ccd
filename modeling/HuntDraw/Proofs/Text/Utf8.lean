import HuntDraw.Proofs.Data.Attempt
import HuntDraw.Text.Utf8

/-! UTF-8 can be undone: what a text is encoded to is decoded to the text. A sequence of bytes is told by the range of
its first byte, and each range has a lemma. -/

namespace HuntDraw.Text

open Attempt

variable {pos : Nat} {b c d e : UInt8} {rest : Bytes}

theorem decodeFrom_one (hb : b < 0x80) :
    decodeFrom pos (b :: rest) = (Char.ofNat b.toNat :: ·) <$> decodeFrom (pos + 1) rest := by
  rw [decodeFrom.eq_def]
  simp only [hb, if_true]

theorem decodeFrom_two (hlow : 0xC2 ≤ b) (hhigh : b < 0xE0) (hc : isContinuation c) :
    decodeFrom pos (b :: c :: rest) =
      (Char.ofNat (b.toNat % 32 * 64 + c.toNat % 64) :: ·) <$> decodeFrom (pos + 2) rest := by
  have h80 : ¬b < 0x80 := UInt8.not_lt.2 (UInt8.le_trans (by decide) hlow)
  rw [decodeFrom.eq_def]
  simp only [h80, UInt8.not_lt.2 hlow, hhigh, hc, if_true, if_false, Bool.not_true, Bool.false_eq_true]
  rfl

theorem decodeFrom_three (hlow : 0xE0 ≤ b) (hhigh : b < 0xF0) (hc : mayFollow b c) (hd : isContinuation d) :
    decodeFrom pos (b :: c :: d :: rest) =
      (Char.ofNat (b.toNat % 16 * 4096 + c.toNat % 64 * 64 + d.toNat % 64) :: ·) <$> decodeFrom (pos + 3) rest := by
  have h80 : ¬b < 0x80 := UInt8.not_lt.2 (UInt8.le_trans (by decide) hlow)
  have hC2 : ¬b < 0xC2 := UInt8.not_lt.2 (UInt8.le_trans (by decide) hlow)
  rw [decodeFrom.eq_def]
  simp only [h80, hC2, UInt8.not_lt.2 hlow, hhigh, hc, hd, if_true, if_false, Bool.not_true, Bool.false_eq_true]
  rfl

theorem decodeFrom_four (hlow : 0xF0 ≤ b) (hhigh : b < 0xF5) (hc : mayFollow b c) (hd : isContinuation d)
    (he : isContinuation e) : decodeFrom pos (b :: c :: d :: e :: rest) =
      (Char.ofNat (b.toNat % 8 * 262144 + c.toNat % 64 * 4096 + d.toNat % 64 * 64 + e.toNat % 64) :: ·) <$>
        decodeFrom (pos + 4) rest := by
  have h80 : ¬b < 0x80 := UInt8.not_lt.2 (UInt8.le_trans (by decide) hlow)
  have hC2 : ¬b < 0xC2 := UInt8.not_lt.2 (UInt8.le_trans (by decide) hlow)
  have hE0 : ¬b < 0xE0 := UInt8.not_lt.2 (UInt8.le_trans (by decide) hlow)
  rw [decodeFrom.eq_def]
  simp only [h80, hC2, hE0, UInt8.not_lt.2 hlow, hhigh, hc, hd, he, if_true, if_false, Bool.not_true,
    Bool.false_eq_true]
  rfl

def tailByte (n : Nat) : UInt8 := UInt8.ofNat (0x80 + n % 64)

theorem tailByte_toNat (n : Nat) : (tailByte n).toNat = 0x80 + n % 64 :=
  UInt8.toNat_ofNat_of_lt' (by change _ < 256; omega)

theorem isContinuation_tailByte (n : Nat) : isContinuation (tailByte n) := by
  rw [isContinuation, Bool.and_eq_true, decide_eq_true_eq, decide_eq_true_eq, UInt8.le_iff_toNat_le,
    UInt8.lt_iff_toNat_lt, tailByte_toNat]
  change 128 ≤ _ ∧ _ < 192
  omega

def leadByte (mark n : Nat) : UInt8 := UInt8.ofNat (mark + n)

theorem leadByte_toNat {mark n : Nat} (h : mark + n < 256) : (leadByte mark n).toNat = mark + n :=
  UInt8.toNat_ofNat_of_lt' h

theorem mayFollow_tailByte {lead n : Nat} (hlead : b.toNat = lead) (hE0 : lead = 0xE0 → 0x20 ≤ n % 64)
    (hED : lead = 0xED → n % 64 < 0x20) (hF0 : lead = 0xF0 → 0x10 ≤ n % 64) (hF4 : lead = 0xF4 → n % 64 < 0x10) :
    mayFollow b (tailByte n) := by
  have hbyte : ∀ k : UInt8, b = k ↔ lead = k.toNat := fun k => by rw [← hlead, UInt8.toNat_inj]
  simp only [mayFollow, isContinuation_tailByte, Bool.true_and, hbyte, UInt8.le_iff_toNat_le, UInt8.lt_iff_toNat_lt,
    tailByte_toNat]
  change (if lead = 224 then decide (160 ≤ _) else if lead = 237 then decide (_ < 160)
    else if lead = 240 then decide (144 ≤ _) else if lead = 244 then decide (_ < 144) else true) = true
  split_ifs <;> simp only [decide_eq_true_eq] <;> omega

theorem decodeFrom_encodeChar (pos : Nat) (c : Char) (bs : Bytes) :
    ∃ pos', decodeFrom pos (encodeChar c ++ bs) = (c :: ·) <$> decodeFrom pos' bs := by
  have hvalid : c.toNat < 0xD800 ∨ 0xDFFF < c.toNat ∧ c.toNat < 0x110000 := c.valid
  have hchar : ∀ {n}, n = c.toNat → Char.ofNat n = c := fun hn => hn ▸ Char.ofNat_toNat c
  rw [encodeChar]
  split_ifs with h1 h2 h3
  · have hlead : (UInt8.ofNat c.toNat).toNat = c.toNat := UInt8.toNat_ofNat_of_lt' (by change _ < 256; omega)
    refine ⟨pos + 1, ?_⟩
    change decodeFrom pos (UInt8.ofNat c.toNat :: bs) = _
    rw [decodeFrom_one ?_, hchar hlead]
    rw [UInt8.lt_iff_toNat_lt, hlead]
    exact h1
  · have hlead := leadByte_toNat (show 0xC0 + c.toNat / 64 < 256 by omega)
    refine ⟨pos + 2, ?_⟩
    change decodeFrom pos (leadByte 0xC0 (c.toNat / 64) :: tailByte c.toNat :: bs) = _
    rw [decodeFrom_two ?_ ?_ (isContinuation_tailByte _), hchar]
    · rw [hlead, tailByte_toNat]
      omega
    · rw [UInt8.le_iff_toNat_le, hlead]
      change 194 ≤ _
      omega
    · rw [UInt8.lt_iff_toNat_lt, hlead]
      change _ < 224
      omega
  · have hlead := leadByte_toNat (show 0xE0 + c.toNat / 4096 < 256 by omega)
    refine ⟨pos + 3, ?_⟩
    change decodeFrom pos (leadByte 0xE0 (c.toNat / 4096) :: tailByte (c.toNat / 64) :: tailByte c.toNat :: bs) = _
    rw [decodeFrom_three ?_ ?_ (mayFollow_tailByte hlead ?_ ?_ ?_ ?_) (isContinuation_tailByte _), hchar]
    · rw [hlead, tailByte_toNat, tailByte_toNat]
      omega
    · rw [UInt8.le_iff_toNat_le, hlead]
      exact Nat.le_add_right _ _
    · rw [UInt8.lt_iff_toNat_lt, hlead]
      change _ < 240
      omega
    all_goals omega
  · have hlead := leadByte_toNat (show 0xF0 + c.toNat / 262144 < 256 by omega)
    refine ⟨pos + 4, ?_⟩
    change decodeFrom pos (leadByte 0xF0 (c.toNat / 262144) :: tailByte (c.toNat / 4096) :: tailByte (c.toNat / 64) ::
      tailByte c.toNat :: bs) = _
    rw [decodeFrom_four ?_ ?_ (mayFollow_tailByte hlead ?_ ?_ ?_ ?_) (isContinuation_tailByte _)
      (isContinuation_tailByte _), hchar]
    · rw [hlead, tailByte_toNat, tailByte_toNat, tailByte_toNat]
      omega
    · rw [UInt8.le_iff_toNat_le, hlead]
      exact Nat.le_add_right _ _
    · rw [UInt8.lt_iff_toNat_lt, hlead]
      change _ < 245
      omega
    all_goals omega

theorem decodeFrom_encodeUtf8 (pos : Nat) (cs : List Char) : decodeFrom pos (encodeUtf8 cs) = .ok cs := by
  induction cs generalizing pos with
  | nil => rfl
  | cons c cs ih =>
    obtain ⟨pos', hchar⟩ := decodeFrom_encodeChar pos c (encodeUtf8 cs)
    rw [encodeUtf8, List.flatMap_cons, ← encodeUtf8, hchar, ih]
    rfl

/-- A text that does not start with a byte order mark is read back. -/
theorem decodeDocument_encodeUtf8 {cs : List Char} (h : cs.head? ≠ some '\uFEFF') :
    decodeDocument (encodeUtf8 cs) = .ok cs := by
  rw [decodeDocument.eq_def]
  split
  · rename_i rest hmark
    have hcs := decodeFrom_encodeUtf8 0 cs
    rw [hmark, decodeFrom_three (by decide) (by decide) (by decide) (by decide)] at hcs
    obtain ⟨more, -, rfl⟩ := map_eq_ok.1 hcs
    exact absurd rfl h
  · exact decodeFrom_encodeUtf8 0 cs

end HuntDraw.Text
