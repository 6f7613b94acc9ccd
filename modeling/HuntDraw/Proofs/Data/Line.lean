import HuntDraw.Data.JsonText
import HuntDraw.Proofs.Data.Canonical

/-! JSON text on one line is read back as the value that it was written from. -/

namespace HuntDraw.Json

variable {v : Json} {n : Nat}

section Texts

theorem hex4_append (n : Nat) (more : List Char) :
    hex4 n ++ more = '\\' :: 'u' :: Nat.digitChar (n / 4096 % 16) :: Nat.digitChar (n / 256 % 16) ::
      Nat.digitChar (n / 16 % 16) :: Nat.digitChar (n % 16) :: more := rfl

theorem readHex4?_hex4 (h : n < 0x10000) (e : Char) (rest : List Char) :
    readHex4? (Nat.digitChar (n / 4096 % 16) :: Nat.digitChar (n / 256 % 16) :: Nat.digitChar (n / 16 % 16) ::
      Nat.digitChar (n % 16) :: e :: rest) = some (n, e :: rest) := by
  rw [readHex4?_digits (Nat.mod_lt _ (by decide)) (Nat.mod_lt _ (by decide)) (Nat.mod_lt _ (by decide))
    (Nat.mod_lt _ (by decide))]
  congr 2
  omega

theorem readChars_pair {high low : Nat} (hhigh : isHigh high) (hlow : isLow low) (e : Char) (rest : List Char) :
    readChars (hex4 high ++ (hex4 low ++ e :: rest)) =
      (fun p => (pairWith high low :: p.1, p.2)) <$> readChars (e :: rest) := by
  have hhigh' : high < 0x10000 := by simp [isHigh] at hhigh; omega
  have hlow' : low < 0x10000 := by simp [isLow] at hlow; omega
  rw [hex4_append, hex4_append, readChars.eq_3, readHex4?_hex4 hhigh']
  simp only
  rw [if_pos ⟨hhigh, by simp⟩, readHex4?_hex4 hlow']
  simp only
  rw [if_pos hlow]

theorem escapes_asciiChar : Escapes asciiChar := by
  intro c e rest
  have hchar : ∀ {n : Nat}, c.toNat = n → c = Char.ofNat n := fun h => h ▸ (Char.ofNat_toNat c).symm
  have hvalid : c.toNat < 0xD800 ∨ 0xDFFF < c.toNat ∧ c.toNat < 0x110000 := c.valid
  simp only [asciiChar]
  split_ifs with hquote hescape h8 h9 h10 h12 h13 hprinted hunit
  · subst hquote
    exact readChars_escaped (by decide) rfl e rest
  · subst hescape
    exact readChars_escaped (by decide) rfl e rest
  · exact hchar h8 ▸ readChars_escaped (by decide) rfl e rest
  · exact hchar h9 ▸ readChars_escaped (by decide) rfl e rest
  · exact hchar h10 ▸ readChars_escaped (by decide) rfl e rest
  · exact hchar h12 ▸ readChars_escaped (by decide) rfl e rest
  · exact hchar h13 ▸ readChars_escaped (by decide) rfl e rest
  · exact readChars_plain hquote hescape (by omega)
  · rw [hex4_append, readChars_unit (readHex4?_hex4 hunit e rest) (hvalid.imp_right And.left), Char.ofNat_toNat]
  · have hpair : 0x10000 + (0xD800 + (c.toNat - 0x10000) / 0x400 - 0xD800) * 0x400 +
        (0xDC00 + (c.toNat - 0x10000) % 0x400 - 0xDC00) = c.toNat := by omega
    rw [List.append_assoc, readChars_pair (by simp [isHigh]; omega) (by simp [isLow]; omega), pairWith, hpair,
      Char.ofNat_toNat]

end Texts

theorem renderItems_eq (items : List Json) : renderItems none items = items.map line := by
  induction items with
  | nil => rfl
  | cons u items ih => rw [renderItems, ih, List.map_cons, line]

def fieldLine (p : String × Json) : String := asciiText p.1 ++ ": " ++ p.2.line

theorem renderFields_eq (fields : Fields Json) : renderFields none fields = fields.map fieldLine := by
  induction fields with
  | nil => rfl
  | cons p fields ih => rw [renderFields, ih, List.map_cons, fieldLine, line]

theorem toList_intercalate (first : String) (parts : List String) :
    (", ".intercalate (first :: parts)).toList = first.toList ++ behindCommas 1 (parts.map String.toList) := by
  induction parts generalizing first with
  | nil => simp [behindCommas]
  | cons second parts ih =>
    rw [String.intercalate_cons_cons, String.toList_append, String.toList_append, ih]
    simp [behindCommas]

theorem toList_bracket (left right first : String) (parts : List String) :
    (bracket left right none (first :: parts)).toList =
      left.toList ++ (first.toList ++ (behindCommas 1 (parts.map String.toList) ++ right.toList)) := by
  change (left ++ "" ++ ", ".intercalate (first :: parts) ++ "" ++ right).toList = _
  rw [String.append_empty, String.append_empty, String.toList_append, String.toList_append, toList_intercalate,
    List.append_assoc, List.append_assoc]

theorem line_list (u : Json) (items : List Json) : (line (.list (u :: items))).toList =
    '[' :: (u.line.toList ++ (behindCommas 1 ((items.map line).map String.toList) ++ [']'])) := by
  rw [line, renderAt, Option.map_none, renderItems_eq, List.map_cons, toList_bracket]
  simp

theorem line_object (p : String × Json) (fields : Fields Json) : (line (.object (p :: fields))).toList =
    '\x7b' :: ((fieldLine p).toList ++ (behindCommas 1 ((fields.map fieldLine).map String.toList) ++ ['\x7d'])) := by
  rw [line, renderAt, Option.map_none, renderFields_eq, List.map_cons, toList_bracket]
  simp

theorem fieldLine_written {p : String × Json} (h : WrittenAs p.2 p.2.line.toList) :
    WrittenAs.Field asciiChar 1 p (fieldLine p).toList :=
  ⟨_, h, by simp [fieldLine, asciiText, quoted]⟩

theorem Plain.writtenAs_line (hv : v.Plain) : WrittenAs v v.line.toList := by
  induction hv with
  | null => exact .null
  | bool b => cases b <;> exact .bool _
  | @int i => exact .int i
  | text s =>
    have hline : (line (.text s)).toList = quoted asciiChar s := String.toList_ofList
    exact hline ▸ .text escapes_asciiChar s
  | @list items hitems ih =>
    cases items with
    | nil => exact .emptyList
    | cons u items =>
      have hparts : List.Forall₂ WrittenAs items ((items.map line).map String.toList) := by
        rw [List.map_map, List.forall₂_map_right_iff]
        exact List.forall₂_same.2 fun w hw => ih w (List.mem_cons_of_mem _ hw)
      rw [line_list]
      exact .list 1 (ih u List.mem_cons_self) hparts
  | @object fields hkeys hfields ih =>
    cases fields with
    | nil => exact .emptyObject
    | cons p fields =>
      have hparts : List.Forall₂ (WrittenAs.Field asciiChar 1) fields ((fields.map fieldLine).map String.toList) := by
        rw [List.map_map, List.forall₂_map_right_iff]
        exact List.forall₂_same.2 fun q hq => fieldLine_written (ih q (List.mem_cons_of_mem _ hq))
      rw [line_object]
      exact .object escapes_asciiChar hkeys (fieldLine_written (ih p List.mem_cons_self)) hparts

theorem Plain.read_line (hv : v.Plain) : read v.line.toList = .ok v := hv.writtenAs_line.read_eq

end HuntDraw.Json
