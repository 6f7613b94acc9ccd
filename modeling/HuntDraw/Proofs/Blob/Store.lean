import HuntDraw.Blob.Store
import HuntDraw.Proofs.Data.Attempt
import HuntDraw.Proofs.Data.Fields

/-! What it takes to write a blob and to read it. Either way the key has to be one; what is read depends on the entry of
the key alone. -/

namespace HuntDraw

open Attempt

theorem Blob.checkKey_eq_ok {key key' : String} : checkKey key = .ok key' ↔ isKey key.toList = true ∧ key = key' := by
  rw [checkKey]
  split_ifs with h <;> simp [h]

namespace BlobStore

variable {s s' : BlobStore} {key type uri : String} {content : Content}

theorem write_eq_ok (h : s.write key content type = .ok (s', uri)) : Blob.isKey key.toList = true ∧
    s.obstacle key = none ∧ s' = { s with blobs := s.blobs.put key ⟨content, type⟩ } ∧
      uri = Blob.address s.bucket key := by
  obtain ⟨k, hk, hwrite⟩ := bind_eq_ok.1 h
  obtain ⟨hkey, rfl⟩ := Blob.checkKey_eq_ok.1 hk
  cases hobstacle : s.obstacle key with
  | some f =>
    rw [hobstacle] at hwrite
    exact nomatch hwrite
  | none =>
    rw [hobstacle] at hwrite
    obtain ⟨rfl, rfl⟩ := Prod.mk.inj (Except.ok.inj hwrite)
    exact ⟨hkey, rfl, rfl, rfl⟩

theorem write_of_free (hkey : Blob.isKey key.toList = true) (hfree : s.obstacle key = none) :
    s.write key content type =
      .ok ({ s with blobs := s.blobs.put key ⟨content, type⟩ }, Blob.address s.bucket key) :=
  bind_eq_ok.2 ⟨key, Blob.checkKey_eq_ok.2 ⟨hkey, rfl⟩, by rw [hfree]; rfl⟩

theorem read_eq_ok : s.read key = .ok content ↔
    Blob.isKey key.toList = true ∧ ∃ type, s.blobs.get? key = some ⟨content, type⟩ := by
  rw [read, bind_eq_ok]
  constructor
  · rintro ⟨k, hk, hread⟩
    obtain ⟨hkey, rfl⟩ := Blob.checkKey_eq_ok.1 hk
    cases hget : s.blobs.get? key with
    | some b =>
      rw [hget] at hread
      exact ⟨hkey, b.type, by rw [← pure_eq_ok.1 hread]⟩
    | none =>
      rw [hget] at hread
      simp only at hread
      split_ifs at hread
  · rintro ⟨hkey, type, hget⟩
    exact ⟨key, Blob.checkKey_eq_ok.2 ⟨hkey, rfl⟩, by rw [hget]; rfl⟩

theorem read_of_get? (h : s.read key = .ok content) (hget : s'.blobs.get? key = s.blobs.get? key) :
    s'.read key = .ok content := by
  rw [read_eq_ok] at h ⊢
  rwa [hget]

theorem holds_of_read (h : s.read key = .ok content) : s.holds key = .ok true := by
  obtain ⟨hkey, type, hget⟩ := read_eq_ok.1 h
  have hfile : s.isFile key = true := Fields.has_iff.2 (Fields.mem_keys.2 ⟨_, Fields.mem_of_get? hget⟩)
  exact bind_eq_ok.2 ⟨key, Blob.checkKey_eq_ok.2 ⟨hkey, rfl⟩, by rw [hfile]; rfl⟩

end BlobStore
end HuntDraw
