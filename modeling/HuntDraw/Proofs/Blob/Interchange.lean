import HuntDraw.Proofs.Blob.Address

/-! Blobs kept in memory and blobs kept as files, called alike. The two answer alike until a key is used as a file and as
a directory, or has a character that no path holds. -/

namespace HuntDraw

open Attempt

namespace Text

variable {sep : Char}

theorem splitChars_split (cs ds : List Char) :
    splitChars sep (cs ++ sep :: ds) = splitChars sep cs ++ splitChars sep ds := by
  induction cs with
  | nil => exact splitChars_append List.not_mem_nil ds
  | cons c cs ih =>
    obtain ⟨piece, pieces, hcs, hcons⟩ := splitChars_cons sep c cs
    rw [List.cons_append, splitChars, ih, hcs, hcons]
    split_ifs <;> simp

theorem intercalate_split (cs : List Char) :
    "/".intercalate ((splitChars '/' cs).map String.ofList) = String.ofList cs := by
  induction cs with
  | nil => rfl
  | cons c cs ih =>
    obtain ⟨piece, pieces, hcs, hcons⟩ := splitChars_cons '/' c cs
    rw [hcs] at ih
    rw [hcons, String.ofList_cons, ← ih]
    split_ifs with hc
    · subst hc
      rw [List.map_cons, List.map_cons, String.intercalate_cons_cons]
      simp
    · cases pieces with
      | nil => simp [String.ofList_cons]
      | cons next pieces =>
        simp only [List.map_cons, String.intercalate_cons_cons]
        rw [String.ofList_cons]
        simp only [String.append_assoc]

end Text

namespace Blob

def IsWithin (key directory : String) : Prop := Text.startsWith key (directory ++ "/")

instance (key directory : String) : Decidable (IsWithin key directory) := inferInstanceAs (Decidable (_ = true))

theorem isWithin_iff {key directory : String} :
    IsWithin key directory ↔ ∃ rest, key.toList = directory.toList ++ '/' :: rest := by
  rw [IsWithin, Text.startsWith, List.isPrefixOf_iff_prefix, String.toList_append]
  constructor
  · rintro ⟨rest, hrest⟩
    exact ⟨rest, by rw [← hrest, List.append_assoc]; rfl⟩
  · rintro ⟨rest, hrest⟩
    exact ⟨rest, by rw [hrest, List.append_assoc]; rfl⟩

theorem not_isWithin_self (key : String) : ¬IsWithin key key := by
  intro hwithin
  obtain ⟨rest, hrest⟩ := isWithin_iff.1 hwithin
  have hlength := congrArg List.length hrest
  simp at hlength

/-- Whether no file can be at a key where files are at `keys`: it is a directory of theirs, or no path, as paths have no
null characters. -/
def IsNoFile (keys : List String) (key : String) : Prop := '\x00' ∈ key.toList ∨ ∃ k ∈ keys, IsWithin k key

theorem IsWithin.isKey {key directory : String} (h : IsWithin key directory) (hkey : isKey key.toList) :
    isKey directory.toList := by
  obtain ⟨rest, hrest⟩ := isWithin_iff.1 h
  rw [hrest, Blob.isKey, Text.splitChars_split] at hkey
  rw [Blob.isKey]
  simp only [Bool.and_eq_true, Bool.not_eq_true', List.all_append, List.contains_eq_mem, decide_eq_false_iff_not,
    List.mem_append, not_or] at hkey ⊢
  exact ⟨hkey.1.1, hkey.2.1⟩

end Blob

namespace BlobStore

variable {s : BlobStore} {key : String}

theorem parent_eq (key : String) : parent key = "" ∨ Blob.IsWithin key (parent key) := by
  by_cases hslash : '/' ∈ key.toList
  · obtain ⟨behind, before, hsplit, hbehind⟩ := List.eq_append_cons_of_mem (List.mem_reverse.2 hslash)
    have hkey : key.toList = before.reverse ++ '/' :: behind.reverse := by
      rw [← List.reverse_reverse key.toList, hsplit]
      simp
    have hparent : parent key = String.ofList before.reverse := by
      rw [parent, Text.split, hkey, Text.splitChars_split,
        Text.splitChars_of_notMem (by rwa [List.mem_reverse] : '/' ∉ behind.reverse), List.map_append,
        List.map_singleton, List.dropLast_concat, Text.intercalate_split]
    refine Or.inr (Blob.isWithin_iff.2 ⟨behind.reverse, ?_⟩)
    rw [hparent, hkey, String.toList_ofList]
  · left
    rw [parent, Text.split, Text.splitChars_of_notMem hslash]
    rfl

theorem isDirectory_iff : s.isDirectory key = true ↔ ∃ k ∈ s.blobs.keys, Blob.IsWithin k key := by
  simp [isDirectory, Blob.IsWithin]

theorem crossesFile_iff : s.crossesFile key = true ↔ ∃ k ∈ s.blobs.keys, Blob.IsWithin key k := by
  simp [crossesFile, Blob.IsWithin]

theorem obstacle_eq_none : s.obstacle key = none ↔ s.keeping = .memory ∨
    s.hasNoPath key = false ∧ s.isFile (parent key) = false ∧ s.crossesFile key = false ∧
      s.isDirectory key = false := by
  rw [obstacle]
  cases s.keeping with
  | memory => simp
  | files => simp only [reduceCtorEq, false_or]; split_ifs <;> simp_all

theorem obstacle_put_self (hkey : Blob.isKey key.toList) (hfree : s.obstacle key = none) (blob : Blob) :
    ({ s with blobs := s.blobs.put key blob } : BlobStore).obstacle key = none := by
  have hself := Blob.not_isWithin_self key
  have hparent : parent key ≠ key := by
    intro heq
    rcases parent_eq key with hempty | hwithin
    · rw [← heq, hempty] at hkey
      exact absurd hkey (by decide)
    · rw [heq] at hwithin
      exact hself hwithin
  rw [obstacle_eq_none] at hfree ⊢
  refine hfree.imp id ?_
  rintro ⟨hpath, hbeside, hcrosses, hdirectory⟩
  simp only [Bool.eq_false_iff, ne_eq, isFile, Fields.has_iff, crossesFile_iff, isDirectory_iff, Fields.mem_keys_put,
    exists_eq_or_imp, not_or] at hbeside hcrosses hdirectory ⊢
  exact ⟨Bool.eq_false_iff.1 hpath, ⟨hparent, hbeside⟩, ⟨hself, hcrosses⟩, ⟨hself, hdirectory⟩⟩

end BlobStore

inductive BlobCall where
  | write (key : String) (content : Content) (type : String)
  | read (key : String)
  | holds (key : String)

inductive BlobAnswer where
  | address (uri : String)
  | content (content : Content)
  | held (held : Bool)

namespace BlobStore

/-- What a call gives, and the store behind it: one that fails leaves the store as it was. -/
def answer (s : BlobStore) : BlobCall → Except BlobFault BlobAnswer × BlobStore
  | .write key content type =>
    match s.write key content type with
    | .ok (s', uri) => (.ok (.address uri), s')
    | .error f => (.error f, s)
  | .read key => (.content <$> s.read key, s)
  | .holds key => (.held <$> s.holds key, s)

def answers (s : BlobStore) : List BlobCall → List (Except BlobFault BlobAnswer)
  | [] => []
  | call :: calls => (s.answer call).1 :: (s.answer call).2.answers calls

def after (s : BlobStore) (calls : List BlobCall) : BlobStore := calls.foldl (fun s call => (s.answer call).2) s

/-- The key and the content of a call that is answered, if it is a write that returned. -/
def landed : BlobCall → Except BlobFault BlobAnswer → List (String × Content)
  | .write key content _, .ok _ => [(key, content)]
  | _, _ => []

def written (s : BlobStore) : List BlobCall → List (String × Content)
  | [] => []
  | call :: calls => landed call (s.answer call).1 ++ (s.answer call).2.written calls

/-- The same value, or failures of one kind. -/
def Alike : Except BlobFault BlobAnswer → Except BlobFault BlobAnswer → Prop
  | .ok a, .ok b => a = b
  | .error e, .error f => e.kind = f.kind
  | _, _ => False

end BlobStore

namespace BlobCall

def target? : BlobCall → Option String
  | write key _ _ => if Blob.isKey key.toList then some key else none
  | read _ | holds _ => none

def targets (calls : List BlobCall) : List String := calls.filterMap target?

/-- Whether a call takes a directory for a file, or a file for a directory, where files were written at `keys`. -/
def Confuses (keys : List String) : BlobCall → Prop
  | write key _ _ => Blob.isKey key.toList ∧ (Blob.IsNoFile keys key ∨ ∃ k ∈ keys, Blob.IsWithin key k)
  | read key | holds key => Blob.isKey key.toList ∧ Blob.IsNoFile keys key

def Confused (calls : List BlobCall) : Prop :=
  ∃ before call behind, calls = before ++ call :: behind ∧ call.Confuses (targets before)

end BlobCall

namespace BlobStore

variable {s : BlobStore} {bucket key type : String} {content : Content} {blobs : Fields Blob} {call : BlobCall}
  {calls : List BlobCall} {keys keys' : List String}

def inMemory (bucket : String) (blobs : Fields Blob) : BlobStore := ⟨bucket, .memory, blobs⟩

def onFiles (bucket : String) (blobs : Fields Blob) : BlobStore := ⟨bucket, .files, blobs⟩

section Calls

theorem write_of_badKey (h : ¬Blob.isKey key.toList) : s.write key content type = .error (.badKey key) := by
  simp [write, Blob.checkKey, h]
  rfl

theorem read_of_badKey (h : ¬Blob.isKey key.toList) : s.read key = .error (.badKey key) := by
  simp [read, Blob.checkKey, h]
  rfl

theorem holds_of_badKey (h : ¬Blob.isKey key.toList) : s.holds key = .error (.badKey key) := by
  simp [holds, Blob.checkKey, h]
  rfl

theorem write_of_obstacle {f : FileFault} (hkey : Blob.isKey key.toList) (h : s.obstacle key = some f) :
    s.write key content type = .error (.file f) :=
  bind_eq_error.2 (Or.inr ⟨key, Blob.checkKey_eq_ok.2 ⟨hkey, rfl⟩, by rw [h]⟩)

end Calls

/-- Blobs that can be files as well: their keys are paths, and none of them is a directory of another one. -/
structure IsTree (blobs : Fields Blob) : Prop where
  key : ∀ k ∈ blobs.keys, Blob.isKey k.toList
  path : ∀ k ∈ blobs.keys, '\x00' ∉ k.toList
  apart : ∀ k ∈ blobs.keys, ∀ k' ∈ blobs.keys, ¬Blob.IsWithin k k'

theorem isTree_nil : IsTree [] := ⟨nofun, nofun, nofun⟩

theorem IsTree.isFile_parent (h : IsTree blobs) (hparent : (onFiles bucket blobs).isFile (parent key)) :
    ∃ k ∈ blobs.keys, Blob.IsWithin key k := by
  have hmem : parent key ∈ blobs.keys := Fields.has_iff.1 hparent
  rcases parent_eq key with hempty | hwithin
  · exact absurd (h.key _ hmem) (by rw [hempty]; decide)
  · exact ⟨parent key, hmem, hwithin⟩

theorem obstacle_onFiles : (onFiles bucket blobs).obstacle key =
    if (onFiles bucket blobs).hasNoPath key then some .nullCharacter
    else if (onFiles bucket blobs).isFile (parent key) then some .exists
    else if (onFiles bucket blobs).crossesFile key then some .notDirectory
    else if (onFiles bucket blobs).isDirectory key then some .isDirectory
    else none := rfl

theorem hasNoPath_onFiles : (onFiles bucket blobs).hasNoPath key = true ↔ '\x00' ∈ key.toList := by
  simp [hasNoPath, onFiles]

/-- A file can be written at any path that is no directory and lies in no file. -/
theorem IsTree.obstacle_eq_none (h : IsTree blobs) : (onFiles bucket blobs).obstacle key = none ↔
    ¬(Blob.IsNoFile blobs.keys key ∨ ∃ k ∈ blobs.keys, Blob.IsWithin key k) := by
  rw [obstacle_onFiles]
  split_ifs with hnull hparent hcrosses hdirectory
  · rw [hasNoPath_onFiles] at hnull
    exact iff_of_false nofun fun hfree => hfree (Or.inl (Or.inl hnull))
  · exact iff_of_false nofun fun hfree => hfree (Or.inr (h.isFile_parent hparent))
  · exact iff_of_false nofun fun hfree => hfree (Or.inr (crossesFile_iff.1 hcrosses))
  · exact iff_of_false nofun fun hfree => hfree (Or.inl (Or.inr (isDirectory_iff.1 hdirectory)))
  · rw [hasNoPath_onFiles] at hnull
    refine iff_of_true rfl ?_
    rintro ((hnull' | hwithin) | hwithin)
    · exact hnull hnull'
    · exact hdirectory (isDirectory_iff.2 hwithin)
    · exact hcrosses (crossesFile_iff.2 hwithin)

theorem IsTree.put (h : IsTree blobs) (hkey : Blob.isKey key.toList)
    (hfree : ¬(Blob.IsNoFile blobs.keys key ∨ ∃ k ∈ blobs.keys, Blob.IsWithin key k)) (blob : Blob) :
    IsTree (blobs.put key blob) := by
  have hself := Blob.not_isWithin_self key
  refine ⟨fun k hk => ?_, fun k hk => ?_, fun k hk k' hk' => ?_⟩
  · rcases Fields.mem_keys_put.1 hk with rfl | hold
    · exact hkey
    · exact h.key k hold
  · rcases Fields.mem_keys_put.1 hk with rfl | hold
    · exact fun hnull => hfree (Or.inl (Or.inl hnull))
    · exact h.path k hold
  · rcases Fields.mem_keys_put.1 hk with rfl | hold <;> rcases Fields.mem_keys_put.1 hk' with rfl | hold'
    · exact hself
    · exact fun hwithin => hfree (Or.inr ⟨k', hold', hwithin⟩)
    · exact fun hwithin => hfree (Or.inl (Or.inr ⟨k, hold, hwithin⟩))
    · exact h.apart k hold k' hold'

theorem IsTree.not_isNoFile (h : IsTree blobs) (hmem : key ∈ blobs.keys) : ¬Blob.IsNoFile blobs.keys key := by
  rintro (hnull | ⟨k, hk, hwithin⟩)
  · exact h.path key hmem hnull
  · exact h.apart k hk key hmem hwithin

theorem read_onFiles (hkey : Blob.isKey key.toList) (hnone : blobs.get? key = none) :
    (onFiles bucket blobs).read key = .error (if (onFiles bucket blobs).hasNoPath key then .file .nullCharacter
      else if (onFiles bucket blobs).isDirectory key then .file .isDirectory else .notFound key) := by
  refine bind_eq_error.2 (Or.inr ⟨key, Blob.checkKey_eq_ok.2 ⟨hkey, rfl⟩, ?_⟩)
  rw [show (onFiles bucket blobs).blobs.get? key = none from hnone]
  simp only [show (onFiles bucket blobs).keeping = .files from rfl, true_and]
  split_ifs <;> rfl

theorem read_inMemory (hkey : Blob.isKey key.toList) (hnone : blobs.get? key = none) :
    (inMemory bucket blobs).read key = .error (.notFound key) := by
  refine bind_eq_error.2 (Or.inr ⟨key, Blob.checkKey_eq_ok.2 ⟨hkey, rfl⟩, ?_⟩)
  rw [show (inMemory bucket blobs).blobs.get? key = none from hnone]
  simp [inMemory, hasNoPath]

theorem IsTree.alike_read (h : IsTree blobs) (key : String) :
    Alike ((onFiles bucket blobs).answer (.read key)).1 ((inMemory bucket blobs).answer (.read key)).1 ↔
      ¬(BlobCall.read key).Confuses blobs.keys := by
  change Alike (.content <$> (onFiles bucket blobs).read key) (.content <$> (inMemory bucket blobs).read key) ↔
    ¬(Blob.isKey key.toList ∧ Blob.IsNoFile blobs.keys key)
  by_cases hkey : Blob.isKey key.toList
  · simp only [hkey, true_and]
    cases hget : blobs.get? key with
    | some b =>
      have hmem : key ∈ blobs.keys := Fields.mem_keys.2 ⟨b, Fields.mem_of_get? hget⟩
      have hread : ∀ s : BlobStore, s.blobs = blobs → s.read key = .ok b.content :=
        fun s hs => read_eq_ok.2 ⟨hkey, b.type, by rw [hs, hget]⟩
      rw [hread _ rfl, hread _ rfl]
      exact iff_of_true rfl (h.not_isNoFile hmem)
    | none =>
      rw [read_onFiles hkey hget, read_inMemory hkey hget]
      split_ifs with hnull hdirectory
      · rw [hasNoPath_onFiles] at hnull
        exact iff_of_false (by decide : ¬"ValueError" = "KeyError") fun hnot => hnot (Or.inl hnull)
      · have hwithin : ∃ k ∈ blobs.keys, Blob.IsWithin k key := isDirectory_iff.1 hdirectory
        exact iff_of_false (by decide : ¬"IsADirectoryError" = "KeyError") fun hnot => hnot (Or.inr hwithin)
      · rw [hasNoPath_onFiles] at hnull
        refine iff_of_true rfl ?_
        rintro (hnull' | hwithin)
        · exact hnull hnull'
        · exact hdirectory (isDirectory_iff.2 hwithin)
  · rw [read_of_badKey hkey, read_of_badKey hkey]
    exact iff_of_true rfl fun hconfuses => hkey hconfuses.1

theorem holds_of_file (hkey : Blob.isKey key.toList) (hmem : key ∈ s.blobs.keys) : s.holds key = .ok true := by
  refine bind_eq_ok.2 ⟨key, Blob.checkKey_eq_ok.2 ⟨hkey, rfl⟩, ?_⟩
  rw [show s.isFile key = true from Fields.has_iff.2 hmem]
  rfl

theorem holds_onFiles (hkey : Blob.isKey key.toList) (hmem : key ∉ blobs.keys) : (onFiles bucket blobs).holds key =
    if (onFiles bucket blobs).hasNoPath key then .error (.file .nullCharacter)
    else .ok ((onFiles bucket blobs).isDirectory key) := by
  have hfile : (onFiles bucket blobs).isFile key = false := by
    rw [Bool.eq_false_iff]
    exact fun hfile => hmem (Fields.has_iff.1 hfile)
  unfold holds
  rw [Blob.checkKey, if_pos hkey]
  change (if (onFiles bucket blobs).isFile key = true then _ else _) = _
  rw [hfile, if_neg Bool.false_ne_true]
  rfl

theorem holds_inMemory (hkey : Blob.isKey key.toList) (hmem : key ∉ blobs.keys) :
    (inMemory bucket blobs).holds key = .ok false := by
  have hfile : (inMemory bucket blobs).isFile key = false := by
    rw [Bool.eq_false_iff]
    exact fun hfile => hmem (Fields.has_iff.1 hfile)
  unfold holds
  rw [Blob.checkKey, if_pos hkey]
  change (if (inMemory bucket blobs).isFile key = true then _ else _) = _
  rw [hfile, if_neg Bool.false_ne_true]
  rfl

theorem IsTree.alike_holds (h : IsTree blobs) (key : String) :
    Alike ((onFiles bucket blobs).answer (.holds key)).1 ((inMemory bucket blobs).answer (.holds key)).1 ↔
      ¬(BlobCall.holds key).Confuses blobs.keys := by
  change Alike (.held <$> (onFiles bucket blobs).holds key) (.held <$> (inMemory bucket blobs).holds key) ↔
    ¬(Blob.isKey key.toList ∧ Blob.IsNoFile blobs.keys key)
  by_cases hkey : Blob.isKey key.toList
  · simp only [hkey, true_and]
    by_cases hmem : key ∈ blobs.keys
    · rw [holds_of_file hkey (s := onFiles bucket blobs) hmem, holds_of_file hkey (s := inMemory bucket blobs) hmem]
      exact iff_of_true rfl (h.not_isNoFile hmem)
    · rw [holds_onFiles hkey hmem, holds_inMemory hkey hmem]
      split_ifs with hnull
      · rw [hasNoPath_onFiles] at hnull
        exact iff_of_false id fun hnot => hnot (Or.inl hnull)
      · rw [hasNoPath_onFiles] at hnull
        cases hdirectory : (onFiles bucket blobs).isDirectory key with
        | true =>
          have hwithin : ∃ k ∈ blobs.keys, Blob.IsWithin k key := isDirectory_iff.1 hdirectory
          exact iff_of_false (fun heq => by cases heq) fun hnot => hnot (Or.inr hwithin)
        | false =>
          refine iff_of_true rfl ?_
          rintro (hnull' | hwithin)
          · exact hnull hnull'
          · exact Bool.false_ne_true (hdirectory.symm.trans (isDirectory_iff.2 hwithin))
  · rw [holds_of_badKey hkey, holds_of_badKey hkey]
    exact iff_of_true rfl fun hconfuses => hkey hconfuses.1

theorem obstacle_inMemory : (inMemory bucket blobs).obstacle key = none := rfl

theorem answer_write (hkey : Blob.isKey key.toList) (hfree : s.obstacle key = none) :
    s.answer (.write key content type) = (.ok (.address (Blob.address s.bucket key)),
      { s with blobs := s.blobs.put key ⟨content, type⟩ }) := by
  rw [answer, write_of_free hkey hfree]

theorem answer_write_of_badKey (hkey : ¬Blob.isKey key.toList) :
    s.answer (.write key content type) = (.error (.badKey key), s) := by
  rw [answer, write_of_badKey hkey]

theorem IsTree.alike_write (h : IsTree blobs) (key : String) (content : Content) (type : String) :
    Alike ((onFiles bucket blobs).answer (.write key content type)).1
        ((inMemory bucket blobs).answer (.write key content type)).1 ↔
      ¬(BlobCall.write key content type).Confuses blobs.keys := by
  change _ ↔ ¬(Blob.isKey key.toList ∧ (Blob.IsNoFile blobs.keys key ∨ ∃ k ∈ blobs.keys, Blob.IsWithin key k))
  by_cases hkey : Blob.isKey key.toList
  · simp only [hkey, true_and]
    have hfree : (onFiles bucket blobs).obstacle key = none ↔ _ := h.obstacle_eq_none
    rw [← hfree, answer_write hkey obstacle_inMemory]
    cases hobstacle : (onFiles bucket blobs).obstacle key with
    | none =>
      rw [answer_write hkey hobstacle]
      exact iff_of_true rfl rfl
    | some f =>
      rw [answer, write_of_obstacle hkey hobstacle]
      exact iff_of_false id nofun
  · rw [answer_write_of_badKey hkey, answer_write_of_badKey hkey]
    exact iff_of_true rfl fun hconfuses => hkey hconfuses.1

/-- A call is answered alike unless it confuses files with directories. -/
theorem IsTree.alike_iff (h : IsTree blobs) (call : BlobCall) :
    Alike ((onFiles bucket blobs).answer call).1 ((inMemory bucket blobs).answer call).1 ↔
      ¬call.Confuses blobs.keys := by
  cases call with
  | write key content type => exact h.alike_write key content type
  | read key => exact h.alike_read key
  | holds key => exact h.alike_holds key

/-- Behind a call that is answered alike, both stores hold the same blobs. -/
theorem IsTree.next (bucket : String) (h : IsTree blobs) (hcall : ¬call.Confuses blobs.keys) : ∃ blobs', IsTree blobs' ∧
    ((onFiles bucket blobs).answer call).2 = onFiles bucket blobs' ∧
    ((inMemory bucket blobs).answer call).2 = inMemory bucket blobs' ∧
    ∀ k, k ∈ blobs'.keys ↔ k ∈ blobs.keys ∨ call.target? = some k := by
  cases call with
  | read key | holds key => exact ⟨blobs, h, rfl, rfl, fun k => by simp [BlobCall.target?]⟩
  | write key content type =>
    by_cases hkey : Blob.isKey key.toList
    · have hfree : ¬(Blob.IsNoFile blobs.keys key ∨ ∃ k ∈ blobs.keys, Blob.IsWithin key k) :=
        fun hnot => hcall ⟨hkey, hnot⟩
      refine ⟨blobs.put key ⟨content, type⟩, h.put hkey hfree _, ?_, ?_, fun k => ?_⟩
      · rw [answer_write hkey (h.obstacle_eq_none.2 hfree)]
        rfl
      · rw [answer_write hkey obstacle_inMemory]
        rfl
      · rw [Fields.mem_keys_put, BlobCall.target?, if_pos hkey, Option.some_inj, or_comm, eq_comm]
    · refine ⟨blobs, h, ?_, ?_, fun k => ?_⟩
      · rw [answer_write_of_badKey hkey]
      · rw [answer_write_of_badKey hkey]
      · simp [BlobCall.target?, hkey]

end BlobStore

namespace BlobCall

variable {call : BlobCall} {keys keys' : List String}

theorem confuses_congr (hkeys : ∀ k, k ∈ keys ↔ k ∈ keys') : call.Confuses keys ↔ call.Confuses keys' := by
  cases call <;> simp only [Confuses, Blob.IsNoFile, hkeys]

/-- Calls that confuse files with directories do so first, or behind the first one. -/
theorem exists_confuses_cons (keys : List String) (call : BlobCall) (calls : List BlobCall) :
    (∃ before c behind, call :: calls = before ++ c :: behind ∧ c.Confuses (keys ++ targets before)) ↔
      call.Confuses keys ∨ ∃ before c behind, calls = before ++ c :: behind ∧
        c.Confuses ((keys ++ call.target?.toList) ++ targets before) := by
  have htargets : ∀ before, targets (call :: before) = call.target?.toList ++ targets before := by
    intro before
    unfold targets
    rw [List.filterMap_cons]
    cases call.target? <;> rfl
  constructor
  · rintro ⟨before, c, behind, hcalls, hc⟩
    cases before with
    | nil =>
      obtain ⟨rfl, rfl⟩ := List.cons.inj hcalls
      left
      simpa [targets] using hc
    | cons first before =>
      obtain ⟨rfl, rfl⟩ := List.cons.inj hcalls
      rw [htargets, ← List.append_assoc] at hc
      exact Or.inr ⟨before, c, behind, rfl, hc⟩
  · rintro (hc | ⟨before, c, behind, rfl, hc⟩)
    · exact ⟨[], call, calls, rfl, by simpa [targets] using hc⟩
    · refine ⟨call :: before, c, behind, rfl, ?_⟩
      rwa [htargets, ← List.append_assoc]

end BlobCall

namespace BlobStore

variable {bucket key : String} {content : Content} {blobs : Fields Blob} {s : BlobStore} {keys : List String}

/-- The answers are alike as long as no call confuses files with directories. -/
theorem IsTree.answers_alike_iff (calls : List BlobCall) (h : IsTree blobs) (hkeys : ∀ k, k ∈ blobs.keys ↔ k ∈ keys) :
    List.Forall₂ Alike ((onFiles bucket blobs).answers calls) ((inMemory bucket blobs).answers calls) ↔
      ¬∃ before call behind, calls = before ++ call :: behind ∧ call.Confuses (keys ++ BlobCall.targets before) := by
  induction calls generalizing blobs keys with
  | nil => exact iff_of_true .nil fun ⟨before, call, behind, hcalls, _⟩ => by simp at hcalls
  | cons call calls ih =>
    rw [BlobCall.exists_confuses_cons, answers, answers, List.forall₂_cons, h.alike_iff,
      BlobCall.confuses_congr hkeys, not_or]
    refine and_congr_right fun hcall => ?_
    obtain ⟨blobs', htree, hfiles, hmemory, hmem⟩ :=
      h.next bucket (mt (BlobCall.confuses_congr hkeys).1 hcall)
    rw [hfiles, hmemory]
    refine ih htree fun k => ?_
    rw [hmem, hkeys, List.mem_append, Option.mem_toList]

section Written

/-- A write that returns puts its blob, and whatever else comes of a call leaves the blobs alone. -/
theorem answer_cases (s : BlobStore) (call : BlobCall) :
    (∃ key content type, Blob.isKey key.toList ∧ s.obstacle key = none ∧
      landed call (s.answer call).1 = [(key, content)] ∧
      (s.answer call).2 = { s with blobs := s.blobs.put key ⟨content, type⟩ }) ∨
    landed call (s.answer call).1 = [] ∧ (s.answer call).2 = s := by
  cases call with
  | read key | holds key => exact Or.inr ⟨rfl, rfl⟩
  | write key content type =>
    rw [answer]
    cases hwrite : s.write key content type with
    | ok p =>
      obtain ⟨s', uri⟩ := p
      obtain ⟨hkey, hfree, rfl, -⟩ := write_eq_ok hwrite
      exact Or.inl ⟨key, content, type, hkey, hfree, rfl, rfl⟩
    | error f => exact Or.inr ⟨rfl, rfl⟩

/-- Behind calls, a key has what was last written to it, or else what it had. -/
theorem get?_after (calls : List BlobCall) (s : BlobStore) (key : String) :
    ((s.after calls).blobs.get? key).map (·.content) =
      (Fields.get? (s.written calls).reverse key).or ((s.blobs.get? key).map (·.content)) := by
  induction calls generalizing s with
  | nil => rfl
  | cons call calls ih =>
    change (((s.answer call).2.after calls).blobs.get? key).map (·.content) = _
    rw [ih, written, List.reverse_append, Fields.get?_append, Option.or_assoc]
    congr 1
    rcases s.answer_cases call with ⟨k, content, type, -, -, hlanded, hafter⟩ | ⟨hlanded, hafter⟩
    · rw [hlanded, hafter, List.reverse_singleton, Fields.get?_cons, Fields.get?_nil]
      split_ifs with hk
      · subst hk
        rw [Fields.get?_put_self]
        rfl
      · rw [Fields.get?_put_of_ne _ (Ne.symm hk), Option.none_or]
    · rw [hlanded, hafter]
      rfl

theorem keeping_answer (s : BlobStore) (call : BlobCall) : (s.answer call).2.keeping = s.keeping := by
  rcases s.answer_cases call with ⟨k, content, type, -, -, -, hafter⟩ | ⟨-, hafter⟩ <;> rw [hafter]

theorem keeping_after (calls : List BlobCall) (s : BlobStore) : (s.after calls).keeping = s.keeping := by
  induction calls generalizing s with
  | nil => rfl
  | cons call calls ih => exact (ih (s.answer call).2).trans (s.keeping_answer call)

theorem not_mem_of_obstacle (hfiles : s.keeping = .files) (hfree : s.obstacle key = none) : '\x00' ∉ key.toList := by
  intro hnull
  unfold obstacle at hfree
  simp [hfiles, hasNoPath, hnull] at hfree

theorem isKey_of_written (calls : List BlobCall) (s : BlobStore) (h : (key, content) ∈ s.written calls) :
    Blob.isKey key.toList ∧ (s.keeping = .files → '\x00' ∉ key.toList) := by
  induction calls generalizing s with
  | nil => exact nomatch h
  | cons call calls ih =>
    rcases List.mem_append.1 h with hfirst | hlater
    · rcases s.answer_cases call with ⟨k, content', type, hkey, hfree, hlanded, -⟩ | ⟨hlanded, -⟩
      · rw [hlanded, List.mem_singleton] at hfirst
        obtain ⟨rfl, rfl⟩ := Prod.mk.inj hfirst
        exact ⟨hkey, fun hfiles => not_mem_of_obstacle hfiles hfree⟩
      · rw [hlanded] at hfirst
        exact nomatch hfirst
    · have hbehind := ih _ hlater
      rwa [s.keeping_answer call] at hbehind

/-- A read gives what was last written to its key, however blobs are kept. -/
theorem read_after (calls : List BlobCall) (hempty : s.blobs = []) :
    (s.after calls).read key = .ok content ↔ Fields.get? (s.written calls).reverse key = some content := by
  have hget := get?_after calls s key
  rw [hempty, show Fields.get? ([] : Fields Blob) key = none from rfl, Option.map_none, Option.or_none] at hget
  rw [read_eq_ok, ← hget, Option.map_eq_some_iff]
  constructor
  · rintro ⟨-, type, htype⟩
    exact ⟨_, htype, rfl⟩
  · rintro ⟨b, hb, rfl⟩
    have hlast : Fields.get? (s.written calls).reverse key = some b.content := by rw [← hget, hb, Option.map_some]
    have hwritten : (key, b.content) ∈ s.written calls := List.mem_reverse.1 (Fields.mem_of_get? hlast)
    exact ⟨(isKey_of_written calls s hwritten).1, b.type, hb⟩

theorem mem_keys_after (calls : List BlobCall) (hempty : s.blobs = []) :
    key ∈ (s.after calls).blobs.keys ↔ ∃ content, (key, content) ∈ s.written calls := by
  have hget := get?_after calls s key
  rw [hempty, show Fields.get? ([] : Fields Blob) key = none from rfl, Option.map_none, Option.or_none] at hget
  have hmem : key ∈ Fields.keys (s.written calls).reverse ↔ ∃ content, (key, content) ∈ s.written calls := by
    rw [Fields.mem_keys]
    simp only [List.mem_reverse]
  rw [← hmem, ← not_iff_not, ← Fields.get?_eq_none, ← Fields.get?_eq_none, ← hget, Option.map_eq_none_iff]

/-- A key is held where it is a file, and in a tree of files also where it is a directory. -/
theorem holds_eq_true : s.holds key = .ok true ↔ Blob.isKey key.toList ∧ (key ∈ s.blobs.keys ∨
    s.keeping = .files ∧ '\x00' ∉ key.toList ∧ ∃ k ∈ s.blobs.keys, Blob.IsWithin k key) := by
  by_cases hkey : Blob.isKey key.toList
  · by_cases hmem : key ∈ s.blobs.keys
    · exact iff_of_true (holds_of_file hkey hmem) ⟨hkey, Or.inl hmem⟩
    · obtain ⟨bucket, keeping, blobs⟩ := s
      simp only [hkey, hmem, true_and, false_or]
      cases keeping with
      | memory =>
        rw [show BlobStore.mk bucket .memory blobs = inMemory bucket blobs from rfl, holds_inMemory hkey hmem]
        exact iff_of_false nofun fun h => nomatch h.1
      | files =>
        rw [show BlobStore.mk bucket .files blobs = onFiles bucket blobs from rfl, holds_onFiles hkey hmem]
        split_ifs with hnull
        · rw [hasNoPath_onFiles] at hnull
          exact iff_of_false nofun fun h => h.2.1 hnull
        · rw [hasNoPath_onFiles] at hnull
          rw [Except.ok.injEq, isDirectory_iff]
          exact ⟨fun hwithin => ⟨rfl, hnull, hwithin⟩, fun h => h.2.2⟩
  · rw [holds_of_badKey hkey]
    exact iff_of_false nofun fun h => hkey h.1

theorem holds_after_inMemory (bucket : String) (calls : List BlobCall) (key : String) :
    ((inMemory bucket []).after calls).holds key = .ok true ↔
      ∃ content, (key, content) ∈ (inMemory bucket []).written calls := by
  rw [holds_eq_true, mem_keys_after calls rfl, keeping_after]
  constructor
  · rintro ⟨-, hwritten | ⟨hfiles, -⟩⟩
    · exact hwritten
    · exact nomatch hfiles
  · rintro ⟨content, hcontent⟩
    exact ⟨(isKey_of_written calls _ hcontent).1, Or.inl ⟨content, hcontent⟩⟩

/-- In a tree of files, a key is held when it was written or is a directory of what was. -/
theorem holds_after_onFiles (bucket : String) (calls : List BlobCall) (key : String) :
    ((onFiles bucket []).after calls).holds key = .ok true ↔
      ∃ k content, (k, content) ∈ (onFiles bucket []).written calls ∧ (k = key ∨ Blob.IsWithin k key) := by
  rw [holds_eq_true, mem_keys_after calls rfl]
  constructor
  · rintro ⟨-, ⟨content, hcontent⟩ | ⟨-, -, k, hk, hwithin⟩⟩
    · exact ⟨key, content, hcontent, Or.inl rfl⟩
    · obtain ⟨content, hcontent⟩ := (mem_keys_after calls rfl).1 hk
      exact ⟨k, content, hcontent, Or.inr hwithin⟩
  · rintro ⟨k, content, hcontent, rfl | hwithin⟩
    · exact ⟨(isKey_of_written calls _ hcontent).1, Or.inl ⟨content, hcontent⟩⟩
    · obtain ⟨hkey, hpath⟩ := isKey_of_written calls _ hcontent
      refine ⟨hwithin.isKey hkey, Or.inr ⟨keeping_after calls _, ?_, k, (mem_keys_after calls rfl).2 ⟨content, hcontent⟩,
        hwithin⟩⟩
      obtain ⟨rest, hrest⟩ := Blob.isWithin_iff.1 hwithin
      exact fun hnull => hpath rfl (hrest ▸ List.mem_append_left _ hnull)

/-- From empty stores on, no answer differs before a call that confuses files with directories. -/
theorem answers_alike_empty_iff (bucket : String) (calls : List BlobCall) :
    List.Forall₂ Alike ((onFiles bucket []).answers calls) ((inMemory bucket []).answers calls) ↔
      ¬BlobCall.Confused calls := by
  have hkeys : ∀ k, k ∈ Fields.keys ([] : Fields Blob) ↔ k ∈ ([] : List String) := fun k => Iff.rfl
  exact isTree_nil.answers_alike_iff calls hkeys

/-- The two ways of keeping blobs are interchangeable exactly for calls that confuse no file with a directory. However
blobs are kept, a read gives what was last written to its key. In memory a key is held exactly when it was written; in a
tree of files its directories are held as well. -/
theorem interchangeable_iff (bucket : String) (calls : List BlobCall) :
    (List.Forall₂ Alike ((onFiles bucket []).answers calls) ((inMemory bucket []).answers calls) ↔
      ¬BlobCall.Confused calls) ∧
    (∀ s ∈ [onFiles bucket [], inMemory bucket []], ∀ key content,
      (s.after calls).read key = .ok content ↔ Fields.get? (s.written calls).reverse key = some content) ∧
    (∀ key, ((inMemory bucket []).after calls).holds key = .ok true ↔
      ∃ content, (key, content) ∈ (inMemory bucket []).written calls) ∧
    ∀ key, ((onFiles bucket []).after calls).holds key = .ok true ↔
      ∃ k content, (k, content) ∈ (onFiles bucket []).written calls ∧ (k = key ∨ Blob.IsWithin k key) := by
  refine ⟨answers_alike_empty_iff bucket calls, ?_, holds_after_inMemory bucket calls, holds_after_onFiles bucket calls⟩
  intro s hs key content
  rcases List.mem_pair.1 hs with rfl | rfl
  · exact read_after calls rfl
  · exact read_after calls rfl

/-- A file at `a/b` makes a directory of `a`: it is held, though nothing was written to it. -/
theorem not_interchangeable : ¬∀ bucket calls,
    List.Forall₂ Alike ((onFiles bucket []).answers calls) ((inMemory bucket []).answers calls) := by
  intro h
  refine absurd (h "drawflow" [.write "a/b" (.bytes []) "text/plain", .holds "a"]) fun halike => ?_
  refine (answers_alike_empty_iff _ _).1 halike ⟨[.write "a/b" (.bytes []) "text/plain"], .holds "a", [], rfl, by decide,
    Or.inr ⟨"a/b", by decide, by decide⟩⟩

end Written

end BlobStore
end HuntDraw
