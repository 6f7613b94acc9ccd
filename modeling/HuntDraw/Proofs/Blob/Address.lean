import HuntDraw.Node.Document
import HuntDraw.Proofs.Blob.Store
import HuntDraw.Proofs.Engine.Ids
import Mathlib.Data.List.TakeWhile

/-! Keys of blobs that are made of names, and the addresses of keys. Between slashes there has to be a proper step.
Addresses can be undone where the bucket has no slash: a bucket with one makes addresses that it does not take for its
own, and the bucket that is named before its first slash may take them. Whatever a store reads as the address of a key
is what it writes for this key. -/

namespace HuntDraw

open HuntDraw.Action Attempt

namespace Text

variable {sep : Char} {cs ds : List Char}

theorem splitChars_ne_nil (sep : Char) (cs : List Char) : splitChars sep cs ≠ [] := by
  cases cs with
  | nil => exact List.cons_ne_nil _ _
  | cons c cs =>
    rw [splitChars]
    split
    · exact List.cons_ne_nil _ _
    · split <;> exact List.cons_ne_nil _ _

theorem splitChars_cons (sep c : Char) (cs : List Char) : ∃ piece pieces, splitChars sep cs = piece :: pieces ∧
    splitChars sep (c :: cs) = if c = sep then [] :: piece :: pieces else (c :: piece) :: pieces := by
  cases h : splitChars sep cs with
  | nil => exact absurd h (splitChars_ne_nil sep cs)
  | cons piece pieces => exact ⟨piece, pieces, rfl, by rw [splitChars, h]⟩

theorem splitChars_of_notMem (h : sep ∉ cs) : splitChars sep cs = [cs] := by
  induction cs with
  | nil => rfl
  | cons c cs ih =>
    rw [List.mem_cons, not_or] at h
    rw [splitChars, ih h.2]
    exact if_neg (Ne.symm h.1)

theorem splitChars_append_cons (sep : Char) (cs ds : List Char) :
    splitChars sep (cs ++ sep :: ds) = splitChars sep cs ++ splitChars sep ds := by
  induction cs with
  | nil =>
    obtain ⟨piece, pieces, hds, hsplit⟩ := splitChars_cons sep sep ds
    rw [List.nil_append, hsplit, if_pos rfl, hds]
    rfl
  | cons c cs ih =>
    obtain ⟨piece, pieces, hcs, hsplit⟩ := splitChars_cons sep c cs
    rw [List.cons_append, splitChars, ih, hcs, hsplit]
    simp only [List.cons_append]
    split_ifs <;> rfl

theorem splitChars_append (h : sep ∉ cs) (ds : List Char) :
    splitChars sep (cs ++ sep :: ds) = cs :: splitChars sep ds := by
  rw [splitChars_append_cons, splitChars_of_notMem h]
  rfl

end Text

namespace Blob

/-- A name that can be a step of a key: it has something in it, and neither a slash nor a backslash nor a point. -/
structure IsPlain (s : String) : Prop where
  filled : s ≠ ""
  slash : '/' ∉ s.toList
  backslash : '\\' ∉ s.toList
  point : '.' ∉ s.toList

instance (s : String) : Decidable (IsPlain s) :=
  decidable_of_iff (s ≠ "" ∧ '/' ∉ s.toList ∧ '\\' ∉ s.toList ∧ '.' ∉ s.toList)
    ⟨fun ⟨h₁, h₂, h₃, h₄⟩ => ⟨h₁, h₂, h₃, h₄⟩, fun h => ⟨h.filled, h.slash, h.backslash, h.point⟩⟩

theorem isStep_of_mem {part : List Char} {c : Char} (hc : c ∈ part) (hpoint : c ≠ '.') : isStep part := by
  have hfilled : part ≠ [] := List.ne_nil_of_mem hc
  have hone : part ≠ ['.'] := fun h => hpoint (by simpa [h] using hc)
  have htwo : part ≠ ['.', '.'] := fun h => hpoint (by simpa [h] using hc)
  simp [isStep, hfilled, hone, htwo]

theorem IsPlain.isStep {s : String} (h : IsPlain s) : isStep s.toList := by
  cases hs : s.toList with
  | nil => exact absurd (String.toList_eq_nil_iff.1 hs) h.filled
  | cons c cs =>
    have hc : c ∈ s.toList := hs ▸ List.mem_cons_self
    exact isStep_of_mem List.mem_cons_self fun hpoint => h.point (hpoint ▸ hc)

theorem isPlain_idText (n : Nat) : IsPlain (idText n) := by
  refine ⟨fun h => ?_, notMem_idText (by decide) n, notMem_idText (by decide) n, notMem_idText (by decide) n⟩
  have hlength : (idText n).toList.length = 0 := by rw [h]; rfl
  rw [idText, String.toList_ofList, List.length_append, List.length_replicate] at hlength
  omega

theorem documentKey_toList (organization id filename : String) : (Draft.key organization id filename).toList =
    organization.toList ++ '/' :: ("documents".toList ++ '/' :: (id.toList ++ '/' :: filename.toList)) := by
  change (organization ++ "/documents/" ++ id ++ "/" ++ filename).toList = _
  simp only [String.toList_append, List.append_assoc]
  rfl

theorem splitChars_documentKey {organization filename : String} (horganization : IsPlain organization) (n : Nat)
    (hfile : '/' ∉ filename.toList) : Text.splitChars '/' (Draft.key organization (idText n) filename).toList =
      [organization.toList, "documents".toList, (idText n).toList, filename.toList] := by
  rw [documentKey_toList, Text.splitChars_append horganization.slash, Text.splitChars_append (by decide),
    Text.splitChars_append (isPlain_idText n).slash, Text.splitChars_of_notMem hfile]

theorem isKey_documentKey {organization filename : String} (horganization : IsPlain organization) (n : Nat)
    (hfile : isStep filename.toList) (hslash : '/' ∉ filename.toList) (hbackslash : '\\' ∉ filename.toList) :
    isKey (Draft.key organization (idText n) filename).toList := by
  have hfree : '\\' ∉ (Draft.key organization (idText n) filename).toList := by
    rw [documentKey_toList]
    simp [horganization.backslash, (isPlain_idText n).backslash, hbackslash]
  rw [isKey, splitChars_documentKey horganization n hslash]
  simp [hfree, horganization.isStep, (isPlain_idText n).isStep, hfile]
  decide

/-- Documents of an organization with different ids are kept in different places. -/
theorem documentKey_ne {organization filename filename' : String} {m n : Nat} (hmn : m ≠ n) :
    Draft.key organization (idText m) filename ≠ Draft.key organization (idText n) filename' := by
  intro h
  have hkeys := congrArg String.toList h
  rw [documentKey_toList, documentKey_toList] at hkeys
  have hends : (idText m).toList ++ '/' :: filename.toList = (idText n).toList ++ '/' :: filename'.toList := by
    simpa only [List.append_cancel_left_eq, List.cons.injEq, true_and] using hkeys
  have hsteps := congrArg (Text.splitChars '/') hends
  rw [Text.splitChars_append (isPlain_idText m).slash, Text.splitChars_append (isPlain_idText n).slash] at hsteps
  exact hmn (idText_injective (String.toList_injective (List.cons.inj hsteps).1))

/-- A bucket whose addresses can be told apart. -/
def IsBucket (bucket : String) : Prop := bucket ≠ "" ∧ '/' ∉ bucket.toList

theorem toList_address (bucket key : String) :
    (address bucket key).toList = scheme.toList ++ (bucket.toList ++ '/' :: key.toList) := by
  simp only [address, String.toList_append, List.append_assoc]
  rfl

/-- An address is read as the bucket and the key that it was made of. -/
theorem parseAddress_address {bucket key : String} (hbucket : IsBucket bucket) (hkey : key ≠ "") :
    parseAddress (address bucket key) = .ok (bucket, key) := by
  have haddress : isAddress (address bucket key) = true := by
    rw [isAddress, Text.startsWith, toList_address, List.isPrefixOf_iff_prefix]
    exact List.prefix_append _ _
  have hrest : (address bucket key).toList.drop scheme.length = bucket.toList ++ '/' :: key.toList := by
    rw [toList_address]
    exact List.drop_left
  have hname : ∀ c ∈ bucket.toList, decide (c ≠ '/') = true := fun c hc =>
    decide_eq_true fun heq => hbucket.2 (heq ▸ hc)
  have hfilled : bucket.toList ≠ [] ∧ key.toList ≠ [] :=
    ⟨fun h => hbucket.1 (String.toList_eq_nil_iff.1 h), fun h => hkey (String.toList_eq_nil_iff.1 h)⟩
  rw [parseAddress, haddress]
  simp only [Bool.not_true, Bool.false_eq_true, if_false, hrest]
  obtain ⟨htake, hdrop⟩ := Text.scan_append hname (c := '/') (by decide) key.toList
  rw [htake, hdrop]
  simp [hfilled]

/-- A text that is read as a bucket and a key is the address of the key in the bucket. -/
theorem eq_address_of_parseAddress {uri bucket key : String} (h : parseAddress uri = .ok (bucket, key)) :
    IsBucket bucket ∧ key ≠ "" ∧ uri = address bucket key := by
  rw [parseAddress] at h
  simp only at h
  split_ifs at h with haddress hempty
  obtain ⟨rfl, rfl⟩ := Prod.mk.inj (Except.ok.inj h)
  rw [not_or, List.isEmpty_iff, List.isEmpty_iff] at hempty
  obtain ⟨rest, hrest⟩ : scheme.toList <+: uri.toList := by
    rwa [Bool.not_eq_true', Bool.not_eq_false, isAddress, Text.startsWith, List.isPrefixOf_iff_prefix] at haddress
  have hdrop : uri.toList.drop scheme.length = rest := hrest ▸ List.drop_left
  rw [hdrop] at hempty ⊢
  -- behind the bucket there is a slash, since there is a key
  obtain ⟨c, key, hbehind⟩ := List.exists_cons_of_ne_nil fun h : rest.dropWhile (· ≠ '/') = [] =>
    hempty.2 (by rw [h, List.drop_nil])
  obtain ⟨hparts, hslash⟩ := Text.eq_scan_append hbehind
  obtain rfl : c = '/' := by simpa using hslash
  rw [hbehind, List.drop_one, List.tail_cons] at hempty ⊢
  refine ⟨⟨fun hnone => hempty.1 ?_, fun hslash => ?_⟩, fun hnone => hempty.2 ?_, String.toList_injective ?_⟩
  · rwa [← String.toList_eq_nil_iff, String.toList_ofList] at hnone
  · rw [String.toList_ofList] at hslash
    simpa using List.mem_takeWhile_imp hslash
  · rwa [← String.toList_eq_nil_iff, String.toList_ofList] at hnone
  · rw [toList_address, String.toList_ofList, String.toList_ofList, ← hparts, hrest]

/-- A bucket finds the keys that are its own in their addresses, and in nothing else. -/
theorem keyOf_eq_ok {bucket uri key : String} :
    keyOf bucket uri = .ok key ↔ IsBucket bucket ∧ isKey key.toList ∧ uri = address bucket key := by
  constructor
  · intro h
    obtain ⟨⟨found, path⟩, hparsed, hkey⟩ := bind_eq_ok.1 h
    simp only at hkey
    split_ifs at hkey with hfound
    obtain rfl : found = bucket := not_not.1 hfound
    obtain ⟨hpath, rfl⟩ := checkKey_eq_ok.1 hkey
    obtain ⟨hbucket, -, rfl⟩ := eq_address_of_parseAddress hparsed
    exact ⟨hbucket, hpath, rfl⟩
  · rintro ⟨hbucket, hkey, rfl⟩
    have hfilled : key ≠ "" := fun hnone => absurd (hnone ▸ hkey) (by decide)
    refine bind_eq_ok.2 ⟨_, parseAddress_address hbucket hfilled, ?_⟩
    simp only [ne_eq, not_true_eq_false, if_false]
    exact checkKey_eq_ok.2 ⟨hkey, rfl⟩

theorem isBucket_of_keyOf {bucket uri key : String} (h : keyOf bucket uri = .ok key) : IsBucket bucket :=
  (keyOf_eq_ok.1 h).1

theorem keyOf_address {bucket key : String} (hbucket : IsBucket bucket) (hkey : isKey key.toList) :
    keyOf bucket (address bucket key) = .ok key := keyOf_eq_ok.2 ⟨hbucket, hkey, rfl⟩

end Blob

namespace BlobStore

def fetch (s : BlobStore) (uri : String) : Except BlobFault Content := do s.read (← s.keyOf uri)

/-- The text is an address in the bucket of the store, and the store has a blob there. -/
def HasAt (s : BlobStore) (uri : String) (content : Content) : Prop := ∃ key type, Blob.IsBucket s.bucket ∧
  Blob.isKey key.toList ∧ uri = Blob.address s.bucket key ∧ s.blobs.get? key = some ⟨content, type⟩

theorem fetch_eq_ok {s : BlobStore} {uri : String} {content : Content} :
    s.fetch uri = .ok content ↔ s.HasAt uri content := by
  rw [fetch, bind_eq_ok]
  constructor
  · rintro ⟨key, hkey, hread⟩
    obtain ⟨hbucket, hpath, huri⟩ := Blob.keyOf_eq_ok.1 hkey
    obtain ⟨-, type, hget⟩ := read_eq_ok.1 hread
    exact ⟨key, type, hbucket, hpath, huri, hget⟩
  · rintro ⟨key, type, hbucket, hpath, huri, hget⟩
    exact ⟨key, Blob.keyOf_eq_ok.2 ⟨hbucket, hpath, huri⟩, read_eq_ok.2 ⟨hpath, type, hget⟩⟩

theorem fetch_address {s : BlobStore} {key type : String} {content : Content} (hbucket : Blob.IsBucket s.bucket)
    (hkey : Blob.isKey key.toList) (hget : s.blobs.get? key = some ⟨content, type⟩) :
    s.fetch (Blob.address s.bucket key) = .ok content :=
  fetch_eq_ok.2 ⟨key, type, hbucket, hkey, rfl, hget⟩

end BlobStore

namespace Blob

variable {bucket other uri key : String} {f : BlobFault}

theorem isKey_append {path key : List Char} : isKey (path ++ '/' :: key) ↔ isKey path ∧ isKey key := by
  have hslash : ('\\' == '/') = false := by decide
  simp only [isKey, Text.splitChars_append_cons, List.all_append, List.contains_append, List.contains_cons, hslash,
    Bool.false_or, Bool.not_or, Bool.and_eq_true]
  exact and_and_and_comm

theorem checkKey_kind (h : checkKey key = .error f) : f.kind = "ValueError" := by
  rw [checkKey] at h
  split_ifs at h
  exact Except.error.inj h ▸ rfl

theorem parseAddress_kind (h : parseAddress uri = .error f) : f.kind = "ValueError" := by
  rw [parseAddress] at h
  simp only at h
  split_ifs at h
  · exact Except.error.inj h ▸ rfl
  · exact Except.error.inj h ▸ rfl

theorem keyOf_kind (h : keyOf bucket uri = .error f) : f.kind = "ValueError" := by
  rcases bind_eq_error.1 h with hparsed | ⟨⟨found, path⟩, -, hkey⟩
  · exact parseAddress_kind hparsed
  · simp only at hkey
    split_ifs at hkey
    · exact Except.error.inj hkey ▸ rfl
    · exact checkKey_kind hkey

theorem addressOf_eq_ok : addressOf bucket key = .ok uri ↔ isKey key.toList ∧ uri = address bucket key := by
  rw [addressOf, map_eq_ok]
  constructor
  · rintro ⟨key', hchecked, rfl⟩
    obtain ⟨hkey, rfl⟩ := checkKey_eq_ok.1 hchecked
    exact ⟨hkey, rfl⟩
  · rintro ⟨hkey, rfl⟩
    exact ⟨key, checkKey_eq_ok.2 ⟨hkey, rfl⟩, rfl⟩

/-- A bucket that is named like a path below another one. -/
def Below (bucket other : String) : Prop :=
  ∃ path : String, isKey path.toList ∧ bucket = other ++ "/" ++ path

theorem toList_below {path : String} :
    (other ++ "/" ++ path).toList = other.toList ++ '/' :: path.toList := by
  simp only [String.toList_append, List.append_assoc]
  rfl

/-- Another bucket reads the addresses of a bucket that is named below it. -/
theorem keyOf_address_below {path : String} (hother : IsBucket other) (hpath : isKey path.toList)
    (hkey : isKey key.toList) : keyOf other (address (other ++ "/" ++ path) key) = .ok (path ++ "/" ++ key) := by
  refine keyOf_eq_ok.2 ⟨hother, ?_, ?_⟩
  · rw [toList_below]
    exact isKey_append.2 ⟨hpath, hkey⟩
  · rw [← String.toList_inj, toList_address, toList_address, toList_below, toList_below]
    simp

theorem below_of_keyOf_address {path : String} (hne : other ≠ bucket)
    (h : keyOf other (address bucket key) = .ok path) : IsBucket other ∧ Below bucket other := by
  obtain ⟨hother, hpath, haddress⟩ := keyOf_eq_ok.1 h
  refine ⟨hother, ?_⟩
  rw [← String.toList_inj, toList_address, toList_address, List.append_cancel_left_eq] at haddress
  rcases List.append_eq_append_iff.1 haddress with ⟨more, hmore, hrest⟩ | ⟨more, hmore, hrest⟩
  · -- the other bucket would go on behind the slash
    cases more with
    | nil =>
      rw [List.append_nil] at hmore
      exact absurd (String.toList_inj.1 hmore) hne
    | cons c more =>
      obtain ⟨rfl, -⟩ := List.cons.inj hrest
      exact absurd (hmore ▸ List.mem_append_right _ List.mem_cons_self) hother.2
  · cases more with
    | nil =>
      rw [List.append_nil] at hmore
      exact absurd (String.toList_inj.1 hmore).symm hne
    | cons c more =>
      obtain ⟨rfl, hbehind⟩ := List.cons.inj hrest
      rw [hbehind] at hpath
      refine ⟨String.ofList more, ?_, ?_⟩
      · rw [String.toList_ofList]
        exact (isKey_append.1 hpath).1
      · rw [← String.toList_inj, toList_below, String.toList_ofList, hmore]

end Blob

namespace BlobStore

/-- A store gives a key back for each address that it makes where its bucket has no slash. Another store refuses all
these addresses where the bucket is not named below that of the other. An address that a store reads is the one that
it makes for the key, and every other text is refused as a wrong value. -/
theorem addresses_undone_iff (s : BlobStore) :
    ((∀ key, Blob.isKey key.toList → ∃ uri, s.addressOf key = .ok uri ∧ s.keyOf uri = .ok key) ↔
      s.bucket ≠ "" ∧ '/' ∉ s.bucket.toList) ∧
    (∀ other : BlobStore, other.bucket ≠ s.bucket →
      ((∀ key uri, s.addressOf key = .ok uri → ∃ f, other.keyOf uri = .error f ∧ f.kind = "ValueError") ↔
        ¬(Blob.IsBucket other.bucket ∧ Blob.Below s.bucket other.bucket))) ∧
    ∀ uri, (∃ f, s.keyOf uri = .error f ∧ f.kind = "ValueError") ∨
      ∃ key, s.keyOf uri = .ok key ∧ s.addressOf key = .ok uri := by
  refine ⟨⟨fun h => ?_, fun hbucket key hkey => ?_⟩, fun other hne => ⟨fun h => ?_, fun h key uri huri => ?_⟩, fun uri => ?_⟩
  · obtain ⟨uri, -, hfound⟩ := h "k" (by decide)
    exact Blob.isBucket_of_keyOf hfound
  · exact ⟨_, Blob.addressOf_eq_ok.2 ⟨hkey, rfl⟩, Blob.keyOf_address hbucket hkey⟩
  · rintro ⟨hother, path, hpath, hbelow⟩
    obtain ⟨f, hrefused, -⟩ := h "k" _ (Blob.addressOf_eq_ok.2 ⟨by decide, rfl⟩)
    have hkey : Blob.isKey "k".toList := by decide
    have hread := Blob.keyOf_address_below hother hpath hkey
    rw [← hbelow] at hread
    exact nomatch hrefused.symm.trans hread
  · obtain ⟨-, rfl⟩ := Blob.addressOf_eq_ok.1 huri
    cases hread : other.keyOf (Blob.address s.bucket key) with
    | error f => exact ⟨f, rfl, Blob.keyOf_kind hread⟩
    | ok path => exact absurd (Blob.below_of_keyOf_address hne hread) h
  · cases hread : s.keyOf uri with
    | error f => exact .inl ⟨f, rfl, Blob.keyOf_kind hread⟩
    | ok key =>
      obtain ⟨-, hkey, rfl⟩ := Blob.keyOf_eq_ok.1 hread
      exact .inr ⟨key, rfl, Blob.addressOf_eq_ok.2 ⟨hkey, rfl⟩⟩

/-- A bucket that is named below another one loses its addresses to it. -/
theorem addresses_undone_iff_nested :
    let s : BlobStore := ⟨"hunts/spring", .memory, []⟩
    let other : BlobStore := ⟨"hunts", .files, []⟩
    other.bucket ≠ s.bucket ∧
      ¬(∀ key, Blob.isKey key.toList → ∃ uri, s.addressOf key = .ok uri ∧ s.keyOf uri = .ok key) ∧
      ¬∀ key uri, s.addressOf key = .ok uri → ∃ f, other.keyOf uri = .error f ∧ f.kind = "ValueError" := by
  intro s other
  have hne : other.bucket ≠ s.bucket := by decide
  obtain ⟨hown, hothers, -⟩ := addresses_undone_iff s
  refine ⟨hne, fun h => ?_, fun h => ?_⟩
  · exact (hown.1 h).2 (by decide)
  · exact (hothers other hne).1 h ⟨⟨by decide, by decide⟩, "spring", by decide, rfl⟩

/-- The addresses of a bucket that has a name are not all read by its own store. -/
theorem not_addresses_undone : ¬∀ s : BlobStore, s.bucket ≠ "" → ∀ key, Blob.isKey key.toList →
    ∃ uri, s.addressOf key = .ok uri ∧ s.keyOf uri = .ok key := by
  intro h
  obtain ⟨uri, -, hread⟩ := h ⟨"a/b", .memory, []⟩ (by decide) "k" (by decide)
  exact (Blob.isBucket_of_keyOf hread).2 (by decide)

end BlobStore
end HuntDraw
