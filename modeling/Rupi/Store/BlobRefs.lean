import Rupi.Store.Payload

/-!
References to stored payloads, and where they lead.

- `BlobPath`: a place below the directory of a store, `BlobRef.path` the one of a
  reference.
- `parseRelative`: the path of a reference that arrives as text.
- **`parseRelative_spec`**: a text that is taken names the place of its own hash and
  encoding; `parseRelative_relativePath`: every reference the store hands out is taken.
-/

namespace Rupi

/-- A place below the blob directory: the shard and the name of the file. -/
abbrev BlobPath := String × String

/-! ### The place of a reference -/

/-- `BlobCompression::suffix`, with its dot. -/
def BlobCompression.dotSuffix : BlobCompression → String
  | .none => ""
  | .deflate => ".deflate"

/-- `path_for`: the relative path behind `blobs/`. -/
def BlobRef.path (blob : BlobRef) : BlobPath :=
  if blob.isWellFormed then
    (String.ofList (blob.hash.toList.take 2), blob.hash ++ blob.compression.dotSuffix)
  else ("invalid", "invalid")

/-- A path names a file of the store: no separator, and no step upwards. -/
def BlobPath.Inside (path : BlobPath) : Prop :=
  '/' ∉ path.1.toList ∧ '/' ∉ path.2.toList ∧ path.1 ∉ ["", ".", ".."] ∧
    path.2 ∉ ["", ".", ".."]

/-! ### Reading a reference -/

/-- `BlobCompression::from_suffix`. -/
def BlobCompression.fromSuffix : Option (List Char) → Option BlobCompression
  | .none => some .none
  | .some suffix => if suffix = "deflate".toList then some .deflate else Option.none

/-- A hash as its text, without the rest of a reference. -/
def BlobRef.ofHash (hash : String) (compression : BlobCompression) : BlobRef :=
  ⟨hash, 0, none, compression⟩

/-- The name of a file, divided at its last dot. -/
def hashAndSuffix (filename : List Char) : List Char × Option (List Char) :=
  match rsplitOnce '.' filename with
  | some (hash, suffix) => (hash, some suffix)
  | none => (filename, none)

/-- `parse_relative`. -/
def parseRelative (reference : String) : Option (BlobPath × BlobCompression) := do
  let rest ← stripFront "blobs/".toList reference.toList
  let (shard, filename) ← splitOnce '/' rest
  guard ('/' ∉ filename ∧ containsText ['.', '.'] reference.toList = false)
  let (hash, suffix) := hashAndSuffix filename
  let compression ← BlobCompression.fromSuffix suffix
  guard ((BlobRef.ofHash (String.ofList hash) compression).isWellFormed = true ∧
    (String.ofList shard).utf8ByteSize = 2 ∧ shard <+: hash)
  some ((String.ofList shard, String.ofList filename), compression)

/-! ### Well-formed hashes -/

/-- `u8::is_ascii_hexdigit`, on the symbols of a text. -/
def isHexDigit (c : Char) : Bool :=
  c.isDigit || (decide ('a' ≤ c) && decide (c ≤ 'f')) || (decide ('A' ≤ c) && decide (c ≤ 'F'))

/-- Hexadecimal text is as long as its bytes. -/
lemma length_utf8Bytes_of_hex {text : List Char} (h : ∀ c ∈ text, isHexDigit c = true) :
    (utf8Bytes text).length = text.length := by
  induction text with
  | nil => rfl
  | cons c text ih =>
    have hc := h c List.mem_cons_self
    have hrest := ih fun d hd => h d (List.mem_cons_of_mem _ hd)
    have hone : c.utf8Size = 1 := by
      simp only [isHexDigit, Bool.or_eq_true, Bool.and_eq_true, decide_eq_true_eq, Char.isDigit,
        Char.le_def, UInt32.le_iff_toNat_le] at hc
      rw [Char.utf8Size_eq_one_iff, UInt32.le_iff_toNat_le]
      rcases hc with (hc | hc) | hc <;> exact hc.2.trans (by decide)
    rw [utf8Bytes] at hrest ⊢
    rw [List.flatMap_cons, List.length_append, String.length_utf8EncodeChar, hone, hrest,
      List.length_cons, Nat.add_comm]

lemma isWellFormed_iff (blob : BlobRef) :
    blob.isWellFormed = true ↔ blob.hash.toList.length = 64 ∧
      ∀ c ∈ blob.hash.toList, isHexDigit c = true := by
  rw [BlobRef.isWellFormed, Bool.and_eq_true, decide_eq_true_eq, List.all_eq_true,
    ← length_utf8Bytes]
  exact and_congr_left fun hdigits => by rw [length_utf8Bytes_of_hex hdigits]

section WellFormed

variable {blob : BlobRef} (h : blob.isWellFormed = true)

include h

lemma notMem_hash : '/' ∉ blob.hash.toList ∧ '.' ∉ blob.hash.toList := by
  have hdigits := ((isWellFormed_iff blob).mp h).2
  constructor <;> intro hmem <;> exact absurd (hdigits _ hmem) (by decide)

lemma path_of_isWellFormed : blob.path =
    (String.ofList (blob.hash.toList.take 2), blob.hash ++ blob.compression.dotSuffix) := by
  rw [BlobRef.path, if_pos h]

/-- The durable text of a reference is the path below the blob directory. -/
lemma relativePath_of_isWellFormed : blob.relativePath.toList =
    "blobs/".toList ++ (blob.path.1.toList ++ '/' :: blob.path.2.toList) := by
  rw [path_of_isWellFormed h, BlobRef.relativePath, if_pos h]
  cases blob.compression <;>
    simp [BlobCompression.dotSuffix, String.toList_append, List.append_assoc]

/-- The name of the file, and what its last dot divides. -/
lemma hashAndSuffix_path : hashAndSuffix blob.path.2.toList =
    (blob.hash.toList, match blob.compression with
      | .none => none
      | .deflate => some "deflate".toList) := by
  have hdot := (notMem_hash h).2
  rw [path_of_isWellFormed h, hashAndSuffix]
  cases hcompression : blob.compression with
  | none =>
    have hname : (blob.hash ++ BlobCompression.none.dotSuffix).toList = blob.hash.toList := by
      simp [BlobCompression.dotSuffix]
    simp only [hname, rsplitOnce_eq_none.mpr hdot]
  | deflate =>
    have hname : (blob.hash ++ BlobCompression.deflate.dotSuffix).toList =
        blob.hash.toList ++ '.' :: "deflate".toList := by
      simp [BlobCompression.dotSuffix, String.toList_append]
    have hsuffix : '.' ∉ "deflate".toList := by decide
    simp only [hname, rsplitOnce_append hsuffix]

/-- The file of a reference lies inside the store. -/
lemma inside_path : BlobPath.Inside blob.path := by
  obtain ⟨hlength, -⟩ := (isWellFormed_iff blob).mp h
  obtain ⟨hslash, hdot⟩ := notMem_hash h
  have htake : (blob.hash.toList.take 2).length = 2 := by
    rw [List.length_take, hlength]
    rfl
  rw [path_of_isWellFormed h]
  refine ⟨?_, ?_, ?_, ?_⟩
  · rw [String.toList_ofList]
    exact fun hmem => hslash (List.mem_of_mem_take hmem)
  · rw [String.toList_append, List.mem_append, not_or]
    refine ⟨hslash, ?_⟩
    cases blob.compression <;> decide
  · intro hmem
    have hshort : ∀ text ∈ ["", "."], blob.hash.toList.take 2 ≠ text.toList := by
      intro text htext heq
      have hlen := congrArg List.length heq
      rw [htake] at hlen
      fin_cases htext <;> simp at hlen
    simp only [List.mem_cons, List.not_mem_nil, or_false, ← String.toList_inj,
      String.toList_ofList] at hmem
    rcases hmem with heq | heq | heq
    · exact hshort "" (by simp) heq
    · exact hshort "." (by simp) heq
    · refine hdot (List.mem_of_mem_take (i := 2) ?_)
      rw [heq]
      decide
  · intro hmem
    simp only [List.mem_cons, List.not_mem_nil, or_false, ← String.toList_inj,
      String.toList_append] at hmem
    have hlen : (blob.hash.toList ++ blob.compression.dotSuffix.toList).length ≤ 2 := by
      rcases hmem with heq | heq | heq <;> rw [heq] <;> decide
    rw [List.length_append, hlength] at hlen
    omega

end WellFormed

/-! ### What a text is taken for -/

/-- Two dots in a row are two dots. -/
lemma two_dots {text : List Char} (h : text.count '.' ≤ 1) :
    containsText ['.', '.'] text = false := by
  rw [Bool.eq_false_iff, Ne, containsText_iff]
  intro hdots
  have hcount := hdots.sublist.count_le '.'
  have htwo : List.count '.' ['.', '.'] = 2 := by decide
  omega

/-- The file name of a known encoding is the hash with its suffix. -/
lemma eq_of_fromSuffix {filename : List Char} {compression : BlobCompression}
    (h : BlobCompression.fromSuffix (hashAndSuffix filename).2 = some compression) :
    filename = (hashAndSuffix filename).1 ++ compression.dotSuffix.toList := by
  rw [hashAndSuffix] at h ⊢
  cases hsplit : rsplitOnce '.' filename with
  | none =>
    rw [hsplit] at h
    obtain rfl := Option.some.inj h
    simp [BlobCompression.dotSuffix]
  | some parts =>
    obtain ⟨hash, suffix⟩ := parts
    rw [hsplit] at h
    dsimp only [BlobCompression.fromSuffix] at h
    split_ifs at h with hsuffix
    obtain rfl := Option.some.inj h
    rw [(rsplitOnce_eq_some hsplit).1, hsuffix]
    rfl

/-- **What a reference is taken for**: the encoding it names, and the place the store
gives its own hash under it, which is inside the store. -/
theorem parseRelative_spec {reference : String} {path : BlobPath}
    {compression : BlobCompression} (h : parseRelative reference = some (path, compression)) :
    ∃ hash, (BlobRef.ofHash hash compression).isWellFormed = true ∧
      (BlobRef.ofHash hash compression).relativePath = reference ∧
      path = (BlobRef.ofHash hash compression).path ∧ path.Inside := by
  simp only [parseRelative, Option.bind_eq_bind, Option.bind_eq_some_iff, Option.guard_eq_some',
    Option.some.injEq, Prod.mk.injEq] at h
  obtain ⟨rest, hrest, ⟨shard, filename⟩, hsplit, -, -, compression, hsuffix, -,
    ⟨hform, hshard, hpre⟩, ⟨rfl, rfl⟩, rfl⟩ := h
  have hdigits := ((isWellFormed_iff _).mp hform).2
  rw [BlobRef.ofHash, String.toList_ofList] at hdigits
  -- the two bytes of the shard are the first two symbols of the hash
  have hlength : shard.length = 2 := by
    rw [← length_utf8Bytes, String.toList_ofList,
      length_utf8Bytes_of_hex fun c hc => hdigits c (hpre.subset hc)] at hshard
    exact hshard
  have htake : shard = (hashAndSuffix filename).1.take 2 := by
    rw [← hlength]
    exact List.prefix_iff_eq_take.mp hpre
  have hpath : (String.ofList shard, String.ofList filename) =
      (BlobRef.ofHash (String.ofList (hashAndSuffix filename).1) compression).path := by
    rw [path_of_isWellFormed hform, BlobRef.ofHash, Prod.mk.injEq]
    refine ⟨by rw [String.toList_ofList, ← htake], ?_⟩
    rw [← String.toList_inj, String.toList_append, String.toList_ofList, String.toList_ofList]
    exact eq_of_fromSuffix hsuffix
  refine ⟨_, hform, ?_, hpath, hpath ▸ inside_path hform⟩
  rw [← String.toList_inj, relativePath_of_isWellFormed hform, ← hpath]
  rw [stripFront] at hrest
  split_ifs at hrest with hfront
  obtain ⟨tail, htail⟩ := hfront
  obtain rfl := Option.some.inj hrest
  rw [← htail, List.drop_left] at hsplit
  rw [← htail, (splitOnce_eq_some hsplit).1]
  simp

/-- Every reference the store hands out is taken for the place it was written to. -/
theorem parseRelative_relativePath {blob : BlobRef} (h : blob.isWellFormed = true) :
    parseRelative blob.relativePath = some (blob.path, blob.compression) := by
  obtain ⟨hshardSlash, hfileSlash, -, -⟩ := inside_path h
  have hreference := relativePath_of_isWellFormed h
  have hrest : stripFront "blobs/".toList blob.relativePath.toList =
      some (blob.path.1.toList ++ '/' :: blob.path.2.toList) := by
    rw [hreference, stripFront, if_pos (List.prefix_append _ _), List.drop_left]
  have hdots : containsText ['.', '.'] blob.relativePath.toList = false := by
    refine two_dots ?_
    have hhash := List.count_eq_zero.mpr (notMem_hash h).2
    have htake : (blob.hash.toList.take 2).count '.' = 0 :=
      List.count_eq_zero.mpr fun hmem => (notMem_hash h).2 (List.mem_of_mem_take hmem)
    have hroot : "blobs/".toList.count '.' = 0 := by decide
    have hsuffix : blob.compression.dotSuffix.toList.count '.' ≤ 1 := by
      cases blob.compression <;> decide
    rw [hreference, path_of_isWellFormed h]
    simp only [List.count_append, List.count_cons, String.toList_ofList, String.toList_append,
      hhash, htake, hroot]
    simpa using hsuffix
  have hform : (BlobRef.ofHash (String.ofList blob.hash.toList) blob.compression).isWellFormed =
      true := by
    rw [String.ofList_toList]
    exact h
  have hshard : blob.path.1.toList <+: blob.hash.toList ∧ blob.path.1.utf8ByteSize = 2 := by
    have hdigits := (isWellFormed_iff blob).mp h
    rw [path_of_isWellFormed h, ← length_utf8Bytes, String.toList_ofList,
      length_utf8Bytes_of_hex fun c hc => hdigits.2 c (List.mem_of_mem_take hc),
      List.length_take, hdigits.1]
    exact ⟨List.take_prefix _ _, rfl⟩
  have hcompression : BlobCompression.fromSuffix (hashAndSuffix blob.path.2.toList).2 =
      some blob.compression := by
    rw [hashAndSuffix_path h]
    cases blob.compression <;> rfl
  simp only [parseRelative, Option.bind_eq_bind, Option.bind_eq_some_iff, Option.guard_eq_some',
    Option.some.injEq]
  refine ⟨_, hrest, _, splitOnce_append hshardSlash, (), ⟨hfileSlash, hdots⟩, _, hcompression, (),
    ?_, ?_⟩
  · rw [hashAndSuffix_path h]
    dsimp only
    refine ⟨hform, ?_, hshard.1⟩
    rw [String.ofList_toList]
    exact hshard.2
  · dsimp only
    rw [String.ofList_toList, String.ofList_toList]

end Rupi
