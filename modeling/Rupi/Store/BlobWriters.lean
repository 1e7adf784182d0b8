import Rupi.Lib.Fallible
import Rupi.Lib.Run
import Rupi.Store.BlobRefs
import Rupi.Store.LineWriter

/-!
Writers of one content-addressed directory.

The directory is a map from paths to bytes. A `put` is a sequence of steps on it; any
number of them run at once, one step of one writer at a time, and a rename fails
whenever it likes.

- `BlobWriters.advance`: the next step of a `put`, with what it does to the directory.
- `BlobWriters.Published`: every reference a `put` has returned is read back.
- **`run_published`**: so it is in every run in which no writer removes an object that
  another one has made good since it looked.
- `removedWinner_lost`: a run in which one does.
-/

namespace Rupi

/-! ### Hashing, compression and names -/

/-- What the store relies on: a hash in hexadecimal, a compression that can be undone,
and names that are never given twice. -/
structure BlobCodec where
  sha256Hex : Bytes → String
  deflate : Bytes → Bytes
  inflate : Bytes → Option Bytes
  uuid : Nat → String
  hex : ∀ bytes, (BlobRef.ofHash (sha256Hex bytes) .none).isWellFormed = true
  inflate_deflate : ∀ bytes, inflate (deflate bytes) = some bytes
  uuid_injective : Function.Injective uuid

/-- The files below the blob directory. -/
abbrev BlobDir := BlobPath → Option Bytes

namespace BlobCodec

variable (codec : BlobCodec)

/-- `encode`. -/
def encode (compression : BlobCompression) (bytes : Bytes) : Bytes :=
  match compression with
  | .none => bytes
  | .deflate => codec.deflate bytes

/-- `decode`. -/
def decode (compression : BlobCompression) (bytes : Bytes) : Option Bytes :=
  match compression with
  | .none => some bytes
  | .deflate => codec.inflate bytes

@[simp] lemma decode_encode (compression : BlobCompression) (bytes : Bytes) :
    codec.decode compression (codec.encode compression bytes) = some bytes := by
  cases compression with
  | none => rfl
  | deflate => exact codec.inflate_deflate bytes

/-- `reference_for`: a payload that does not shrink keeps the raw reference. -/
def referenceFor (preference : BlobCompression) (bytes : Bytes) (contentType : Option String) :
    BlobRef where
  hash := codec.sha256Hex bytes
  size := bytes.length
  contentType := contentType
  compression :=
    if preference = .deflate ∧ (codec.deflate bytes).length < bytes.length then .deflate
    else .none

/-- Whether decoded bytes are those of a reference. -/
def matchesRef (blob : BlobRef) (bytes : Bytes) : Bool :=
  codec.sha256Hex bytes = blob.hash && bytes.length = blob.size

/-- `verify`: the stored bytes decode to those of the reference. -/
def verify (dir : BlobDir) (blob : BlobRef) : Bool :=
  match (dir blob.path).bind (codec.decode blob.compression) with
  | some bytes => codec.matchesRef blob bytes
  | none => false

/-- `get_relative`. -/
def getRelative (dir : BlobDir) (reference : String) : Except StoreError Bytes :=
  match parseRelative reference with
  | none => .error (.invalid ("not a blob reference: " ++ reference))
  | some (path, compression) =>
    match dir path with
    | none => .error (.missing reference)
    | some encoded =>
      match codec.decode compression encoded with
      | none => .error (.invalid "cannot decode deflate payload")
      | some bytes => .ok bytes

/-- The hash a reference names: its last segment without the suffix of an encoding. -/
def namedHash (reference : String) : String :=
  let filename := (reference.toList.reverse.takeWhile (· ≠ '/')).reverse
  if ".deflate".toList <:+ filename then String.ofList (filename.take (filename.length - 8))
  else String.ofList filename

/-- `get_relative_verified`. -/
def getRelativeVerified (dir : BlobDir) (reference : String) : Except StoreError Bytes := do
  let bytes ← codec.getRelative dir reference
  if (namedHash reference).utf8ByteSize ≠ 64 ∨ codec.sha256Hex bytes ≠ namedHash reference then
    .error (.invalid ("blob reference does not match its contents: " ++ reference))
  else .ok bytes

end BlobCodec

/-! ### The steps of a `put` -/

/-- Where a `put` stands: the step it takes next, or what it has returned. -/
inductive PutPhase where
  /-- `final_path.exists()`, and `verify` behind it. -/
  | looking
  | checking
  /-- The temporary file is created, and read back. -/
  | writing
  | verifyingTemp
  | moving
  /-- The rename failed: is there another object, and is it good? -/
  | lookingForWinner
  | checkingWinner
  /-- It was not: it is removed, and the rename tried again. -/
  | removing
  | movingAgain
  | checkingMoved
  /-- The second rename failed as well. -/
  | discardingAgain
  | lookingAgain
  | checkingAgain
  /-- The temporary file is removed before the result is returned. -/
  | discarding (result : Except StoreError BlobRef)
  | returned (result : Except StoreError BlobRef)
  deriving DecidableEq

/-- What a step does to the directory. -/
inductive PutEffect where
  | nothing
  | createTemp
  | discardTemp
  | publish
  | removeObject
  deriving DecidableEq

/-- One call of `put`. -/
structure BlobPut where
  bytes : Bytes
  contentType : Option String
  phase : PutPhase
  deriving DecidableEq

structure BlobState where
  dir : BlobDir
  /-- The calls that have begun, each under the number of its temporary name. -/
  writers : Nat → Option BlobPut

/-- What happens next: a call begins, or takes a step, in which a rename may fail. -/
inductive BlobAction where
  | start (id : Nat) (bytes : Bytes) (contentType : Option String)
  | advance (id : Nat) (renameFails : Bool)

namespace BlobWriters

variable (codec : BlobCodec) (preference : BlobCompression)

/-- The reference a call plans. -/
def blobOf (put : BlobPut) : BlobRef := codec.referenceFor preference put.bytes put.contentType

/-- The temporary path of a call: the final one with another extension. -/
def tempOf (id : Nat) (put : BlobPut) : BlobPath :=
  ((blobOf codec preference put).path.1,
    (blobOf codec preference put).hash ++ ".part-" ++ codec.uuid id)

/-- The bytes a call writes. -/
def encodedOf (put : BlobPut) : Bytes :=
  codec.encode (blobOf codec preference put).compression put.bytes

/-- `verify_file`: the temporary file is read back. -/
def verifyTemp (dir : BlobDir) (id : Nat) (put : BlobPut) : PutEffect × PutPhase :=
  match dir (tempOf codec preference id put) with
  | none => (.nothing, .returned (.error (.io "read")))
  | some encoded =>
    match codec.decode (blobOf codec preference put).compression encoded with
    | none => (.nothing, .returned (.error (.invalid "cannot decode deflate payload")))
    | some bytes =>
      if codec.matchesRef (blobOf codec preference put) bytes then (.nothing, .moving)
      else
        (.discardTemp, .returned
          (.error (.invalid "temporary blob does not match its reference")))

/-- The next step of a call. -/
def advance (dir : BlobDir) (id : Nat) (put : BlobPut) (renameFails : Bool) :
    PutEffect × PutPhase :=
  let blob := blobOf codec preference put
  let exists_ := (dir blob.path).isSome
  let good := codec.verify dir blob
  let failed : StoreError := .io "rename"
  -- a rename needs its source
  let renames := !renameFails && (dir (tempOf codec preference id put)).isSome
  match put.phase with
  | .looking => (.nothing, if exists_ then .checking else .writing)
  | .checking => (.nothing, if good then .returned (.ok blob) else .writing)
  | .writing =>
    if (dir (tempOf codec preference id put)).isSome then
      (.nothing, .returned (.error (.io "create_new")))
    else (.createTemp, .verifyingTemp)
  | .verifyingTemp => verifyTemp codec preference dir id put
  | .moving =>
    if renames then (.publish, .returned (.ok blob)) else (.nothing, .lookingForWinner)
  | .lookingForWinner =>
    (.nothing, if exists_ then .checkingWinner else .discarding (.error failed))
  | .checkingWinner => (.nothing, if good then .discarding (.ok blob) else .removing)
  | .removing =>
    if exists_ then (.removeObject, .movingAgain) else (.nothing, .discarding (.error failed))
  | .movingAgain =>
    if renames then (.publish, .checkingMoved) else (.nothing, .discardingAgain)
  | .checkingMoved =>
    (.nothing, if good then .returned (.ok blob) else .discarding (.error failed))
  | .discardingAgain => (.discardTemp, .lookingAgain)
  | .lookingAgain =>
    (.nothing, if exists_ then .checkingAgain else .returned (.error failed))
  | .checkingAgain =>
    (.nothing, .returned (if good then .ok blob else .error failed))
  | .discarding result => (.discardTemp, .returned result)
  | .returned result => (.nothing, .returned result)

/-- The directory after a step. -/
def perform (dir : BlobDir) (id : Nat) (put : BlobPut) : PutEffect → BlobDir
  | .nothing => dir
  | .createTemp =>
    Function.update dir (tempOf codec preference id put) (some (encodedOf codec preference put))
  | .discardTemp => Function.update dir (tempOf codec preference id put) none
  | .publish =>
    Function.update (Function.update dir (blobOf codec preference put).path
      (dir (tempOf codec preference id put))) (tempOf codec preference id put) none
  | .removeObject => Function.update dir (blobOf codec preference put).path none

/-- One step of the directory and its writers. A call that has begun does not begin
again. -/
def step (s : BlobState) : BlobAction → BlobState
  | .start id bytes contentType =>
    match s.writers id with
    | some _ => s
    | none =>
      { s with writers := Function.update s.writers id (some ⟨bytes, contentType, .looking⟩) }
  | .advance id renameFails =>
    match s.writers id with
    | none => s
    | some put =>
      let next := advance codec preference s.dir id put renameFails
      { dir := perform codec preference s.dir id put next.1
        writers := Function.update s.writers id (some { put with phase := next.2 }) }

/-- Every reference a call has returned is read back. -/
def Published (s : BlobState) : Prop :=
  ∀ id put blob, s.writers id = some put → put.phase = .returned (.ok blob) →
    codec.getRelativeVerified s.dir blob.relativePath = .ok put.bytes

/-- No object is removed that has become good since the remover looked at it. -/
def RemovesOnlyBad (s : BlobState) : BlobAction → Prop
  | .start _ _ _ => True
  | .advance id _ => ∀ put, s.writers id = some put → put.phase = .removing →
    codec.verify s.dir (blobOf codec preference put) = false

instance (s : BlobState) (action : BlobAction) :
    Decidable (RemovesOnlyBad codec preference s action) :=
  match action with
  | .start _ _ _ => isTrue trivial
  | .advance id _ =>
    match hput : s.writers id with
    | none => isTrue fun put h => absurd (hput.symm.trans h) (by simp)
    | some put =>
      decidable_of_iff
        (put.phase = .removing → codec.verify s.dir (blobOf codec preference put) = false)
        ⟨fun h other hother => Option.some.inj (hput.symm.trans hother) ▸ h, fun h => h put hput⟩

/-! ### Paths -/

section Paths

variable {codec preference}

lemma isWellFormed_blobOf (put : BlobPut) :
    (blobOf codec preference put).isWellFormed = true := codec.hex put.bytes

lemma length_hash (put : BlobPut) : (blobOf codec preference put).hash.toList.length = 64 :=
  ((isWellFormed_iff _).mp (isWellFormed_blobOf put)).1

/-- The file name of a reference behind its 64 digits. -/
lemma path_snd (put : BlobPut) : (blobOf codec preference put).path.2.toList =
    (blobOf codec preference put).hash.toList ++
      (blobOf codec preference put).compression.dotSuffix.toList := by
  rw [path_of_isWellFormed (isWellFormed_blobOf put), String.toList_append]

/-- One path is one hash and one encoding. -/
lemma eq_of_path {put put' : BlobPut}
    (h : (blobOf codec preference put).path = (blobOf codec preference put').path) :
    codec.sha256Hex put.bytes = codec.sha256Hex put'.bytes ∧
      (blobOf codec preference put).compression = (blobOf codec preference put').compression := by
  have hnames := congrArg (fun path : BlobPath => path.2.toList) h
  rw [path_snd, path_snd] at hnames
  obtain ⟨hhash, hsuffix⟩ :=
    List.append_inj hnames ((length_hash put).trans (length_hash put').symm)
  refine ⟨String.toList_inj.mp hhash, ?_⟩
  generalize (blobOf codec preference put).compression = a at hsuffix ⊢
  generalize (blobOf codec preference put').compression = b at hsuffix ⊢
  cases a <;> cases b <;> first | rfl | exact absurd hsuffix (by decide)

lemma temp_snd (id : Nat) (put : BlobPut) : (tempOf codec preference id put).2.toList =
    (blobOf codec preference put).hash.toList ++ (".part-".toList ++ (codec.uuid id).toList) := by
  rw [tempOf, String.toList_append, String.toList_append, List.append_assoc]

/-- No temporary file is the object of a reference. -/
lemma temp_ne_path (id : Nat) (put put' : BlobPut) :
    tempOf codec preference id put ≠ (blobOf codec preference put').path := by
  intro h
  have hnames := congrArg (fun path : BlobPath => path.2.toList) h
  rw [temp_snd, path_snd] at hnames
  have hsuffix := (List.append_inj hnames ((length_hash put).trans (length_hash put').symm)).2
  cases hcompression : (blobOf codec preference put').compression with
  | none => simp [hcompression, BlobCompression.dotSuffix] at hsuffix
  | deflate => simp [hcompression, BlobCompression.dotSuffix] at hsuffix

/-- Two calls have two temporary files. -/
lemma id_eq_of_temp {id id' : Nat} {put put' : BlobPut}
    (h : tempOf codec preference id put = tempOf codec preference id' put') : id = id' := by
  have hnames := congrArg (fun path : BlobPath => path.2.toList) h
  rw [temp_snd, temp_snd] at hnames
  have hparts := (List.append_inj hnames ((length_hash put).trans (length_hash put').symm)).2
  exact codec.uuid_injective (String.toList_inj.mp (List.append_cancel_left hparts))

end Paths

/-! ### Good objects -/

section Good

variable {codec preference} {dir : BlobDir} {put put' : BlobPut}

/-- The object of a call decodes to its bytes. -/
def Holds (codec : BlobCodec) (preference : BlobCompression) (dir : BlobDir) (put : BlobPut) :
    Prop :=
  (dir (blobOf codec preference put).path).bind
    (codec.decode (blobOf codec preference put).compression) = some put.bytes

/-- No other content has the hash of these bytes. -/
def BlobCodec.Unique (codec : BlobCodec) (bytes : Bytes) : Prop :=
  ∀ other, codec.sha256Hex other = codec.sha256Hex bytes → other = bytes

/-- A verified object holds the bytes of its reference, and no others. -/
lemma verify_iff (hunique : BlobCodec.Unique codec put.bytes) :
    codec.verify dir (blobOf codec preference put) = true ↔ Holds codec preference dir put := by
  rw [BlobCodec.verify, Holds]
  cases (dir (blobOf codec preference put).path).bind
      (codec.decode (blobOf codec preference put).compression) with
  | none => simp
  | some bytes =>
    simp only [BlobCodec.matchesRef, Bool.and_eq_true, decide_eq_true_eq, Option.some.injEq]
    constructor
    · exact fun hmatch => hunique _ hmatch.1
    · rintro rfl
      exact ⟨rfl, rfl⟩

/-- An object that is good for one call is good for every call of its path. -/
lemma Holds.of_path (hunique : BlobCodec.Unique codec put.bytes)
    (hpath : (blobOf codec preference put').path = (blobOf codec preference put).path)
    (h : Holds codec preference dir put') : Holds codec preference dir put := by
  obtain ⟨hhash, hcompression⟩ := eq_of_path hpath
  rw [Holds, ← hpath, ← hcompression, h, hunique _ hhash]

/-- The hash a reference of the store names is its own. -/
lemma namedHash_relativePath {blob : BlobRef} (h : blob.isWellFormed = true) :
    BlobCodec.namedHash blob.relativePath = blob.hash := by
  have hslash := (inside_path h).2.1
  have hlast : (blob.relativePath.toList.reverse.takeWhile (· ≠ '/')).reverse =
      blob.path.2.toList := by
    have hreverse : blob.relativePath.toList.reverse = blob.path.2.toList.reverse ++
        '/' :: ("blobs/".toList ++ blob.path.1.toList).reverse := by
      rw [relativePath_of_isWellFormed h]
      simp
    have hall : ∀ c ∈ blob.path.2.toList.reverse, decide (c ≠ '/') = true := fun c hc =>
      decide_eq_true fun heq => hslash (heq ▸ List.mem_reverse.mp hc)
    rw [hreverse, List.takeWhile_append_of_pos hall, List.takeWhile_cons_of_neg (by simp),
      List.append_nil, List.reverse_reverse]
  have hdot := (notMem_hash h).2
  rw [BlobCodec.namedHash, hlast, path_of_isWellFormed h]
  cases hcompression : blob.compression with
  | none =>
    have hname : (blob.hash ++ BlobCompression.none.dotSuffix).toList = blob.hash.toList := by
      simp [BlobCompression.dotSuffix]
    rw [hname, if_neg, String.ofList_toList]
    exact fun hsuffix => hdot (hsuffix.subset (by decide))
  | deflate =>
    have hname : (blob.hash ++ BlobCompression.deflate.dotSuffix).toList =
        blob.hash.toList ++ ".deflate".toList := by
      simp [BlobCompression.dotSuffix, String.toList_append]
    have hlength : ".deflate".toList.length = 8 := by decide
    rw [hname, if_pos (List.suffix_append _ _), List.length_append, hlength, Nat.add_sub_cancel,
      List.take_left, String.ofList_toList]

/-- What holds a call's bytes is read back by its reference. -/
lemma getRelativeVerified_of_holds (h : Holds codec preference dir put) :
    codec.getRelativeVerified dir (blobOf codec preference put).relativePath =
      .ok put.bytes := by
  have hform : (blobOf codec preference put).isWellFormed = true := isWellFormed_blobOf put
  have hname : BlobCodec.namedHash (blobOf codec preference put).relativePath =
      (blobOf codec preference put).hash := namedHash_relativePath hform
  have hsize : (blobOf codec preference put).hash.utf8ByteSize = 64 := by
    rw [BlobRef.isWellFormed, Bool.and_eq_true, decide_eq_true_eq] at hform
    exact hform.1
  obtain ⟨encoded, hfile, hdecoded⟩ := Option.bind_eq_some_iff.mp h
  have hread : codec.getRelative dir (blobOf codec preference put).relativePath =
      .ok put.bytes := by
    simp only [BlobCodec.getRelative, parseRelative_relativePath hform, hfile, hdecoded]
  have hhash : codec.sha256Hex put.bytes = (blobOf codec preference put).hash := rfl
  rw [BlobCodec.getRelativeVerified, hread, Fallible.ok_bind, hname, hsize, hhash]
  simp

end Good

/-! ### What a step keeps -/

section Steps

variable {codec preference}

/-- The temporary file of a call exists from its creation to its renaming or removal. -/
def PutPhase.holdsTemp : PutPhase → Bool
  | .verifyingTemp | .moving | .lookingForWinner | .checkingWinner | .removing
  | .movingAgain | .discardingAgain => true
  | _ => false

/-- The call has accepted the object it found or published. -/
def PutPhase.accepted : PutPhase → Option BlobRef
  | .discarding (.ok blob) => some blob
  | .returned (.ok blob) => some blob
  | _ => none

/-- What holds of the directory and the calls between two steps. -/
structure Settled (codec : BlobCodec) (preference : BlobCompression) (s : BlobState) : Prop where
  /-- The contents have hashes of their own. -/
  unique : ∀ id put, s.writers id = some put → BlobCodec.Unique codec put.bytes
  /-- A temporary file holds what its call wrote. -/
  temps : ∀ id put, s.writers id = some put → PutPhase.holdsTemp put.phase = true →
    s.dir (tempOf codec preference id put) = some (encodedOf codec preference put)
  /-- An accepted object is good. -/
  accepted : ∀ id put blob, s.writers id = some put →
    PutPhase.accepted put.phase = some blob →
      blob = blobOf codec preference put ∧ Holds codec preference s.dir put

/-- What a temporary file holds decodes to the bytes of its call. -/
lemma holds_of_temp {dir : BlobDir} {put : BlobPut}
    (h : dir (blobOf codec preference put).path = some (encodedOf codec preference put)) :
    Holds codec preference dir put := by
  rw [Holds, h, Option.bind_some, encodedOf, BlobCodec.decode_encode]

/-- What a step of a call can do: which effect it has, and what follows for the call. -/
structure Moves (codec : BlobCodec) (preference : BlobCompression) (dir : BlobDir)
    (put : BlobPut) (effect : PutEffect) (next : PutPhase) : Prop where
  temp : PutPhase.holdsTemp next = true → effect = .createTemp ∨
    (effect = .nothing ∨ effect = .removeObject) ∧ PutPhase.holdsTemp put.phase = true
  publishes : effect = .publish → PutPhase.holdsTemp put.phase = true
  removes : effect = .removeObject → put.phase = .removing
  accepts : ∀ blob, PutPhase.accepted next = some blob →
    blob = blobOf codec preference put ∧
      (effect = .publish ∨
        (effect = .nothing ∨ effect = .discardTemp) ∧ Holds codec preference dir put)

/-- A step that only waits or fails. -/
lemma Moves.quiet {dir : BlobDir} {put : BlobPut} {effect : PutEffect} {next : PutPhase}
    (htemp : PutPhase.holdsTemp next = true → effect = .createTemp ∨
      (effect = .nothing ∨ effect = .removeObject) ∧ PutPhase.holdsTemp put.phase = true)
    (hpublish : effect = .publish → PutPhase.holdsTemp put.phase = true)
    (hremove : effect = .removeObject → put.phase = .removing)
    (haccepts : PutPhase.accepted next = none) : Moves codec preference dir put effect next :=
  ⟨htemp, hpublish, hremove, fun blob hblob => by simp [haccepts] at hblob⟩

lemma verifyTemp_moves (dir : BlobDir) (id : Nat) {put : BlobPut}
    (hphase : put.phase = .verifyingTemp) :
    Moves codec preference dir put (verifyTemp codec preference dir id put).1
      (verifyTemp codec preference dir id put).2 := by
  rw [verifyTemp]
  split
  · exact .quiet (by simp [PutPhase.holdsTemp]) (by simp) (by simp) rfl
  · split
    · exact .quiet (by simp [PutPhase.holdsTemp]) (by simp) (by simp) rfl
    · split_ifs
      · exact .quiet (fun _ => .inr ⟨.inl rfl, by rw [hphase]; rfl⟩) (by simp) (by simp) rfl
      · exact .quiet (by simp [PutPhase.holdsTemp]) (by simp) (by simp) rfl

/-- A step that accepts the object it found. -/
lemma Moves.accept {dir : BlobDir} {put : BlobPut} {next : PutPhase}
    (htemp : PutPhase.holdsTemp next = false)
    (hnext : PutPhase.accepted next = some (blobOf codec preference put))
    (h : Holds codec preference dir put) : Moves codec preference dir put .nothing next := by
  refine ⟨by simp [htemp], by simp, by simp, fun blob hblob => ?_⟩
  rw [hnext, Option.some.injEq] at hblob
  exact ⟨hblob.symm, .inr ⟨.inl rfl, h⟩⟩

/-- **Every step of a call** is one of its moves. -/
theorem advance_moves {s : BlobState} (h : Settled codec preference s) {id : Nat}
    {put : BlobPut} (hput : s.writers id = some put) (renameFails : Bool) :
    Moves codec preference s.dir put (advance codec preference s.dir id put renameFails).1
      (advance codec preference s.dir id put renameFails).2 := by
  have hgood := (@verify_iff codec preference s.dir put (h.unique id put hput)).mp
  have hstands := h.accepted id put
  rw [advance]
  cases hphase : put.phase with
  | looking =>
    dsimp only
    split_ifs <;> exact .quiet (by simp [PutPhase.holdsTemp]) (by simp) (by simp) rfl
  | checking =>
    dsimp only
    split_ifs with hverify
    · exact .accept rfl rfl (hgood hverify)
    · exact .quiet (by simp [PutPhase.holdsTemp]) (by simp) (by simp) rfl
  | writing =>
    dsimp only
    split_ifs
    · exact .quiet (by simp [PutPhase.holdsTemp]) (by simp) (by simp) rfl
    · exact .quiet (by simp) (by simp) (by simp) rfl
  | verifyingTemp => exact verifyTemp_moves s.dir id hphase
  | moving =>
    dsimp only
    split_ifs
    · refine ⟨by simp [PutPhase.holdsTemp], fun _ => by rw [hphase]; rfl, by simp, ?_⟩
      exact fun blob hblob => ⟨(Option.some.inj hblob).symm, .inl rfl⟩
    · exact .quiet (fun _ => .inr ⟨.inl rfl, by rw [hphase]; rfl⟩) (by simp) (by simp) rfl
  | lookingForWinner =>
    dsimp only
    split_ifs
    · exact .quiet (fun _ => .inr ⟨.inl rfl, by rw [hphase]; rfl⟩) (by simp) (by simp) rfl
    · exact .quiet (by simp [PutPhase.holdsTemp]) (by simp) (by simp) rfl
  | checkingWinner =>
    dsimp only
    split_ifs with hverify
    · exact .accept rfl rfl (hgood hverify)
    · exact .quiet (fun _ => .inr ⟨.inl rfl, by rw [hphase]; rfl⟩) (by simp) (by simp) rfl
  | removing =>
    dsimp only
    split_ifs
    · exact .quiet (fun _ => .inr ⟨.inr rfl, by rw [hphase]; rfl⟩) (by simp)
        (fun _ => hphase) rfl
    · exact .quiet (by simp [PutPhase.holdsTemp]) (by simp) (by simp) rfl
  | movingAgain =>
    dsimp only
    split_ifs
    · exact .quiet (by simp [PutPhase.holdsTemp]) (fun _ => by rw [hphase]; rfl) (by simp) rfl
    · exact .quiet (fun _ => .inr ⟨.inl rfl, by rw [hphase]; rfl⟩) (by simp) (by simp) rfl
  | checkingMoved =>
    dsimp only
    split_ifs with hverify
    · exact .accept rfl rfl (hgood hverify)
    · exact .quiet (by simp [PutPhase.holdsTemp]) (by simp) (by simp) rfl
  | discardingAgain => exact .quiet (by simp [PutPhase.holdsTemp]) (by simp) (by simp) rfl
  | lookingAgain =>
    dsimp only
    split_ifs <;> exact .quiet (by simp [PutPhase.holdsTemp]) (by simp) (by simp) rfl
  | checkingAgain =>
    dsimp only
    split_ifs with hverify
    · exact .accept rfl rfl (hgood hverify)
    · exact .quiet (by simp [PutPhase.holdsTemp]) (by simp) (by simp) rfl
  | discarding result =>
    refine ⟨by simp [PutPhase.holdsTemp], by simp, by simp, fun blob hblob => ?_⟩
    have haccepted : PutPhase.accepted put.phase = some blob := by
      rw [hphase]
      cases result with
      | error error => cases hblob
      | ok found => exact hblob
    exact ⟨(hstands blob hput haccepted).1, .inr ⟨.inr rfl, (hstands blob hput haccepted).2⟩⟩
  | returned result =>
    refine ⟨by simp [PutPhase.holdsTemp], by simp, by simp, fun blob hblob => ?_⟩
    have haccepted : PutPhase.accepted put.phase = some blob := by
      rw [hphase]
      exact hblob
    exact ⟨(hstands blob hput haccepted).1, .inr ⟨.inl rfl, (hstands blob hput haccepted).2⟩⟩

/-- An effect leaves every other file as it is. -/
lemma perform_of_ne (dir : BlobDir) (id : Nat) (put : BlobPut) (effect : PutEffect)
    {path : BlobPath} (htemp : path ≠ tempOf codec preference id put)
    (hpath : path ≠ (blobOf codec preference put).path) :
    perform codec preference dir id put effect path = dir path := by
  cases effect <;> simp [perform, htemp, hpath]

/-- The temporary file of a call stands behind a step that keeps it. -/
lemma temp_perform {s : BlobState} (h : Settled codec preference s) {id : Nat} {put : BlobPut}
    (hput : s.writers id = some put) {effect : PutEffect} {next : PutPhase}
    (hmoves : Moves codec preference s.dir put effect next)
    (hholds : PutPhase.holdsTemp next = true) :
    perform codec preference s.dir id put effect (tempOf codec preference id put) =
      some (encodedOf codec preference put) := by
  rcases hmoves.temp hholds with rfl | ⟨rfl | rfl, hbefore⟩
  · exact Function.update_self _ _ _
  · exact h.temps id put hput hbefore
  · rw [perform, Function.update_of_ne (temp_ne_path id put put)]
    exact h.temps id put hput hbefore

/-- What is published is the temporary file. -/
lemma path_publish {s : BlobState} (h : Settled codec preference s) {id : Nat} {put : BlobPut}
    (hput : s.writers id = some put) (hholds : PutPhase.holdsTemp put.phase = true) :
    perform codec preference s.dir id put .publish (blobOf codec preference put).path =
      some (encodedOf codec preference put) := by
  rw [perform, Function.update_of_ne (temp_ne_path id put put).symm, Function.update_self]
  exact h.temps id put hput hholds

/-- An admissible effect keeps good objects good. -/
lemma holds_perform {s : BlobState} (h : Settled codec preference s) {id : Nat} {put : BlobPut}
    (hput : s.writers id = some put) {effect : PutEffect} {next : PutPhase}
    (hmoves : Moves codec preference s.dir put effect next)
    (hbad : effect = .removeObject → codec.verify s.dir (blobOf codec preference put) = false)
    {other : BlobPut} (hunique : BlobCodec.Unique codec other.bytes)
    (hother : Holds codec preference s.dir other) :
    Holds codec preference (perform codec preference s.dir id put effect) other := by
  have htemp := (@temp_ne_path codec preference id put other).symm
  by_cases hpath : (blobOf codec preference other).path = (blobOf codec preference put).path
  · cases hcase : effect with
    | nothing => exact hother
    | createTemp => rwa [Holds, perform, Function.update_of_ne htemp]
    | discardTemp => rwa [Holds, perform, Function.update_of_ne htemp]
    | publish =>
      exact Holds.of_path hunique hpath.symm
        (holds_of_temp (path_publish h hput (hmoves.publishes hcase)))
    | removeObject =>
      have hgood := (verify_iff (h.unique id put hput)).mpr
        (hother.of_path (h.unique id put hput) hpath)
      rw [hbad hcase] at hgood
      cases hgood
  · rwa [Holds, perform_of_ne _ _ _ _ htemp hpath]

/-- **One step** of the writers keeps what holds between steps. -/
theorem step_settled {s : BlobState} (h : Settled codec preference s) (action : BlobAction)
    (hunique : ∀ id bytes contentType, action = .start id bytes contentType →
      BlobCodec.Unique codec bytes)
    (hbad : RemovesOnlyBad codec preference s action) :
    Settled codec preference (step codec preference s action) := by
  cases action with
  | start id bytes contentType =>
    simp only [step]
    cases hid : s.writers id with
    | some put => exact h
    | none =>
      have hcases : ∀ other put, Function.update s.writers id
          (some ⟨bytes, contentType, .looking⟩) other = some put →
          s.writers other = some put ∨ put = ⟨bytes, contentType, .looking⟩ := by
        intro other put hput
        by_cases hother : other = id
        · rw [hother, Function.update_self, Option.some.injEq] at hput
          exact .inr hput.symm
        · rw [Function.update_of_ne hother] at hput
          exact .inl hput
      refine ⟨fun other put hput => ?_, fun other put hput hholds => ?_,
        fun other put blob hput haccepted => ?_⟩
      · rcases hcases other put hput with hput | rfl
        · exact h.unique other put hput
        · exact hunique id bytes contentType rfl
      · rcases hcases other put hput with hput | rfl
        · exact h.temps other put hput hholds
        · cases hholds
      · rcases hcases other put hput with hput | rfl
        · exact h.accepted other put blob hput haccepted
        · cases haccepted
  | advance id renameFails =>
    simp only [step]
    cases hid : s.writers id with
    | none => exact h
    | some put =>
      have hmoves := advance_moves h hid renameFails
      have hkeeps := fun other => @holds_perform codec preference s h id put hid _ _ hmoves
        (fun heffect => hbad put hid (hmoves.removes heffect)) other
      dsimp only
      generalize advance codec preference s.dir id put renameFails = move at hmoves hkeeps ⊢
      have hcases : ∀ other put', Function.update s.writers id (some { put with phase := move.2 })
          other = some put' →
          (other ≠ id ∧ s.writers other = some put') ∨
            other = id ∧ put' = { put with phase := move.2 } := by
        intro other put' hput
        by_cases hother : other = id
        · rw [hother, Function.update_self, Option.some.injEq] at hput
          exact .inr ⟨hother, hput.symm⟩
        · rw [Function.update_of_ne hother] at hput
          exact .inl ⟨hother, hput⟩
      refine ⟨fun other put' hput => ?_, fun other put' hput hholds => ?_,
        fun other put' blob hput haccepted => ?_⟩
      · rcases hcases other put' hput with ⟨-, hput⟩ | ⟨-, rfl⟩
        · exact h.unique other put' hput
        · exact h.unique id put hid
      · rcases hcases other put' hput with ⟨hother, hput⟩ | ⟨rfl, rfl⟩
        · have hkept := @perform_of_ne codec preference s.dir id put move.1 _
            (fun heq => hother (id_eq_of_temp heq)) (temp_ne_path other put' put)
          exact hkept.trans (h.temps other put' hput hholds)
        · exact temp_perform h hid hmoves hholds
      · rcases hcases other put' hput with ⟨hother, hput⟩ | ⟨rfl, rfl⟩
        · obtain ⟨hblob, hgood⟩ := h.accepted other put' blob hput haccepted
          exact ⟨hblob, hkeeps put' (h.unique other put' hput) hgood⟩
        · obtain ⟨hblob, hpublish | ⟨-, hgood⟩⟩ := hmoves.accepts blob haccepted
          · have hpublished := path_publish h hid (hmoves.publishes hpublish)
            rw [← hpublish] at hpublished
            exact ⟨hblob, holds_of_temp hpublished⟩
          · exact ⟨hblob, hkeeps put (h.unique other put hid) hgood⟩

/-- Before anything begins, nothing is promised. -/
lemma settled_start (dir : BlobDir) : Settled codec preference ⟨dir, fun _ => none⟩ :=
  ⟨by simp, by simp, by simp⟩

/-- A settled state publishes what it has returned. -/
lemma Settled.published {s : BlobState} (h : Settled codec preference s) :
    Published codec s := by
  intro id put blob hput hphase
  obtain ⟨rfl, hgood⟩ := h.accepted id put blob hput (by rw [hphase]; rfl)
  exact getRelativeVerified_of_holds hgood

/-- The contents that begin in a run have hashes of their own. -/
def NoCollisions (codec : BlobCodec) (actions : List BlobAction) : Prop :=
  ∀ id bytes contentType, BlobAction.start id bytes contentType ∈ actions →
    BlobCodec.Unique codec bytes

/-- **A run** in which only bad objects are removed keeps what holds between steps. -/
lemma run_settled {s : BlobState} (h : Settled codec preference s) {actions : List BlobAction}
    (hunique : NoCollisions codec actions)
    (hbad : Run.Along (step codec preference) (RemovesOnlyBad codec preference) s actions) :
    Settled codec preference (Run.run (step codec preference) s actions) := by
  induction actions generalizing s with
  | nil => exact h
  | cons action actions ih =>
    obtain ⟨hfirst, hrest⟩ := hbad
    refine ih (step_settled h action ?_ hfirst) (fun id bytes contentType hmem => ?_) hrest
    · intro id bytes contentType haction
      exact hunique id bytes contentType (haction ▸ List.mem_cons_self)
    · exact hunique id bytes contentType (List.mem_cons_of_mem _ hmem)

/-- **A published reference stays good**, in every run of any number of writers in which
no writer removes an object that has become good since it looked; and a text is taken as
a reference only for the place of its own hash and encoding, inside the store. -/
theorem run_published (codec : BlobCodec) (preference : BlobCompression) (dir : BlobDir)
    (actions : List BlobAction) (hunique : NoCollisions codec actions)
    (hbad : Run.Along (step codec preference) (RemovesOnlyBad codec preference)
      ⟨dir, fun _ => none⟩ actions) :
    (∀ before, before <+: actions →
      Published codec (Run.run (step codec preference) ⟨dir, fun _ => none⟩ before)) ∧
    ∀ reference path compression, parseRelative reference = some (path, compression) →
      ∃ hash, (BlobRef.ofHash hash compression).isWellFormed = true ∧
        (BlobRef.ofHash hash compression).relativePath = reference ∧
        path = (BlobRef.ofHash hash compression).path ∧ path.Inside := by
  refine ⟨fun before hbefore => ?_, fun reference path compression h => parseRelative_spec h⟩
  obtain ⟨after, rfl⟩ := hbefore
  refine (run_settled (settled_start dir) (fun id bytes contentType hmem => ?_)
    (Run.Along.append.mp hbad).1).published
  exact hunique id bytes contentType (List.mem_append_left _ hmem)

end Steps

end BlobWriters

/-! ### A winner that is removed -/

open BlobWriters

namespace RemovedWinner

/-- The bytes of the letter `a`. -/
def letter : Bytes := [97]

def letterHash : String := "ca978112ca1bbdcafac231b39a23dc4da786eff8147c4e72b9807785afee48bb"

def otherHash : String := "0000000000000000000000000000000000000000000000000000000000000000"

/-- A codec that hashes and compresses the letter as the real one does. -/
def codec : BlobCodec where
  sha256Hex bytes := if bytes = letter then letterHash else otherHash
  deflate bytes := if bytes = letter then [75, 4, 0] else 1 :: bytes
  inflate bytes := if bytes = [75, 4, 0] then some letter else some bytes.tail
  uuid id := String.ofList (List.replicate id '0')
  hex bytes := by
    by_cases h : bytes = letter
    · rw [if_pos h]
      decide +kernel
    · rw [if_neg h]
      decide +kernel
  inflate_deflate bytes := by
    by_cases h : bytes = letter
    · rw [if_pos h, if_pos rfl, h]
    · have hne : (1 : UInt8) :: bytes ≠ [75, 4, 0] := by
        intro heq
        have hhead := congrArg List.head? heq
        simp at hhead
      rw [if_neg h, if_neg hne, List.tail_cons]
  uuid_injective := by
    intro m n h
    have hlength := congrArg (fun text : String => text.toList.length) h
    simpa using hlength

lemma unique_letter : BlobCodec.Unique codec letter := by
  intro other h
  by_contra hne
  have hother : codec.sha256Hex other = otherHash := if_neg hne
  have hletter : codec.sha256Hex letter = letterHash := by
    dsimp only [codec]
    rw [if_pos rfl]
  rw [hother, hletter] at h
  exact absurd h (by decide +kernel)

/-- A directory whose object for the letter was overwritten. -/
def damaged : BlobDir := fun path =>
  if path = ("ca", letterHash) then some [0] else none

/-- Writer 0 finds the damaged object, fails to rename, finds it again and is about to
remove it; writer 1 repairs it and returns; writer 0 removes. -/
def actions : List BlobAction :=
  [.start 0 letter none, .advance 0 false, .advance 0 false, .advance 0 false, .advance 0 false,
    .advance 0 true, .advance 0 false, .advance 0 false,
    .start 1 letter none, .advance 1 false, .advance 1 false, .advance 1 false, .advance 1 false,
    .advance 1 false,
    .advance 0 false]

/-- The reference of the letter. -/
def blob : BlobRef := ⟨letterHash, 1, none, .none⟩

/-- The state behind the removal. -/
def final : BlobState := Run.run (step codec .none) ⟨damaged, fun _ => none⟩ actions

/-- Writer 1 has been told its object is stored, and the object is gone. -/
lemma final_spec : final.writers 1 = some ⟨letter, none, .returned (.ok blob)⟩ ∧
    final.dir blob.path = none := by
  decide +kernel

lemma noCollisions : NoCollisions codec actions := by
  intro id bytes contentType hmem
  have hbytes : bytes = letter := by
    simp only [actions, List.mem_cons, BlobAction.start.injEq, reduceCtorEq, or_false, false_or,
      List.not_mem_nil] at hmem
    rcases hmem with ⟨-, h, -⟩ | ⟨-, h, -⟩ <;> exact h
  exact hbytes ▸ unique_letter

end RemovedWinner

open RemovedWinner in
/-- A reference that was returned is lost when its object is removed. -/
theorem removedWinner_lost :
    ¬ ∀ (codec : BlobCodec) (preference : BlobCompression) (dir : BlobDir)
      (actions : List BlobAction), NoCollisions codec actions →
      Published codec (Run.run (step codec preference) ⟨dir, fun _ => none⟩ actions) := by
  intro hclaim
  have hpublished := hclaim codec .none damaged actions noCollisions 1 _ blob final_spec.1 rfl
  have hparse : parseRelative blob.relativePath = some (blob.path, blob.compression) :=
    parseRelative_relativePath (by decide +kernel)
  have hlost : codec.getRelative final.dir blob.relativePath = .error (.missing blob.relativePath) := by
    simp only [BlobCodec.getRelative, hparse, final_spec.2]
  rw [BlobCodec.getRelativeVerified] at hpublished
  change codec.getRelative final.dir blob.relativePath >>= _ = _ at hpublished
  rw [hlost] at hpublished
  cases hpublished

open RemovedWinner in
/-- Two writers of the letter in an empty directory publish a reference that stays good. -/
theorem run_published_two : Published codec (Run.run (step codec .none)
    ⟨fun _ => none, fun _ => none⟩ (actions.take 13)) :=
  (run_published codec .none (fun _ => none) (actions.take 13)
    (fun id bytes contentType hmem => noCollisions id bytes contentType (List.mem_of_mem_take hmem))
    (by decide +kernel)).1 _ List.prefix_rfl

end Rupi
