import Rupi.Core.Trust
import Rupi.Lib.Keyed
import Rupi.Lib.Fallible
import Rupi.Lib.Run

/-!
The durable trust store: decisions under scopes, one file, replaced as a whole.

- `FileTrustStore.openAt`, `record`, `remove`: the calls, with the ways a write
  of the file can end (`TrustWrite`).
- `TrustState.Faithful`: the calls the file survives.
- `TrustState.call_keeps_iff`: a call keeps the file readable and in step with the
  memory exactly when it is one of these.
- **`TrustState.run_lastDecision`**: after any run of such calls the file opens and
  every scope has the last decision recorded for it.
- `TrustState.joinedServers_locks_out`: two scopes with one key make the file
  unreadable.
-/

namespace Rupi

open Value Keyed Fallible

def trustSchemaVersion : Nat := 1

/-- What stands at the path of the trust file. A file has the tree its bytes parse
to, or none when they are not JSON. -/
inductive TrustPath where
  | missing
  | symlink
  | file (content : Option Value)
  deriving DecidableEq, Repr

/-- How a write of the trust file ends. `failedBefore` is any step up to and with
the rename, `failedAfter` the sync of the directory once the new file is in place. -/
inductive TrustWrite where
  | done
  | failedBefore (message : String)
  | failedAfter (message : String)
  deriving DecidableEq, Repr

/-- A loaded, schema-checked trust file. -/
structure FileTrustStore where
  path : String
  entries : List TrustEntry
  deriving DecidableEq, Repr

namespace FileTrustStore

/-! ### Opening -/

/-- No two entries may have one key. -/
def checkKeys (path : String) (seen : List String) : List TrustEntry → Except StoreError Unit
  | [] => .ok ()
  | entry :: entries =>
    if entry.scope.key ∈ seen then
      .error (.invalid ("trust file " ++ path ++ " contains duplicate scope " ++ entry.scope.key))
    else checkKeys path (entry.scope.key :: seen) entries

/-- `read_entries`. The parser's own text is left out of the decode error. -/
def readEntries (path : String) : TrustPath → Except StoreError (List TrustEntry)
  | .missing => .ok []
  | .symlink => .error (.invalid ("trust file " ++ path ++ " must not be a symlink"))
  | .file content =>
    match content.bind TrustFile.ofValue with
    | none => .error (.invalid ("cannot decode trust file " ++ path))
    | some file => do
      ensure (file.version = trustSchemaVersion)
        (.invalid ("trust file " ++ path ++ " has unsupported schema version " ++
          toString file.version ++ " (expected " ++ toString trustSchemaVersion ++ ")"))
      checkKeys path [] file.entries
      return file.entries

/-- `FileTrustStore::open`, in a directory that can be created and read. -/
def openAt (path : String) (disk : TrustPath) : Except StoreError FileTrustStore := do
  return ⟨path, ← readEntries path disk⟩

/-- `lookup_entry`: a decision, without touching the file. -/
def lookupEntry (store : FileTrustStore) (scope : TrustScope) : Option TrustEntry :=
  lookup TrustEntry.scope scope store.entries

/-! ### Writing -/

/-- The content a write puts in place. -/
def content (store : FileTrustStore) : TrustPath :=
  .file (some (TrustFile.toValue ⟨trustSchemaVersion, store.entries⟩))

/-- `persist`: the result, and what stands at the path afterwards. -/
def persist (store : FileTrustStore) (disk : TrustPath) :
    TrustWrite → Except StoreError Unit × TrustPath
  | .done => (.ok (), store.content)
  | .failedBefore message => (.error (.io message), disk)
  | .failedAfter message => (.error (.io message), store.content)

/-- `record`: replace the decision of the scope or add one; a failed write puts the
entries back. -/
def record (store : FileTrustStore) (disk : TrustPath) (write : TrustWrite) (entry : TrustEntry) :
    Except String Unit × FileTrustStore × TrustPath :=
  let updated := { store with entries := put TrustEntry.scope entry store.entries }
  match updated.persist disk write with
  | (.ok (), disk) => (.ok (), updated, disk)
  | (.error error, disk) => (.error error.display, store, disk)

/-- `remove`: drop one exact scope, writing only if it was there. -/
def remove (store : FileTrustStore) (disk : TrustPath) (write : TrustWrite) (scope : TrustScope) :
    Except StoreError Bool × FileTrustStore × TrustPath :=
  let kept := { store with entries := drop TrustEntry.scope scope store.entries }
  if kept.entries.length = store.entries.length then (.ok false, kept, disk)
  else
    match kept.persist disk write with
    | (.ok (), disk) => (.ok true, kept, disk)
    | (.error error, disk) => (.error error, store, disk)

/-! ### What opens -/

lemma checkKeys_eq_ok {path : String} {seen : List String} {entries : List TrustEntry} {u : Unit} :
    checkKeys path seen entries = .ok u ↔
      Distinct (fun entry => entry.scope.key) entries ∧
        ∀ entry ∈ entries, entry.scope.key ∉ seen := by
  induction entries generalizing seen with
  | nil => simp [checkKeys, Distinct]
  | cons entry entries ih =>
    rw [checkKeys]
    by_cases hseen : entry.scope.key ∈ seen
    · rw [if_pos hseen]
      constructor
      · intro h
        exact absurd h (by simp)
      · intro h
        exact absurd hseen (h.2 entry List.mem_cons_self)
    · rw [if_neg hseen, ih, Distinct, Distinct, List.map_cons, List.nodup_cons]
      constructor
      · rintro ⟨hdistinct, hnew⟩
        refine ⟨⟨fun hmem => ?_, hdistinct⟩, fun other hother => ?_⟩
        · obtain ⟨other, hother, hkey⟩ := List.mem_map.mp hmem
          exact hnew other hother (by simp [hkey])
        · rcases List.mem_cons.mp hother with rfl | hother
          · exact hseen
          · exact fun hmem => hnew other hother (List.mem_cons_of_mem _ hmem)
      · rintro ⟨⟨hhead, hdistinct⟩, hnew⟩
        refine ⟨hdistinct, fun other hother hmem => ?_⟩
        rcases List.mem_cons.mp hmem with hkey | hmem
        · exact hhead (List.mem_map.mpr ⟨other, hother, hkey⟩)
        · exact hnew other (List.mem_cons_of_mem _ hother) hmem

/-- A written file opens exactly when its scopes have different keys. -/
lemma readEntries_content (path : String) (store : FileTrustStore) (entries : List TrustEntry) :
    readEntries path store.content = .ok entries ↔
      Distinct (fun entry => entry.scope.key) store.entries ∧ entries = store.entries := by
  have hread : readEntries path store.content =
      (checkKeys path [] store.entries >>= fun _ => .ok store.entries) := by
    simp [readEntries, content, TrustFile.ofValue_toValue, ensure]
    rfl
  rw [hread, bind_eq_ok]
  constructor
  · rintro ⟨u, hkeys, heq⟩
    exact ⟨(checkKeys_eq_ok.mp hkeys).1, (Except.ok.inj heq).symm⟩
  · rintro ⟨hdistinct, rfl⟩
    exact ⟨(), checkKeys_eq_ok.mpr ⟨hdistinct, by simp⟩, rfl⟩

/-- What was read has different keys. -/
lemma distinct_of_readEntries {path : String} {disk : TrustPath} {entries : List TrustEntry}
    (h : readEntries path disk = .ok entries) :
    Distinct (fun entry => entry.scope.key) entries := by
  cases disk with
  | missing =>
    obtain rfl := Except.ok.inj h
    exact List.nodup_nil
  | symlink => exact absurd h (by simp [readEntries])
  | file content =>
    rw [readEntries] at h
    cases hfile : content.bind TrustFile.ofValue with
    | none => simp [hfile] at h
    | some file =>
      rw [hfile] at h
      obtain ⟨⟨⟩, -, h⟩ := bind_eq_ok.mp h
      obtain ⟨⟨⟩, hkeys, h⟩ := bind_eq_ok.mp h
      obtain rfl := Except.ok.inj h
      exact (checkKeys_eq_ok.mp hkeys).1

end FileTrustStore

/-! ### Calls on an open store -/

inductive TrustCall where
  | record (entry : TrustEntry)
  | remove (scope : TrustScope)
  deriving DecidableEq, Repr

/-- An open store and the file it was opened from. -/
structure TrustState where
  store : FileTrustStore
  disk : TrustPath
  deriving DecidableEq, Repr

namespace TrustState

open FileTrustStore

/-- One call, with the way its write ends if it writes: whether it returned `Ok`, and
the state it leaves. -/
def call (s : TrustState) : TrustCall × TrustWrite → Bool × TrustState
  | (.record entry, write) =>
    let (result, store, disk) := s.store.record s.disk write entry
    (result.isOk, ⟨store, disk⟩)
  | (.remove scope, write) =>
    let (result, store, disk) := s.store.remove s.disk write scope
    (result.isOk, ⟨store, disk⟩)

/-- The call returned `Ok`. -/
def accepts (s : TrustState) (c : TrustCall × TrustWrite) : Bool := (s.call c).1

def step (s : TrustState) (c : TrustCall × TrustWrite) : TrustState := (s.call c).2

/-- The decisions a call leaves, scope by scope. -/
def decided (decisions : TrustScope → Option TrustEntry) (c : TrustCall) :
    TrustScope → Option TrustEntry :=
  match c with
  | .record entry => Function.update decisions entry.scope (some entry)
  | .remove scope => Function.update decisions scope none

/-- The calls of a run that returned `Ok`. -/
def acceptedCalls (s : TrustState) : List (TrustCall × TrustWrite) → List TrustCall
  | [] => []
  | c :: calls =>
    if s.accepts c then c.1 :: acceptedCalls (s.step c) calls else acceptedCalls (s.step c) calls

/-- The last decision for every scope: what the store opened with, overwritten by the
calls that returned `Ok`, in order. -/
def lastDecision (s : TrustState) (calls : List (TrustCall × TrustWrite)) :
    TrustScope → Option TrustEntry :=
  (s.acceptedCalls calls).foldl decided s.store.lookupEntry

/-- The file opens to the entries in memory. -/
def InStep (s : TrustState) : Prop := openAt s.store.path s.disk = .ok s.store

/-- The calls the file survives: a completed `record` meets no other scope with its
key, and a write fails after its rename only if it changes nothing. -/
def Faithful (s : TrustState) : TrustCall × TrustWrite → Prop
  | (.record entry, .done) =>
    ∀ old ∈ s.store.entries, old.scope.key = entry.scope.key → old.scope = entry.scope
  | (.record entry, .failedAfter _) => entry ∈ s.store.entries
  | (.remove scope, .failedAfter _) => ∀ old ∈ s.store.entries, old.scope ≠ scope
  | (.record _, .failedBefore _) | (.remove _, .done) | (.remove _, .failedBefore _) => True

instance (s : TrustState) : (c : TrustCall × TrustWrite) → Decidable (s.Faithful c)
  | (.record entry, .done) =>
    inferInstanceAs (Decidable (∀ old ∈ s.store.entries,
      old.scope.key = entry.scope.key → old.scope = entry.scope))
  | (.record entry, .failedAfter _) => inferInstanceAs (Decidable (entry ∈ s.store.entries))
  | (.remove scope, .failedAfter _) =>
    inferInstanceAs (Decidable (∀ old ∈ s.store.entries, old.scope ≠ scope))
  | (.record _, .failedBefore _) | (.remove _, .done) | (.remove _, .failedBefore _) =>
    isTrue trivial

/-- What a call owes: after `Ok` the file opens and both it and the memory have the
decisions the call leaves; after `Err` memory and file are as they were. -/
def Keeps (s : TrustState) (c : TrustCall × TrustWrite) : Prop :=
  if s.accepts c then
    ∃ reopened, openAt s.store.path (s.step c).disk = .ok reopened ∧
      reopened.lookupEntry = decided s.store.lookupEntry c.1 ∧
      (s.step c).store.lookupEntry = decided s.store.lookupEntry c.1
  else
    (s.step c).store = s.store ∧
      openAt s.store.path (s.step c).disk = openAt s.store.path s.disk

/-! ### One call -/

variable {s : TrustState}

lemma InStep.readEntries (hs : s.InStep) :
    readEntries s.store.path s.disk = .ok s.store.entries := by
  obtain ⟨entries, hread, hstore⟩ := bind_eq_ok.mp hs
  have hentries : entries = s.store.entries :=
    congrArg FileTrustStore.entries (Except.ok.inj hstore)
  rw [hread, hentries]

lemma InStep.distinct (hs : s.InStep) :
    Distinct (TrustScope.key ∘ TrustEntry.scope) s.store.entries :=
  distinct_of_readEntries hs.readEntries

/-- A store whose content is in place is in step exactly when its keys are distinct. -/
lemma inStep_content (store : FileTrustStore) :
    InStep ⟨store, store.content⟩ ↔ Distinct (TrustScope.key ∘ TrustEntry.scope) store.entries := by
  constructor
  · intro h
    exact ((readEntries_content store.path store _).mp h.readEntries).1
  · intro h
    have hread := (readEntries_content store.path store _).mpr ⟨h, rfl⟩
    exact bind_eq_ok.mpr ⟨_, hread, rfl⟩

/-- The keys after a `record` are distinct when no other scope has the key of the
recorded one. -/
lemma distinct_key_put (entry : TrustEntry) (hs : s.InStep) :
    Distinct (TrustScope.key ∘ TrustEntry.scope) (put TrustEntry.scope entry s.store.entries) ↔
      ∀ old ∈ s.store.entries, old.scope.key = entry.scope.key → old.scope = entry.scope := by
  have hscopes : Distinct TrustEntry.scope s.store.entries := hs.distinct.of_comp
  constructor
  · intro h old hold hkey
    by_contra hne
    have hmem := (mem_put (a := entry) hscopes).mpr (Or.inr ⟨hold, hne⟩)
    exact hne (h.key_eq hmem (mem_put_self _) hkey)
  · intro h
    refine (distinct_put hscopes).comp ?_
    intro a ha b hb hkey
    rcases (mem_put hscopes).mp ha with ha | ⟨ha, -⟩
    · rcases (mem_put hscopes).mp hb with hb | ⟨hb, -⟩
      · rw [ha, hb]
      · rw [ha] at hkey ⊢
        exact (h b hb hkey.symm).symm
    · rcases (mem_put hscopes).mp hb with hb | ⟨hb, -⟩
      · rw [hb] at hkey ⊢
        exact h a ha hkey
      · exact hs.distinct.key_eq ha hb hkey

lemma lookupEntry_put (store : FileTrustStore) (entry : TrustEntry) :
    lookupEntry { store with entries := put TrustEntry.scope entry store.entries } =
      decided store.lookupEntry (.record entry) := by
  funext scope
  rw [lookupEntry, lookup_put, decided, Function.update_apply]
  by_cases h : entry.scope = scope
  · rw [if_pos h, if_pos h.symm]
  · rw [if_neg h, if_neg (Ne.symm h), lookupEntry]

lemma lookupEntry_drop (store : FileTrustStore) (scope : TrustScope) :
    lookupEntry { store with entries := drop TrustEntry.scope scope store.entries } =
      decided store.lookupEntry (.remove scope) := by
  funext other
  rw [lookupEntry, lookup_drop, decided, Function.update_apply]
  by_cases h : scope = other
  · rw [if_pos h, if_pos h.symm]
  · rw [if_neg h, if_neg (Ne.symm h), lookupEntry]

/-- The store a call aims at. -/
def target (s : TrustState) : TrustCall → FileTrustStore
  | .record entry => { s.store with entries := put TrustEntry.scope entry s.store.entries }
  | .remove scope => { s.store with entries := drop TrustEntry.scope scope s.store.entries }

lemma lookupEntry_target (s : TrustState) (c : TrustCall) :
    (s.target c).lookupEntry = decided s.store.lookupEntry c := by
  cases c with
  | record entry => exact lookupEntry_put s.store entry
  | remove scope => exact lookupEntry_drop s.store scope

@[simp] lemma path_target (s : TrustState) (c : TrustCall) : (s.target c).path = s.store.path := by
  cases c <;> rfl

/-- The ways a call can go: it aims at the store it has and writes nothing, or its
write completes, fails before the rename or fails after it. -/
lemma call_cases (s : TrustState) (c : TrustCall) (write : TrustWrite) :
    (s.call (c, write) = (true, s) ∧ s.target c = s.store) ∨
      (s.call (c, write) = (true, ⟨s.target c, (s.target c).content⟩) ∧ write = .done) ∨
      (∃ message, s.call (c, write) = (false, s) ∧ write = .failedBefore message) ∨
      ∃ message, s.call (c, write) = (false, ⟨s.store, (s.target c).content⟩) ∧
        write = .failedAfter message := by
  cases c with
  | record entry =>
    right
    cases write with
    | done => exact Or.inl ⟨rfl, rfl⟩
    | failedBefore message => exact Or.inr (Or.inl ⟨message, rfl, rfl⟩)
    | failedAfter message => exact Or.inr (Or.inr ⟨message, rfl, rfl⟩)
  | remove scope =>
    by_cases habsent : lookup TrustEntry.scope scope s.store.entries = none
    · have hsame : drop TrustEntry.scope scope s.store.entries = s.store.entries :=
        drop_eq_self.mpr habsent
      left
      simp [call, FileTrustStore.remove, target, hsame, Except.isOk, Except.toBool]
    · have hshort : ¬(drop TrustEntry.scope scope s.store.entries).length =
          s.store.entries.length := fun h => habsent (length_drop_eq.mp h)
      right
      cases write with
      | done =>
        left
        simp [call, FileTrustStore.remove, target, hshort, persist, Except.isOk, Except.toBool]
      | failedBefore message =>
        refine Or.inr (Or.inl ⟨message, ?_, rfl⟩)
        simp [call, FileTrustStore.remove, hshort, persist, Except.isOk, Except.toBool]
      | failedAfter message =>
        refine Or.inr (Or.inr ⟨message, ?_, rfl⟩)
        simp [call, FileTrustStore.remove, target, hshort, persist, Except.isOk, Except.toBool]

/-- A completed write is faithful when the keys it leaves are distinct. -/
lemma faithful_done (hs : s.InStep) (c : TrustCall) :
    s.Faithful (c, .done) ↔
      Distinct (TrustScope.key ∘ TrustEntry.scope) (s.target c).entries := by
  cases c with
  | record entry => exact (distinct_key_put entry hs).symm
  | remove scope =>
    refine ⟨fun _ => ?_, fun _ => trivial⟩
    exact hs.distinct.sublist (List.filter_sublist.map _)

/-- A write that fails after its rename is faithful when it aimed at the store as it
was. -/
lemma faithful_failedAfter (hs : s.InStep) (c : TrustCall) (message : String) :
    s.Faithful (c, .failedAfter message) ↔ (s.target c).entries = s.store.entries := by
  have hscopes : Distinct TrustEntry.scope s.store.entries := hs.distinct.of_comp
  cases c with
  | record entry =>
    refine ⟨fun hmem => put_of_mem hscopes hmem, fun hsame => ?_⟩
    have hself : entry ∈ put TrustEntry.scope entry s.store.entries := mem_put_self _
    rwa [show put TrustEntry.scope entry s.store.entries = s.store.entries from hsame] at hself
  | remove scope =>
    have habsent : lookup TrustEntry.scope scope s.store.entries = none ↔
        s.Faithful (.remove scope, .failedAfter message) := lookup_eq_none
    exact habsent.symm.trans drop_eq_self.symm

/-- A file with the content of the target opens to the target. -/
lemma openAt_content (c : TrustCall) (reopened : FileTrustStore) :
    openAt s.store.path (s.target c).content = .ok reopened ↔
      Distinct (TrustScope.key ∘ TrustEntry.scope) (s.target c).entries ∧
        reopened = s.target c := by
  have hpath : s.store.path = (s.target c).path := (path_target s c).symm
  rw [openAt, bind_eq_ok, hpath]
  constructor
  · rintro ⟨entries, hread, heq⟩
    obtain ⟨hdistinct, rfl⟩ := (readEntries_content _ _ _).mp hread
    exact ⟨hdistinct, (Except.ok.inj heq).symm⟩
  · rintro ⟨hdistinct, rfl⟩
    exact ⟨_, (readEntries_content _ _ _).mpr ⟨hdistinct, rfl⟩, rfl⟩

/-- **The calls the file survives, exactly**: from a file in step with the memory a
call keeps what it owes exactly when it is faithful. -/
theorem call_keeps_iff (hs : s.InStep) (c : TrustCall × TrustWrite) :
    s.Keeps c ↔ s.Faithful c := by
  obtain ⟨c, write⟩ := c
  have hdecided := lookupEntry_target s c
  rcases call_cases s c write with ⟨hcall, hsame⟩ | ⟨hcall, rfl⟩ | ⟨m, hcall, rfl⟩ | ⟨m, hcall, rfl⟩
  · -- nothing was written: only a `remove` of an absent scope, whatever the write
    have hkeeps : s.Keeps (c, write) := by
      rw [hsame] at hdecided
      simpa [Keeps, accepts, step, hcall] using ⟨s.store, hs, hdecided, hdecided⟩
    refine ⟨fun _ => ?_, fun _ => hkeeps⟩
    cases write with
    | done =>
      rw [faithful_done hs, hsame]
      exact hs.distinct
    | failedBefore message => cases c <;> trivial
    | failedAfter message => rw [faithful_failedAfter hs, hsame]
  · rw [faithful_done hs]
    simp only [Keeps, accepts, step, hcall, if_true]
    constructor
    · rintro ⟨reopened, hopen, -, -⟩
      exact ((openAt_content c reopened).mp hopen).1
    · intro hdistinct
      exact ⟨s.target c, (openAt_content c _).mpr ⟨hdistinct, rfl⟩, hdecided, hdecided⟩
  · refine ⟨fun _ => by cases c <;> trivial, fun _ => ?_⟩
    simp [Keeps, accepts, step, hcall]
  · rw [faithful_failedAfter hs]
    simp only [Keeps, accepts, step, hcall, Bool.false_eq_true, if_false, true_and]
    rw [show openAt s.store.path s.disk = .ok s.store from hs, openAt_content]
    constructor
    · rintro ⟨-, hstore⟩
      rw [← hstore]
    · intro hentries
      have hstore : s.store = s.target c := by
        cases c <;> exact congrArg (FileTrustStore.mk s.store.path) hentries.symm
      exact ⟨hentries ▸ hs.distinct, hstore⟩

/-- A faithful call leaves the file in step with the memory. -/
lemma InStep.step (hs : s.InStep) {c : TrustCall × TrustWrite} (hc : s.Faithful c) :
    (s.step c).InStep := by
  obtain ⟨c, write⟩ := c
  rcases call_cases s c write with ⟨hcall, -⟩ | ⟨hcall, rfl⟩ | ⟨m, hcall, rfl⟩ | ⟨m, hcall, rfl⟩
  · rwa [TrustState.step, hcall]
  · rw [TrustState.step, hcall, inStep_content]
    exact (faithful_done hs c).mp hc
  · rwa [TrustState.step, hcall]
  · rw [TrustState.step, hcall, InStep]
    have hentries := (faithful_failedAfter hs c m).mp hc
    have hstore : s.store = s.target c := by
      cases c <;> exact congrArg (FileTrustStore.mk s.store.path) hentries.symm
    exact (openAt_content c _).mpr ⟨hentries ▸ hs.distinct, hstore⟩

@[simp] lemma path_step (s : TrustState) (c : TrustCall × TrustWrite) :
    (s.step c).store.path = s.store.path := by
  obtain ⟨c, write⟩ := c
  rcases call_cases s c write with ⟨hcall, -⟩ | ⟨hcall, -⟩ | ⟨m, hcall, -⟩ | ⟨m, hcall, -⟩ <;>
    simp [step, hcall]

/-- The decisions in memory after one call. -/
lemma lookupEntry_step (s : TrustState) (c : TrustCall × TrustWrite) :
    (s.step c).store.lookupEntry =
      if s.accepts c then decided s.store.lookupEntry c.1 else s.store.lookupEntry := by
  obtain ⟨c, write⟩ := c
  have hdecided := lookupEntry_target s c
  rcases call_cases s c write with ⟨hcall, hsame⟩ | ⟨hcall, -⟩ | ⟨m, hcall, -⟩ | ⟨m, hcall, -⟩
  · rw [hsame] at hdecided
    simpa [step, accepts, hcall] using hdecided
  · simpa [step, accepts, hcall] using hdecided
  · simp [step, accepts, hcall]
  · simp [step, accepts, hcall]

/-! ### Runs -/

/-- The decisions in memory after a run are the last ones recorded, whatever the
scopes and the writes were. -/
lemma lookupEntry_run (s : TrustState) (calls : List (TrustCall × TrustWrite)) :
    (Run.run step s calls).store.lookupEntry = s.lastDecision calls := by
  induction calls generalizing s with
  | nil => rfl
  | cons c calls ih =>
    rw [Run.run_cons, ih, lastDecision, lookupEntry_step, lastDecision, acceptedCalls]
    by_cases hc : s.accepts c
    · rw [if_pos hc, if_pos hc, List.foldl_cons]
    · rw [if_neg hc, if_neg hc]

lemma path_run (s : TrustState) (calls : List (TrustCall × TrustWrite)) :
    (Run.run step s calls).store.path = s.store.path := by
  induction calls generalizing s with
  | nil => rfl
  | cons c calls ih => rw [Run.run_cons, ih, path_step]

/-- **The trust file never locks itself out of faithful calls**: after any run of them
the file opens, and in it as in memory every scope has the last decision recorded for
it; and every call that returned `Err` left memory and file as they were. -/
theorem run_lastDecision {path : String} {disk : TrustPath} {store : FileTrustStore}
    (hopen : openAt path disk = .ok store) {calls : List (TrustCall × TrustWrite)}
    (hcalls : Run.Along step Faithful ⟨store, disk⟩ calls) :
    (∃ reopened, openAt path (Run.run step ⟨store, disk⟩ calls).disk = .ok reopened ∧
        reopened.lookupEntry = lastDecision ⟨store, disk⟩ calls) ∧
      (Run.run step ⟨store, disk⟩ calls).store.lookupEntry = lastDecision ⟨store, disk⟩ calls ∧
      Run.Along step
        (fun s c => s.accepts c = false → (s.step c).store = s.store ∧
          openAt path (s.step c).disk = openAt path s.disk) ⟨store, disk⟩ calls := by
  have hpath : store.path = path := by
    obtain ⟨entries, -, hstore⟩ := bind_eq_ok.mp hopen
    rw [← Except.ok.inj hstore]
  have hs : InStep ⟨store, disk⟩ := by
    rw [InStep, hpath]
    exact hopen
  have hrun : InStep (Run.run step ⟨store, disk⟩ calls) :=
    hcalls.invariant (fun s c hs hc => hs.step hc) hs
  have hlast := lookupEntry_run ⟨store, disk⟩ calls
  refine ⟨⟨_, ?_, hlast⟩, hlast, ?_⟩
  · have hrunPath := path_run ⟨store, disk⟩ calls
    rw [InStep, hrunPath, hpath] at hrun
    exact hrun
  · have hstep : ∀ (s : TrustState) (c : TrustCall × TrustWrite),
        s.InStep ∧ s.store.path = path → s.Faithful c →
          ((s.step c).InStep ∧ (s.step c).store.path = path) ∧
            (s.accepts c = false → (s.step c).store = s.store ∧
              openAt path (s.step c).disk = openAt path s.disk) := by
      rintro s c ⟨hs, hpath⟩ hc
      refine ⟨⟨hs.step hc, by rw [path_step, hpath]⟩, fun herr => ?_⟩
      have hkeeps := (call_keeps_iff hs c).mpr hc
      rw [Keeps, if_neg (by simp [herr]), hpath] at hkeeps
      exact hkeeps
    exact Run.Along.strengthen hstep hcalls ⟨hs, hpath⟩

/-- A project trusted, another denied by a write that fails, and the first removed. -/
def trustedThenRemoved : List (TrustCall × TrustWrite) :=
  [(.record ⟨.project "/repo", .trusted, 1, "user-prompt"⟩, .done),
    (.record ⟨.project "/other", .denied, 2, "user-prompt"⟩, .failedBefore "disk full"),
    (.remove (.project "/repo"), .done)]

theorem run_lastDecision_removed :
    ∃ reopened, openAt "trust.json"
        (Run.run step ⟨⟨"trust.json", []⟩, .missing⟩ trustedThenRemoved).disk = .ok reopened ∧
      reopened.lookupEntry (.project "/repo") = none := by
  have hopen : openAt "trust.json" .missing = .ok ⟨"trust.json", []⟩ := rfl
  have hcalls : Run.Along step Faithful ⟨⟨"trust.json", []⟩, .missing⟩ trustedThenRemoved := by
    decide
  obtain ⟨⟨reopened, hreopened, hlast⟩, -, -⟩ := run_lastDecision hopen hcalls
  refine ⟨reopened, hreopened, ?_⟩
  rw [hlast]
  decide

/-- Two servers whose names and commands join to one key. -/
def joinedServers : List (TrustCall × TrustWrite) :=
  [(.record ⟨.mcpServer "docs" "npx:serve", .trusted, 1, "user-prompt"⟩, .done),
    (.record ⟨.mcpServer "docs:npx" "serve", .trusted, 2, "user-prompt"⟩, .done)]

/-- Both grants return `Ok`, and the file no longer opens. -/
theorem joinedServers_locks_out :
    acceptedCalls ⟨⟨"trust.json", []⟩, .missing⟩ joinedServers = joinedServers.map Prod.fst ∧
      (openAt "trust.json"
        (Run.run step ⟨⟨"trust.json", []⟩, .missing⟩ joinedServers).disk).toOption = none := by
  decide

end TrustState

end Rupi
