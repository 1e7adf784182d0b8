import Rupi.Core.Digits
import Rupi.Lib.Paged
import Rupi.Worker.Service

/-!
The `session://` resources of the worker, read page by page.

- `parseResourceUri`, `resourceValue`: what a URI names, and what a read of it shows;
  `pageItems` pages by the sequence number of an item, `pageDiff` by position.
- `placesAt`: a read with the stored places of the items that it shows, in place of the items;
  `resourceValue_numbered` says that these are the same read.
- `ReadsWhole`: the reads from a URI on, each continued where the page before it says, show
  every item of the resource once and in stored order.
- `resource_reads_end`: reading on comes to an end.
- **`readsWhole_iff`**: what is shown is the whole resource exactly when the numbers part the
  messages, or the trace, at the end of every page; a diff is always shown whole, artifacts
  while one page holds them.
-/

namespace Rupi

/-- `MAX_RESOURCE_ITEMS`. -/
def maxResourceItems : ℕ := 128

inductive ResourceKind where
  | state
  | summary
  | messages
  | trace
  | diff
  | artifacts
  | checkpoint
  deriving DecidableEq, Repr

structure ResourceQuery where
  afterSeq : Option ℕ
  limit : ℕ
  deriving DecidableEq, Repr

namespace ResourceQuery

/-- The query of a URI that gives none. -/
def start : ResourceQuery := ⟨none, maxResourceItems⟩

/-- One `key=value` of a query. -/
def add (query : ResourceQuery) (pair : List Char) : Except WorkerError ResourceQuery :=
  match splitOnce '=' pair with
  | none => .error (.invalid "resource query must be key=value")
  | some (key, value) =>
      if key = "after_seq".toList then
        match parseUnsigned (2 ^ 64) value with
        | none => .error (.invalid "after_seq must be an integer")
        | some n => .ok { query with afterSeq := some n }
      else if key = "limit".toList then
        match parseUnsigned (2 ^ 64) value with
        | none => .error (.invalid "limit must be an integer")
        | some n => .ok { query with limit := min (max n 1) maxResourceItems }
      else .error (.invalid ("unknown resource query key " ++ String.ofList key))

def parse (text : List Char) : Except WorkerError ResourceQuery :=
  ((text.splitOn '&').filter (!·.isEmpty)).foldlM add start

end ResourceQuery

/-- The kind that a path of a session names. -/
def ResourceKind.parse (path : String) : Except WorkerError ResourceKind :=
  match path with
  | "state" => .ok .state
  | "summary" => .ok .summary
  | "messages" => .ok .messages
  | "trace" => .ok .trace
  | "diff" => .ok .diff
  | "artifacts" => .ok .artifacts
  | "checkpoint/latest" => .ok .checkpoint
  | _ => .error (.new "resource_not_found" "unknown session resource")

/-- The session and the kind that a URI names before its query. -/
def parseResourceBase (base : List Char) : Except WorkerError (SessionId × ResourceKind) :=
  match stripFront "session://".toList base with
  | none => .error (.new "resource_not_found" "resource URI must use session://")
  | some rest =>
      match splitOnce '/' rest with
      | none => .error (.new "resource_not_found" "resource URI has no path")
      | some (session, path) => do
          let id ← parseSessionId (String.ofList session)
          let kind ← ResourceKind.parse (String.ofList path)
          pure (id, kind)

/-- A URI divided at its query. -/
def splitUri (uri : String) : List Char × List Char :=
  (splitOnce '?' uri.toList).getD (uri.toList, [])

/-- `parse_resource_uri`. -/
def parseResourceUri (uri : String) :
    Except WorkerError (SessionId × ResourceKind × ResourceQuery) := do
  let (id, kind) ← parseResourceBase (splitUri uri).1
  let query ← ResourceQuery.parse (splitUri uri).2
  pure (id, kind, query)

/-! ### Pages -/

section Items

variable {α : Type} (number : α → Option ℕ) (query : ResourceQuery)

/-- The loop of `page_items`. -/
def pageLoop (values : List α) : List α → List α
  | [] => values
  | item :: items =>
      if query.afterSeq.any ((number item).getD 0 ≤ ·) then pageLoop values items
      else if query.limit ≤ (values ++ [item]).length then values ++ [item]
      else pageLoop (values ++ [item]) items

/-- `page_items`. -/
def pageItems (items : List α) : Page α :=
  let values := pageLoop number query [] items
  ⟨values, values.getLast?.bind number⟩

/-- `page_diff`; the addition of the cursor is a checked one. -/
def pageDiff (files : List α) : Page α :=
  let start := query.afterSeq.getD 0
  let shown := (files.drop start).take query.limit
  ⟨shown, if shown.length = query.limit ∧ start + shown.length < 2 ^ 64 then
    some (start + shown.length) else none⟩

end Items

/-! ### Values of resources -/

/-- `WorkerSnapshot`, with the types of what it lists left open. -/
structure WorkerSnapshot (M T F A : Type) where
  state : WorkerState
  summary : Option WorkerSummary
  messages : List M
  trace : List T
  diff : Option (List F)
  artifacts : List A
  checkpoint : Option WorkerCheckpoint

/-- `WorkerService::snapshot` of a session. -/
def WorkerSession.snapshot (session : WorkerSession) :
    WorkerSnapshot WorkerMessage WorkerTraceEntry WorkerDiffFile WorkerArtifact where
  state := session.state
  summary := session.summary
  messages := session.messages
  trace := session.trace
  diff := session.diff
  artifacts := session.artifacts
  checkpoint := session.checkpoint

/-- The JSON value of a resource; `available` goes by the options. -/
inductive ResourceValue (M T F A : Type) where
  | state (state : WorkerState)
  | summary (id : SessionId) (status : WorkerStatus) (summary : Option WorkerSummary)
      (messageCount traceCount : ℕ)
  | messages (page : Page M)
  | trace (page : Page T)
  | diff (page : Option (Page F))
  | artifacts (available : Bool) (artifacts : List A)
  | checkpoint (checkpoint : Option WorkerCheckpoint)

section Value

variable {M T F A : Type} (messageSeq : M → Option ℕ) (entrySeq : T → Option ℕ)

/-- The value of one kind of resource. -/
def WorkerSnapshot.value (snapshot : WorkerSnapshot M T F A) (query : ResourceQuery) :
    ResourceKind → ResourceValue M T F A
  | .state => .state snapshot.state
  | .summary =>
      .summary snapshot.state.sessionId snapshot.state.status snapshot.summary
        snapshot.messages.length snapshot.trace.length
  | .messages => .messages (pageItems messageSeq query snapshot.messages)
  | .trace => .trace (pageItems entrySeq query snapshot.trace)
  | .diff => .diff (snapshot.diff.map (pageDiff query))
  | .artifacts =>
      .artifacts (!snapshot.artifacts.isEmpty) (snapshot.artifacts.take maxResourceItems)
  | .checkpoint => .checkpoint snapshot.checkpoint

/-- `resource_value`: a read of a URI. -/
def resourceValue (snapshots : String → Option (WorkerSnapshot M T F A)) (uri : String) :
    Except WorkerError (ResourceValue M T F A) := do
  let (id, kind, query) ← parseResourceUri uri
  match snapshots id with
  | none => throw (.notFound "session was not found")
  | some snapshot => pure (snapshot.value messageSeq entrySeq query kind)

end Value

/-- `read_resource`. -/
def readResource (sessions : String → Option WorkerSession) (uri : String) :
    Except WorkerError
      (ResourceValue WorkerMessage WorkerTraceEntry WorkerDiffFile WorkerArtifact) :=
  resourceValue WorkerMessage.seq (fun entry => some entry.seq)
    (fun id => (sessions id).map WorkerSession.snapshot) uri

/-! ### Places -/

/-- A snapshot whose items carry their places. -/
def WorkerSession.numbered (session : WorkerSession) :
    WorkerSnapshot (WorkerMessage × ℕ) (WorkerTraceEntry × ℕ) (WorkerDiffFile × ℕ)
      (WorkerArtifact × ℕ) where
  state := session.state
  summary := session.summary
  messages := session.messages.zipIdx
  trace := session.trace.zipIdx
  diff := session.diff.map List.zipIdx
  artifacts := session.artifacts.zipIdx
  checkpoint := session.checkpoint

/-- A read that shows each item with its place. -/
def readNumbered (sessions : String → Option WorkerSession) (uri : String) :
    Except WorkerError (ResourceValue (WorkerMessage × ℕ) (WorkerTraceEntry × ℕ)
      (WorkerDiffFile × ℕ) (WorkerArtifact × ℕ)) :=
  resourceValue (fun message => message.1.seq) (fun entry => some entry.1.seq)
    (fun id => (sessions id).map WorkerSession.numbered) uri

/-- A snapshot with other items in the places of its own. -/
def WorkerSnapshot.map {M T F A M' T' F' A' : Type} (f : M → M') (g : T → T') (h : F → F')
    (k : A → A') (snapshot : WorkerSnapshot M T F A) : WorkerSnapshot M' T' F' A' where
  state := snapshot.state
  summary := snapshot.summary
  messages := snapshot.messages.map f
  trace := snapshot.trace.map g
  diff := snapshot.diff.map (List.map h)
  artifacts := snapshot.artifacts.map k
  checkpoint := snapshot.checkpoint

namespace ResourceValue

variable {M T F A M' T' F' A' : Type}

def map (f : M → M') (g : T → T') (h : F → F') (k : A → A') :
    ResourceValue M T F A → ResourceValue M' T' F' A'
  | state s => state s
  | summary id status s count entries => summary id status s count entries
  | messages page => messages (page.map f)
  | trace page => trace (page.map g)
  | diff page => diff (page.map (Page.map h))
  | artifacts available items => artifacts available (items.map k)
  | checkpoint c => checkpoint c

/-- The places that a value shows, with its cursor. -/
def places : ResourceValue (M × ℕ) (T × ℕ) (F × ℕ) (A × ℕ) → Page ℕ
  | messages page => page.map Prod.snd
  | trace page => page.map Prod.snd
  | diff (some page) => page.map Prod.snd
  | artifacts _ items => ⟨items.map Prod.snd, none⟩
  | diff none | state _ | summary .. | checkpoint _ => ⟨[], none⟩

end ResourceValue

section Natural

variable {α β : Type} (f : α → β) (number : β → Option ℕ) (query : ResourceQuery)

lemma pageLoop_map (values items : List α) :
    pageLoop number query (values.map f) (items.map f) =
      (pageLoop (number ∘ f) query values items).map f := by
  induction items generalizing values with
  | nil => rfl
  | cons item items ih =>
    rw [List.map_cons, pageLoop, pageLoop]
    simp only [Function.comp_apply, List.length_append, List.length_map, List.length_singleton]
    split_ifs with hskip hfull
    · exact ih values
    · rw [List.map_append, List.map_singleton]
    · rw [← ih, List.map_append, List.map_singleton]

lemma pageItems_map (items : List α) :
    pageItems number query (items.map f) = (pageItems (number ∘ f) query items).map f := by
  have hloop := pageLoop_map f number query [] items
  rw [List.map_nil] at hloop
  simp only [pageItems, Page.map, hloop, List.getLast?_map, Option.bind_map]

lemma pageDiff_map (files : List α) :
    pageDiff query (files.map f) = (pageDiff query files).map f := by
  simp only [pageDiff, Page.map, ← List.map_drop, ← List.map_take, List.length_map]

end Natural

/-- Reading a snapshot does not look at what it lists, but for the numbers. -/
lemma WorkerSnapshot.value_map {M T F A M' T' F' A' : Type} (f : M → M') (g : T → T') (h : F → F')
    (k : A → A') (messageSeq : M' → Option ℕ) (entrySeq : T' → Option ℕ)
    (snapshot : WorkerSnapshot M T F A) (query : ResourceQuery) (kind : ResourceKind) :
    (snapshot.map f g h k).value messageSeq entrySeq query kind =
      (snapshot.value (messageSeq ∘ f) (entrySeq ∘ g) query kind).map f g h k := by
  cases kind with
  | messages => exact congrArg ResourceValue.messages (pageItems_map f messageSeq query _)
  | trace => exact congrArg ResourceValue.trace (pageItems_map g entrySeq query _)
  | diff =>
    refine congrArg ResourceValue.diff ?_
    simp only [map, Option.map_map, Function.comp_def, pageDiff_map]
  | summary => simp only [value, map, List.length_map, ResourceValue.map]
  | artifacts => simp only [value, map, ← List.map_take, List.isEmpty_map, ResourceValue.map]
  | state | checkpoint => rfl

/-- A read shows the items that stand at the places it shows. -/
theorem readResource_eq (sessions : String → Option WorkerSession) (uri : String) :
    readResource sessions uri =
      (readNumbered sessions uri).map (.map Prod.fst Prod.fst Prod.fst Prod.fst) := by
  rw [readResource, readNumbered, resourceValue, resourceValue]
  cases hparse : parseResourceUri uri with
  | error error => rfl
  | ok parsed =>
    obtain ⟨id, kind, query⟩ := parsed
    cases hsession : sessions id with
    | none => simp only [bind, Except.bind, hsession, Option.map_none]; rfl
    | some session =>
      simp only [bind, Except.bind, hsession, Option.map_some]
      have hplain : session.snapshot =
          session.numbered.map Prod.fst Prod.fst Prod.fst Prod.fst := by
        simp [WorkerSession.snapshot, WorkerSession.numbered, WorkerSnapshot.map,
          Function.comp_def]
      rw [hplain]
      exact congrArg Except.ok (WorkerSnapshot.value_map _ _ _ _ _ _ _ _ kind)

/-! ### Reading on -/

/-- The places that a read shows; a read that fails shows none. -/
def placesAt (sessions : String → Option WorkerSession) (uri : String) : Page ℕ :=
  match readNumbered sessions uri with
  | .ok value => value.places
  | .error _ => ⟨[], none⟩

/-- The URI that reads the same resource on from a cursor, with the same limit. -/
def followUri (uri : String) (limit n : ℕ) : String :=
  String.ofList ((splitUri uri).1 ++ '?' :: ['&'].intercalate
    ["after_seq".toList ++ '=' :: Nat.toDigits 10 n,
      "limit".toList ++ '=' :: Nat.toDigits 10 limit])

/-- The reads from a URI on. -/
def readOn (sessions : String → Option WorkerSession) (uri : String) (limit : ℕ) :
    Option ℕ → Page ℕ
  | none => placesAt sessions uri
  | some n => placesAt sessions (followUri uri limit n)

namespace WorkerSession

/-- How many items a resource lists. -/
def itemCount (session : WorkerSession) : ResourceKind → ℕ
  | .messages => session.messages.length
  | .trace => session.trace.length
  | .diff => (session.diff.getD []).length
  | .artifacts => session.artifacts.length
  | .state | .summary | .checkpoint => 0

/-- The bounds of the machine types. -/
structure Fits (session : WorkerSession) : Prop where
  messages : ∀ message ∈ session.messages, ∀ n ∈ message.seq, n < 2 ^ 64
  trace : ∀ entry ∈ session.trace, entry.seq < 2 ^ 64
  diff : (session.diff.getD []).length < 2 ^ 64

/-- When the reads of a resource show all of it. -/
def Shown (session : WorkerSession) (limit : ℕ) : ResourceKind → Prop
  | .messages => Paged.CutsPages WorkerMessage.seq session.messages limit
  | .trace => Paged.CutsPages (fun entry => some entry.seq) session.trace limit
  | .artifacts => session.artifacts.length ≤ maxResourceItems
  | .diff | .state | .summary | .checkpoint => True

end WorkerSession

/-- The reads from a URI on show every item of its resource once and in stored order; every
artifact is on some read of the resource, which gives no cursor. -/
def ReadsWhole (sessions : String → Option WorkerSession) (uri : String) (id : SessionId)
    (limit : ℕ) (session : WorkerSession) : ResourceKind → Prop
  | .artifacts => ∀ i < session.artifacts.length, ∃ other query,
      parseResourceUri other = .ok (id, .artifacts, query) ∧ i ∈ (placesAt sessions other).items
  | kind => Paged.Yields (readOn sessions uri limit) none (List.range (session.itemCount kind))

section Parse

variable {uri : String} {id : SessionId} {kind : ResourceKind} {query : ResourceQuery}

lemma ResourceQuery.add_limit {added : ResourceQuery} {pair : List Char}
    (h : query.add pair = .ok added) (hlimit : 1 ≤ query.limit ∧ query.limit ≤ maxResourceItems) :
    1 ≤ added.limit ∧ added.limit ≤ maxResourceItems := by
  unfold add at h
  split at h
  · cases h
  · split_ifs at h
    · split at h
      · cases h
      · cases h
        exact hlimit
    · split at h
      · cases h
      · cases h
        simp [maxResourceItems]

/-- A limit lies between one and the greatest page. -/
lemma ResourceQuery.parse_limit {text : List Char} (h : parse text = .ok query) :
    1 ≤ query.limit ∧ query.limit ≤ maxResourceItems := by
  suffices hfold : ∀ (pairs : List (List Char)) (before : ResourceQuery),
      1 ≤ before.limit ∧ before.limit ≤ maxResourceItems → pairs.foldlM add before = .ok query →
        1 ≤ query.limit ∧ query.limit ≤ maxResourceItems from
    hfold _ start ⟨by decide, le_rfl⟩ h
  intro pairs
  induction pairs with
  | nil =>
    intro before hbefore hquery
    cases hquery
    exact hbefore
  | cons pair pairs ih =>
    intro before hbefore hquery
    rw [List.foldlM_cons] at hquery
    cases hadd : before.add pair with
    | error error => rw [hadd] at hquery; cases hquery
    | ok added =>
      rw [hadd] at hquery
      exact ih added (add_limit hadd hbefore) hquery

lemma parseResourceUri_eq_ok :
    parseResourceUri uri = .ok (id, kind, query) ↔
      parseResourceBase (splitUri uri).1 = .ok (id, kind) ∧
        ResourceQuery.parse (splitUri uri).2 = .ok query := by
  rw [parseResourceUri]
  cases parseResourceBase (splitUri uri).1 with
  | error error => simp [bind, Except.bind]
  | ok named =>
    cases ResourceQuery.parse (splitUri uri).2 with
    | error error => simp [bind, Except.bind]
    | ok parsed => simp [bind, Except.bind, pure, Except.pure, Prod.ext_iff, and_assoc]

/-- What stands before the query holds no question mark. -/
lemma notMem_splitUri (uri : String) : '?' ∉ (splitUri uri).1 := by
  rw [splitUri]
  cases hsplit : splitOnce '?' uri.toList with
  | none => exact splitOnce_eq_none.1 hsplit
  | some parts => exact (splitOnce_eq_some hsplit).2

lemma parseUnsigned_toDigits {bound n : ℕ} (h : n < bound) :
    parseUnsigned bound (Nat.toDigits 10 n) = some n := by
  have hall : (Nat.toDigits 10 n).all Char.isDigit = true :=
    List.all_eq_true.2 fun c hc => Nat.isDigit_of_mem_toDigits (by decide) (by decide) hc
  rw [parseUnsigned_eq Nat.toDigits_ne_nil hall, Nat.ofDigitChars_ten_toDigits, if_pos h]

/-- The URI that reads on names the same resource, the cursor and the limit. -/
lemma parseResourceUri_follow (h : parseResourceUri uri = .ok (id, kind, query)) {n : ℕ}
    (hn : n < 2 ^ 64) :
    parseResourceUri (followUri uri query.limit n) = .ok (id, kind, ⟨some n, query.limit⟩) := by
  obtain ⟨hbase, hquery⟩ := parseResourceUri_eq_ok.1 h
  obtain ⟨hlow, hhigh⟩ := ResourceQuery.parse_limit hquery
  have hsplit : splitUri (followUri uri query.limit n) = ((splitUri uri).1, ['&'].intercalate
      ["after_seq".toList ++ '=' :: Nat.toDigits 10 n,
        "limit".toList ++ '=' :: Nat.toDigits 10 query.limit]) := by
    rw [splitUri, followUri, String.toList_ofList, splitOnce_append (notMem_splitUri uri),
      Option.getD_some]
  rw [parseResourceUri_eq_ok, hsplit]
  refine ⟨hbase, ?_⟩
  have hdigits : ∀ m, '&' ∉ Nat.toDigits 10 m := fun m hmem =>
    absurd (Nat.isDigit_of_mem_toDigits (by decide) (by decide) hmem) (by decide)
  rw [ResourceQuery.parse, List.splitOn_intercalate]
  · have hafter : ResourceQuery.start.add ("after_seq".toList ++ '=' :: Nat.toDigits 10 n) =
        .ok ⟨some n, maxResourceItems⟩ := by
      rw [ResourceQuery.add, splitOnce_append (by decide)]
      simp only [if_true, parseUnsigned_toDigits hn]
      rfl
    have hlimit : ResourceQuery.add ⟨some n, maxResourceItems⟩
        ("limit".toList ++ '=' :: Nat.toDigits 10 query.limit) = .ok ⟨some n, query.limit⟩ := by
      have hsmall : query.limit < 2 ^ 64 := hhigh.trans_lt (by decide)
      rw [ResourceQuery.add, splitOnce_append (by decide)]
      have hkey : ¬"limit".toList = "after_seq".toList := by decide
      simp only [if_neg hkey, if_true, parseUnsigned_toDigits hsmall, max_eq_left hlow,
        min_eq_left hhigh]
    rw [List.filter_eq_self.2 (by simp), List.foldlM_cons, hafter]
    simp only [List.foldlM_cons, List.foldlM_nil, bind, Except.bind, hlimit]
    rfl
  · intro pair hpair
    simp only [List.mem_cons, List.not_mem_nil, or_false] at hpair
    rcases hpair with rfl | rfl
    · simp [hdigits]
    · simp [hdigits]
  · exact List.cons_ne_nil _ _

end Parse

section Read

variable {α : Type} {number : α → Option ℕ} {query : ResourceQuery}

/-- `page_items` pages by number. -/
lemma pageItems_eq (hlimit : 0 < query.limit) (items : List α) :
    pageItems number query items = Paged.pageAfter number items query.limit query.afterSeq := by
  have hloop : ∀ items values : List α, values.length < query.limit →
      pageLoop number query values items = values ++
        (Paged.behind number items query.afterSeq).take (query.limit - values.length) := by
    intro items
    induction items with
    | nil => simp [pageLoop, Paged.behind]
    | cons item items ih =>
      intro values hroom
      have hskip : (!query.afterSeq.any ((number item).getD 0 ≤ ·)) =
          query.afterSeq.all (· < (number item).getD 0) := by
        cases query.afterSeq with
        | none => rfl
        | some n => simp only [Option.any_some, Option.all_some, ← decide_not, not_le]
      rw [pageLoop, Paged.behind, List.filter_cons, ← hskip]
      cases query.afterSeq.any ((number item).getD 0 ≤ ·) with
      | true => exact ih values hroom
      | false =>
        obtain ⟨k, hk⟩ : ∃ k, query.limit - values.length = k + 1 :=
          Nat.exists_eq_succ_of_ne_zero (by omega)
        rw [if_neg Bool.false_ne_true, Bool.not_false, if_pos rfl, hk, List.take_succ_cons]
        split_ifs with hfull
        · rw [List.length_append, List.length_singleton] at hfull
          rw [show k = 0 by omega, List.take_zero]
        · rw [List.length_append, List.length_singleton] at hfull
          rw [ih _ (by rw [List.length_append, List.length_singleton]; omega), List.append_assoc,
            List.length_append, List.length_singleton, show query.limit - (values.length + 1) = k
            by omega]
          rfl
  rw [pageItems, hloop items [] hlimit]
  rfl

lemma mem_of_next_pageItems (hlimit : 0 < query.limit) {items : List α} {n : ℕ}
    (h : (pageItems number query items).next = some n) : ∃ item ∈ items, number item = some n := by
  rw [pageItems_eq hlimit] at h
  obtain ⟨item, hitem, hnumber⟩ := Paged.next_pageAfter h
  exact ⟨item, List.mem_of_mem_filter hitem, hnumber⟩

/-- `page_diff` pages by position. -/
lemma pageDiff_eq {files : List α} (hfits : files.length < 2 ^ 64) (hlimit : 0 < query.limit) :
    pageDiff query files = Paged.pageFrom files query.limit query.afterSeq := by
  have hnext : (((files.drop (query.afterSeq.getD 0)).take query.limit).length = query.limit ∧
      query.afterSeq.getD 0 + ((files.drop (query.afterSeq.getD 0)).take query.limit).length <
        2 ^ 64) ↔ ((files.drop (query.afterSeq.getD 0)).take query.limit).length = query.limit := by
    simp only [List.length_take, List.length_drop]
    omega
  simp only [pageDiff, Paged.pageFrom, hnext]

/-- Places are told apart by themselves. -/
lemma yields_places {items : List α} {read : Option ℕ → Page (α × ℕ)}
    (hread : ∀ c, (read c).items ⊆ items.zipIdx) :
    Paged.Yields (fun c => (read c).map Prod.snd) none (List.range items.length) ↔
      Paged.Yields read none items.zipIdx := by
  rw [List.range_eq_range', ← List.zipIdx_map_snd]
  refine Paged.yields_map (fun x hx y hy hxy => ?_) hread
  rw [List.mem_zipIdx_iff_getElem?] at hx hy
  refine Prod.ext (Option.some.inj ?_) hxy
  rw [← hx, ← hy, hxy]

lemma nodup_zipIdx (items : List α) : items.zipIdx.Nodup :=
  List.Nodup.of_map Prod.snd (by rw [List.zipIdx_map_snd]; exact List.nodup_range')

end Read

section Whole

variable {sessions : String → Option WorkerSession} {uri : String} {id : SessionId}
  {kind : ResourceKind} {query : ResourceQuery} {session : WorkerSession}

/-- What a read of a session's resource shows, by place. -/
def WorkerSession.placesOf (session : WorkerSession) (kind : ResourceKind)
    (query : ResourceQuery) : Page ℕ :=
  (session.numbered.value (fun message => message.1.seq) (fun entry => some entry.1.seq) query
    kind).places

lemma placesAt_eq (hparse : parseResourceUri uri = .ok (id, kind, query))
    (hsession : sessions id = some session) :
    placesAt sessions uri = session.placesOf kind query := by
  rw [placesAt, readNumbered, resourceValue, hparse]
  simp only [bind, Except.bind, hsession, Option.map_some, pure, Except.pure,
    WorkerSession.placesOf]

/-- A cursor is a number of the machine type. -/
lemma next_placesOf_lt (hfits : session.Fits) (hlimit : 0 < query.limit) {n : ℕ}
    (h : n ∈ (session.placesOf kind query).next) : n < 2 ^ 64 := by
  cases kind with
  | messages =>
    obtain ⟨item, hitem, hnumber⟩ := mem_of_next_pageItems hlimit (h : _ = some n)
    exact hfits.messages _ (List.fst_mem_of_mem_zipIdx hitem) n hnumber
  | trace =>
    obtain ⟨item, hitem, hnumber⟩ := mem_of_next_pageItems hlimit (h : _ = some n)
    cases hnumber
    exact hfits.trace _ (List.fst_mem_of_mem_zipIdx hitem)
  | diff =>
    cases hdiff : session.diff with
    | none => simp [WorkerSession.placesOf, WorkerSnapshot.value, WorkerSession.numbered, hdiff,
        ResourceValue.places] at h
    | some files =>
      have hnext : (pageDiff query files.zipIdx).next = some n := by
        simpa [WorkerSession.placesOf, WorkerSnapshot.value, WorkerSession.numbered, hdiff,
          ResourceValue.places, Page.map] using h
      rw [pageDiff] at hnext
      split_ifs at hnext with hfull
      cases hnext
      exact hfull.2
  | artifacts | state | summary | checkpoint => cases h

/-- The reads from a URI on are the reads of the resource it names. -/
lemma yields_readOn (hparse : parseResourceUri uri = .ok (id, kind, query))
    (hfirst : query.afterSeq = none) (hsession : sessions id = some session)
    (hfits : session.Fits) {shown : List ℕ} :
    Paged.Yields (readOn sessions uri query.limit) none shown ↔
      Paged.Yields (fun c => session.placesOf kind ⟨c, query.limit⟩) none shown := by
  have hread : ∀ c : Option ℕ, (∀ n ∈ c, n < 2 ^ 64) →
      readOn sessions uri query.limit c = session.placesOf kind ⟨c, query.limit⟩ := by
    intro c hc
    cases c with
    | none => rw [readOn, placesAt_eq hparse hsession, ← hfirst]
    | some n => rw [readOn, placesAt_eq (parseResourceUri_follow hparse (hc n rfl)) hsession]
  have hlimit := (ResourceQuery.parse_limit (parseResourceUri_eq_ok.1 hparse).2).1
  refine Paged.yields_congr (P := fun c => ∀ n ∈ c, n < 2 ^ 64) hread (fun c hc n hn => ?_) (by simp)
  rw [hread c hc] at hn
  exact next_placesOf_lt hfits (by exact hlimit) hn

lemma zipIdx_cutsPages {α : Type} {number : α → Option ℕ} {items : List α} {limit : ℕ} :
    Paged.CutsPages (fun item : α × ℕ => number item.1) items.zipIdx limit ↔
      Paged.CutsPages number items limit := by
  conv_rhs => rw [← List.zipIdx_map_fst 0 items, Paged.cutsPages_map]
  rfl

/-- The reads of a list that is paged by number show all of it when the numbers cut it so. -/
lemma yields_pageItems_iff {α : Type} {number : α → Option ℕ} {items : List α} {limit : ℕ}
    (hlimit : 0 < limit) :
    Paged.Yields (fun c => (pageItems (fun item : α × ℕ => number item.1) ⟨c, limit⟩
        items.zipIdx).map Prod.snd) none (List.range items.length) ↔
      Paged.CutsPages number items limit := by
  have hpage : ∀ c, pageItems (fun item : α × ℕ => number item.1) ⟨c, limit⟩ items.zipIdx =
      Paged.pageAfter (fun item => number item.1) items.zipIdx limit c :=
    fun c => pageItems_eq hlimit _
  simp only [hpage]
  rw [yields_places fun c item hitem => List.mem_of_mem_filter (List.mem_of_mem_take hitem),
    Paged.yields_pageAfter_iff (nodup_zipIdx items) hlimit, zipIdx_cutsPages]

/-- The reads of a list that is paged by position show all of it. -/
lemma yields_pageDiff {α : Type} {files : List α} {limit : ℕ} (hlimit : 0 < limit)
    (hfits : files.length < 2 ^ 64) :
    Paged.Yields (fun c => (pageDiff ⟨c, limit⟩ files.zipIdx).map Prod.snd) none
      (List.range files.length) := by
  have hpage : ∀ c, pageDiff ⟨c, limit⟩ files.zipIdx = Paged.pageFrom files.zipIdx limit c :=
    fun c => pageDiff_eq (by rwa [List.length_zipIdx]) hlimit
  simp only [hpage]
  rw [yields_places fun c item hitem => List.mem_of_mem_drop (List.mem_of_mem_take hitem)]
  exact Paged.yields_pageFrom hlimit none

lemma yields_nothing {c : Option ℕ} : Paged.Yields (fun _ => (⟨[], none⟩ : Page ℕ)) c [] :=
  (Paged.yields_last (Or.inr rfl)).2 rfl

lemma yields_diff (hfits : session.Fits) {limit : ℕ} (hlimit : 0 < limit) :
    Paged.Yields (fun c => session.placesOf .diff ⟨c, limit⟩) none
      (List.range (session.itemCount .diff)) := by
  have hcount := hfits.diff
  cases hdiff : session.diff with
  | none => simpa [WorkerSession.placesOf, WorkerSnapshot.value, WorkerSession.numbered, hdiff,
      ResourceValue.places, WorkerSession.itemCount] using yields_nothing
  | some files =>
    rw [hdiff, Option.getD_some] at hcount
    simpa [WorkerSession.placesOf, WorkerSnapshot.value, WorkerSession.numbered, hdiff,
      ResourceValue.places, WorkerSession.itemCount] using yields_pageDiff hlimit hcount

/-- The places of the artifacts that a read shows. -/
lemma mem_places_artifacts {i : ℕ} :
    i ∈ (session.placesOf .artifacts query).items ↔
      i < min maxResourceItems session.artifacts.length := by
  have hitems : (session.placesOf .artifacts query).items =
      (List.range session.artifacts.length).take maxResourceItems := by
    rw [List.range_eq_range', ← List.zipIdx_map_snd, ← List.map_take]
    rfl
  rw [hitems, List.take_range, List.mem_range]

/-- Reading on comes to an end, whatever the numbers of the items. -/
theorem resource_reads_end (hparse : parseResourceUri uri = .ok (id, kind, query))
    (hfirst : query.afterSeq = none) (hsession : sessions id = some session)
    (hfits : session.Fits) : ∃ shown, Paged.Yields (readOn sessions uri query.limit) none shown := by
  have hlimit := (ResourceQuery.parse_limit (parseResourceUri_eq_ok.1 hparse).2).1
  have hnumbered : ∀ {α : Type} (number : α → Option ℕ) (items : List α),
      ∃ shown, Paged.Yields (fun c => (pageItems number ⟨c, query.limit⟩ items)) none shown := by
    intro α number items
    have hpage : ∀ c, pageItems number ⟨c, query.limit⟩ items =
        Paged.pageAfter number items query.limit c :=
      fun c => @pageItems_eq α number ⟨c, query.limit⟩ hlimit items
    simp only [hpage]
    exact Paged.exists_yields_pageAfter none
  simp only [yields_readOn hparse hfirst hsession hfits]
  cases kind with
  | messages =>
    obtain ⟨shown, hshown⟩ := hnumbered (fun message => message.1.seq) session.messages.zipIdx
    exact ⟨_, hshown.map Prod.snd⟩
  | trace =>
    obtain ⟨shown, hshown⟩ := hnumbered (fun entry => some entry.1.seq) session.trace.zipIdx
    exact ⟨_, hshown.map Prod.snd⟩
  | diff => exact ⟨_, yields_diff hfits hlimit⟩
  | artifacts | state | summary | checkpoint => exact ⟨_, (Paged.yields_last (Or.inr rfl)).2 rfl⟩

/-- **What the reads of a resource show**: all of it, once and in stored order, exactly when the
numbers part the messages, or the trace, at the end of every page; a diff always, and artifacts
when one page holds them. -/
theorem readsWhole_iff (hparse : parseResourceUri uri = .ok (id, kind, query))
    (hfirst : query.afterSeq = none) (hsession : sessions id = some session)
    (hfits : session.Fits) :
    ReadsWhole sessions uri id query.limit session kind ↔ session.Shown query.limit kind := by
  have hlimit := (ResourceQuery.parse_limit (parseResourceUri_eq_ok.1 hparse).2).1
  have hread := @yields_readOn sessions uri id kind query session hparse hfirst hsession hfits
  cases kind with
  | messages => exact hread.trans (yields_pageItems_iff hlimit)
  | trace =>
    exact hread.trans (yields_pageItems_iff hlimit : _ ↔
      Paged.CutsPages (fun entry : WorkerTraceEntry => some entry.seq) session.trace query.limit)
  | diff => exact iff_of_true (hread.2 (yields_diff hfits hlimit)) trivial
  | artifacts =>
    rw [ReadsWhole, WorkerSession.Shown]
    constructor
    · intro hshown
      by_contra hmore
      obtain ⟨other, read, hother, hmem⟩ := hshown maxResourceItems (not_le.1 hmore)
      rw [placesAt_eq hother hsession, mem_places_artifacts] at hmem
      exact absurd hmem (by omega)
    · intro hle i hi
      refine ⟨uri, query, hparse, ?_⟩
      rw [placesAt_eq hparse hsession, mem_places_artifacts]
      omega
  | state | summary | checkpoint => exact iff_of_true (hread.2 yields_nothing) trivial

end Whole

namespace Paging

/-- A session with messages of these numbers. -/
def session (numbers : List (Option ℕ)) : WorkerSession :=
  { WorkerSession.new "s1" 0 with
    messages := numbers.map fun seq =>
      { role := "user", text := "go on", epoch := 0, model := ⟨"local", "small"⟩, seq,
        externalContext := none } }

def sessions (numbers : List (Option ℕ)) (id : String) : Option WorkerSession :=
  if id = "s1" then some (session numbers) else none

lemma parse_messages : parseResourceUri "session://s1/messages?limit=2" =
    .ok ("s1", .messages, ⟨none, 2⟩) := by decide +kernel

/-- Numbers that grow part the pages. -/
theorem readsWhole_growing :
    ReadsWhole (sessions [some 1, some 4, some 9]) "session://s1/messages?limit=2" "s1" 2
      (session [some 1, some 4, some 9]) .messages :=
  (@readsWhole_iff _ _ _ _ ⟨none, 2⟩ _ parse_messages rfl rfl
    ⟨by decide, by decide, by decide⟩).2 (by decide : Paged.CutsPages _ _ _)

/-- Messages without numbers: the first page gives no cursor, and the third message is on none. -/
theorem messages_without_numbers_cut_short :
    ¬ReadsWhole (sessions [none, none, none]) "session://s1/messages?limit=2" "s1" 2
      (session [none, none, none]) .messages := by
  have hpage : readOn (sessions [none, none, none]) "session://s1/messages?limit=2" 2 none =
      ⟨[0, 1], none⟩ := by decide +kernel
  intro hwhole
  have hshown := (Paged.yields_last (Or.inr (by rw [hpage]))).1 hwhole
  rw [hpage] at hshown
  exact absurd hshown (by decide)

end Paging

end Rupi
