import Lorepia.Lib.Memo
import Lorepia.Lib.Runs
import Lorepia.Lorebook.Naive

/-!
# The selection cache (`LorebookEngine`)

An engine holds a compiled catalog and remembers selections by a key: the revisions, the
seed, and three digests of what else a request says. A new catalog gets a new generation,
which is part of the key, and clears the cache.

That the cache cannot be observed rests on reading a request back from what is digested:
the encodings of the settings (`settings_of_encoding`) and of the searched part of the
conversation (`searchText_of_slice`) determine everything a selection depends on.
-/

namespace Lorepia.Lorebook

open Code (utf8Bytes)

variable {ρ : Type} {T : Tools ρ} {catalog : LorebookCatalog} {r : List UInt8} {s : List UInt8}

def maxCacheEntries : Nat := 16

structure CacheKey where
  catalogRevision : Nat
  catalogGeneration : Nat
  chatRevision : UInt64
  branchRevision : UInt64
  searchDepth : Nat
  seed : UInt64
  tokenizerFingerprint : Digest
  settingsFingerprint : Digest
  searchSliceFingerprint : Digest
  deriving DecidableEq

namespace CacheKey

def fingerprint (T : Tools ρ) (key : CacheKey) : Digest :=
  T.sha256 (utf8Bytes "lorepia-lorebook-cache-v1" ++ digestU64 key.catalogRevision ++
    digestU64 key.catalogGeneration ++ digestU64 key.chatRevision.toNat ++
    digestU64 key.branchRevision.toNat ++ digestU64 key.searchDepth ++ digestU64 key.seed.toNat ++
    key.tokenizerFingerprint.toList ++ key.settingsFingerprint.toList ++
    key.searchSliceFingerprint.toList)

/-- Keys are compared field by field, digests byte by byte. -/
def words (key : CacheKey) : List Nat :=
  [key.catalogRevision, key.catalogGeneration, key.chatRevision.toNat, key.branchRevision.toNat,
    key.searchDepth, key.seed.toNat] ++
    (key.tokenizerFingerprint.toList ++ key.settingsFingerprint.toList ++
      key.searchSliceFingerprint.toList).map UInt8.toNat

def before (left right : CacheKey) : Bool := decide (left.words < right.words)

end CacheKey

def PartialMessagePolicy.byte : PartialMessagePolicy → UInt8
  | .exclude => 0
  | .include => 1

def SelectionSettings.tokenizerEncoding (s : SelectionSettings) : List UInt8 :=
  digestText s.tokenizerId ++ digestText s.tokenizerRevision

def SelectionSettings.encoding (s : SelectionSettings) : List UInt8 :=
  digestU64 s.searchDepth ++ ([s.partialMessages.byte] ++ (digestU64 s.maxOutputTokens ++
    (digestU64 s.maxOutputBytes ++ (digestU64 s.maxLiteralMatchEvents ++
      (digestU64 s.maxRegexEvaluations ++ (digestU64 s.maxRegexScanBytes ++
        (digestU64 s.maxRegexMatches ++ digestText s.separator)))))))

def buildCacheKey (T : Tools ρ) (catalog : CompiledCatalog ρ) (request : SelectionRequest)
    (search : SearchInput) : CacheKey where
  catalogRevision := catalog.revision
  catalogGeneration := catalog.generation
  chatRevision := request.conversation.chatRevision
  branchRevision := request.conversation.branchRevision
  searchDepth := request.settings.searchDepth
  seed := request.seed
  tokenizerFingerprint := T.sha256 request.settings.tokenizerEncoding
  settingsFingerprint := T.sha256 request.settings.encoding
  searchSliceFingerprint := search.fingerprint

/-! ## The engine -/

structure LorebookEngine (ρ : Type) where
  compiled : CompiledCatalog ρ
  cache : List (CacheKey × Selection)

namespace LorebookEngine

def new (T : Tools ρ) (catalog : LorebookCatalog) : Except LorebookError (LorebookEngine ρ) := do
  let compiled ← compileCatalog T catalog 1
  .ok ⟨compiled, []⟩

def key (T : Tools ρ) (compiled : CompiledCatalog ρ) (request : SelectionRequest) : CacheKey :=
  buildCacheKey T compiled request (.build T request)

/-- The selection that `select` remembers. -/
def compute (T : Tools ρ) (compiled : CompiledCatalog ρ) (request : SelectionRequest) :
    Except LorebookError Selection :=
  selectUncached T compiled request (.build T request) ((key T compiled request).fingerprint T)

def select (T : Tools ρ) (request : SelectionRequest) (engine : LorebookEngine ρ) :
    Except LorebookError Selection × LorebookEngine ρ :=
  match request.validate with
  | .error e => (.error e, engine)
  | .ok () =>
    let (result, cache) := Memo.memoized CacheKey.before maxCacheEntries (key T engine.compiled)
      (compute T engine.compiled) request engine.cache
    (result.map fun (remembered, selection) =>
      if remembered then { selection with receipt := { selection.receipt with cacheHit := true } }
      else selection, { engine with cache })

def replaceCatalog (T : Tools ρ) (catalog : LorebookCatalog) (engine : LorebookEngine ρ) :
    Except LorebookError Unit × LorebookEngine ρ :=
  let replaced : Except LorebookError (CompiledCatalog ρ) := do
    ensure (engine.compiled.generation + 1 < 2 ^ 64)
      (.invalidField "catalog.generation" "revision counter overflowed")
    compileCatalog T catalog (engine.compiled.generation + 1)
  match replaced with
  | .error e => (.error e, engine)
  | .ok compiled => (.ok (), ⟨compiled, []⟩)

end LorebookEngine

inductive EngineCall where
  | select (request : SelectionRequest)
  | replaceCatalog (catalog : LorebookCatalog)

inductive EngineReply where
  | selected (result : Except LorebookError Selection)
  | replaced (result : Except LorebookError Unit)

def engineServer (T : Tools ρ) : Server (LorebookEngine ρ) EngineCall EngineReply where
  exec
    | .select request, engine =>
      ((.selected (engine.select T request).1), (engine.select T request).2)
    | .replaceCatalog catalog, engine =>
      ((.replaced (engine.replaceCatalog T catalog).1), (engine.replaceCatalog T catalog).2)

/-! ## Reading a request back -/

theorem digestU64_append_inj {n m : Nat} (hn : n < 2 ^ 64) (hm : m < 2 ^ 64)
    (h : digestU64 n ++ r = digestU64 m ++ s) : n = m ∧ r = s :=
  Code.littleEndian_append_inj hn hm h

theorem digestText_append_inj {x y : String} (hx : x.utf8ByteSize < 2 ^ 64)
    (hy : y.utf8ByteSize < 2 ^ 64) (h : digestText x ++ r = digestText y ++ s) : x = y ∧ r = s := by
  simp only [digestText, List.append_assoc] at h
  obtain ⟨hsize, h⟩ := digestU64_append_inj hx hy h
  obtain ⟨hbytes, hrest⟩ := List.append_inj h (by rw [Code.length_utf8Bytes, Code.length_utf8Bytes, hsize])
  exact ⟨Code.utf8Bytes_inj hbytes, hrest⟩

/-- The numbers and texts of a valid request fit their encodings. -/
structure SelectionRequest.Fits (request : SelectionRequest) : Prop where
  searchDepth : request.settings.searchDepth < 2 ^ 64
  maxOutputTokens : request.settings.maxOutputTokens < 2 ^ 64
  maxOutputBytes : request.settings.maxOutputBytes < 2 ^ 64
  maxLiteralMatchEvents : request.settings.maxLiteralMatchEvents < 2 ^ 64
  maxRegexEvaluations : request.settings.maxRegexEvaluations < 2 ^ 64
  maxRegexScanBytes : request.settings.maxRegexScanBytes < 2 ^ 64
  maxRegexMatches : request.settings.maxRegexMatches < 2 ^ 64
  separator : request.settings.separator.utf8ByteSize < 2 ^ 64
  turns : ∀ turn ∈ request.conversation.recentTurns, turn.content.utf8ByteSize < 2 ^ 64
  summary : request.conversation.summary.bytes < 2 ^ 64

theorem validateAll_ok {α : Type} {check : α → Except LorebookError Unit} {l : List α}
    (h : validateAll check l = .ok ()) : ∀ a ∈ l, check a = .ok () := by
  induction l with
  | nil => exact fun _ ha => (nomatch ha)
  | cons b rest ih =>
    obtain ⟨⟨⟩, hfirst, hrest⟩ := except_bind_ok.mp h
    intro a ha
    obtain rfl | ha := List.mem_cons.mp ha
    · exact hfirst
    · exact ih hrest a ha

theorem SelectionRequest.fits {request : SelectionRequest} (h : request.validate = .ok ()) :
    request.Fits := by
  simp only [SelectionRequest.validate, SelectionSettings.validate, except_bind_ok, ensure_ok,
    exists_const] at h
  obtain ⟨⟨hdepth, htokens, hbytes, hevents, hevaluations, hscan, hmatches, -, -, hseparator⟩,
    -, -, ⟨⟨⟩, hturns, hsummary, -⟩⟩ := h
  have hturn : ∀ turn ∈ request.conversation.recentTurns, turn.content.utf8ByteSize ≤ maxTurnBytes :=
    fun turn hmem => ensure_ok.mp (validateAll_ok hturns turn hmem)
  have hlimit : ∀ {n m : Nat}, n ≤ m → m < 2 ^ 64 → n < 2 ^ 64 := fun h h' => Nat.lt_of_le_of_lt h h'
  exact ⟨hlimit hdepth (by decide), hlimit htokens (by decide), hlimit hbytes (by decide),
    hlimit hevents (by decide), hlimit hevaluations (by decide), hlimit hscan (by decide),
    hlimit hmatches (by decide), hlimit hseparator (by decide),
    fun turn hmem => hlimit (hturn turn hmem) (by decide), hlimit hsummary (by decide)⟩

/-- What a selection depends on in the settings. -/
structure SelectionSettings.Alike (s t : SelectionSettings) : Prop where
  partialMessages : s.partialMessages = t.partialMessages
  maxOutputTokens : s.maxOutputTokens = t.maxOutputTokens
  maxOutputBytes : s.maxOutputBytes = t.maxOutputBytes
  maxLiteralMatchEvents : s.maxLiteralMatchEvents = t.maxLiteralMatchEvents
  maxRegexEvaluations : s.maxRegexEvaluations = t.maxRegexEvaluations
  maxRegexScanBytes : s.maxRegexScanBytes = t.maxRegexScanBytes
  maxRegexMatches : s.maxRegexMatches = t.maxRegexMatches
  separator : s.separator = t.separator

theorem PartialMessagePolicy.byte_inj {p q : PartialMessagePolicy} (h : p.byte = q.byte) : p = q := by
  cases p <;> cases q
  · rfl
  · cases h
  · cases h
  · rfl

theorem MessageState.byte_inj {p q : MessageState} (h : p.byte = q.byte) : p = q := by
  revert h
  cases p <;> cases q <;> decide

theorem settings_of_encoding {r s : SelectionRequest} (hr : r.Fits) (hs : s.Fits)
    (h : r.settings.encoding = s.settings.encoding) : r.settings.Alike s.settings := by
  unfold SelectionSettings.encoding at h
  obtain ⟨-, h⟩ := digestU64_append_inj hr.searchDepth hs.searchDepth h
  obtain ⟨hpolicy, h⟩ := List.append_inj h rfl
  obtain ⟨htokens, h⟩ := digestU64_append_inj hr.maxOutputTokens hs.maxOutputTokens h
  obtain ⟨hbytes, h⟩ := digestU64_append_inj hr.maxOutputBytes hs.maxOutputBytes h
  obtain ⟨hevents, h⟩ := digestU64_append_inj hr.maxLiteralMatchEvents hs.maxLiteralMatchEvents h
  obtain ⟨hevaluations, h⟩ := digestU64_append_inj hr.maxRegexEvaluations hs.maxRegexEvaluations h
  obtain ⟨hscan, h⟩ := digestU64_append_inj hr.maxRegexScanBytes hs.maxRegexScanBytes h
  obtain ⟨hmatches, h⟩ := digestU64_append_inj hr.maxRegexMatches hs.maxRegexMatches h
  rw [← List.append_nil (digestText _), ← List.append_nil (digestText s.settings.separator)] at h
  obtain ⟨hseparator, -⟩ := digestText_append_inj hr.separator hs.separator h
  exact ⟨PartialMessagePolicy.byte_inj (List.singleton_inj.mp hpolicy), htokens, hbytes, hevents,
    hevaluations, hscan, hmatches, hseparator⟩

def ChatTurn.searched (policy : PartialMessagePolicy) (turn : ChatTurn) : Option String :=
  if turn.included policy then some turn.content else none

theorem ChatTurn.slice_append (policy : PartialMessagePolicy) (turn : ChatTurn) (r : List UInt8) :
    turn.slice policy ++ r = digestU64 turn.revision.toNat ++ ([turn.state.byte] ++
      ((if turn.included policy then digestText turn.content else []) ++ r)) := by
  simp only [ChatTurn.slice, List.append_assoc]

/-- The encoding of the turns is read from the front: whether a text follows is known from
the state of the turn. -/
theorem searched_of_slices {policy : PartialMessagePolicy} {turns turns' : List ChatTurn}
    (ht : ∀ turn ∈ turns, turn.content.utf8ByteSize < 2 ^ 64)
    (ht' : ∀ turn ∈ turns', turn.content.utf8ByteSize < 2 ^ 64)
    (h : turns.flatMap (·.slice policy) = turns'.flatMap (·.slice policy)) :
    turns.filterMap (·.searched policy) = turns'.filterMap (·.searched policy) := by
  induction turns generalizing turns' with
  | nil =>
    cases turns' with
    | nil => rfl
    | cons turn rest => simp [ChatTurn.slice] at h
  | cons turn rest ih =>
    cases turns' with
    | nil => simp [ChatTurn.slice] at h
    | cons turn' rest' =>
      simp only [List.flatMap_cons, ChatTurn.slice_append] at h
      obtain ⟨-, h⟩ := digestU64_append_inj turn.revision.toNat_lt turn'.revision.toNat_lt h
      obtain ⟨hstate, h⟩ := List.append_inj h rfl
      have hsame : turn.state = turn'.state := MessageState.byte_inj (List.singleton_inj.mp hstate)
      have hincluded : turn.included policy = turn'.included policy := by
        simp only [ChatTurn.included, hsame]
      have hrest := fun t hmem => ht t (List.mem_cons_of_mem turn hmem)
      have hrest' := fun t hmem => ht' t (List.mem_cons_of_mem turn' hmem)
      rw [← hincluded] at h
      rw [List.filterMap_cons, List.filterMap_cons, ChatTurn.searched, ChatTurn.searched, ← hincluded]
      cases hin : turn.included policy with
      | false =>
        rw [hin] at h
        exact ih hrest hrest' h
      | true =>
        rw [hin] at h
        obtain ⟨hcontent, h⟩ := digestText_append_inj (ht turn List.mem_cons_self)
          (ht' turn' List.mem_cons_self) h
        rw [hcontent]
        exact congrArg (turn'.content :: ·) (ih hrest hrest' h)

theorem summary_of_slice {a b : SummarySnapshot} (ha : a.bytes < 2 ^ 64)
    (hb : b.bytes < 2 ^ 64) (h : a.slice ++ r = b.slice ++ s) : a.text = b.text ∧ r = s := by
  cases a <;> cases b
  case missing.missing => exact ⟨rfl, (List.append_inj h rfl).2⟩
  case corrupt.corrupt revision revision' =>
    simp only [SummarySnapshot.slice, List.append_assoc] at h
    obtain ⟨-, h⟩ := List.append_inj h rfl
    exact ⟨rfl, (digestU64_append_inj revision.toNat_lt revision'.toNat_lt h).2⟩
  case available.available revision content revision' content' =>
    simp only [SummarySnapshot.slice, List.append_assoc] at h
    obtain ⟨-, h⟩ := List.append_inj h rfl
    obtain ⟨-, h⟩ := digestU64_append_inj revision.toNat_lt revision'.toNat_lt h
    exact digestText_append_inj ha hb h
  all_goals
    simp [SummarySnapshot.slice] at h

theorem searchText_eq (request : SelectionRequest) :
    request.searchText = (request.turns.filterMap (·.searched request.settings.partialMessages)).foldl
      appendSegment request.conversation.summary.text := by
  unfold SelectionRequest.searchText
  generalize request.conversation.summary.text = start
  induction request.turns generalizing start with
  | nil => rfl
  | cons turn rest ih =>
    simp only [List.filter_cons, List.filterMap_cons, ChatTurn.searched]
    cases turn.included request.settings.partialMessages with
    | false => exact ih start
    | true => exact ih _

theorem searchText_of_slice {r s : SelectionRequest} (hr : r.Fits) (hs : s.Fits)
    (hpolicy : r.settings.partialMessages = s.settings.partialMessages)
    (h : r.searchSlice = s.searchSlice) : r.searchText = s.searchText := by
  simp only [SelectionRequest.searchSlice, List.append_assoc] at h
  obtain ⟨-, h⟩ := List.append_inj h rfl
  obtain ⟨hsummary, h⟩ := summary_of_slice hr.summary hs.summary h
  rw [hpolicy] at h
  have hdrop : ∀ {request : SelectionRequest}, request.Fits →
      ∀ turn ∈ request.turns, turn.content.utf8ByteSize < 2 ^ 64 :=
    fun hfits turn hmem => hfits.turns turn (List.mem_of_mem_drop hmem)
  have hturns := searched_of_slices (hdrop hr) (hdrop hs) h
  rw [searchText_eq, searchText_eq, hpolicy, hturns, hsummary]

/-! ## The key decides the selection -/

theorem admitEntries_congr {s t : SelectionSettings} (h : s.Alike t) (entries : List LoreEntry)
    (a : Admitted) : admitEntries s entries a = admitEntries t entries a := by
  induction entries generalizing a with
  | nil => rfl
  | cons entry rest ih =>
    simp only [admitEntries, h.separator, h.maxOutputBytes, h.maxOutputTokens, ih]

theorem findMatches_congr (T : Tools ρ) (compiled : CompiledCatalog ρ) (search : SearchInput)
    {r s : SelectionRequest} (h : r.settings.Alike s.settings) (hseed : r.seed = s.seed) :
    findMatches T compiled r search = findMatches T compiled s search := by
  have hlimits : EvaluationLimits.new r = EvaluationLimits.new s := by
    simp only [EvaluationLimits.new, h.maxRegexEvaluations, h.maxRegexScanBytes, h.maxRegexMatches]
  simp only [findMatches, hlimits, hseed, h.maxLiteralMatchEvents]

def CollisionFree (T : Tools ρ) (requests : List SelectionRequest) : Prop :=
  ∀ r ∈ requests, ∀ s ∈ requests,
    (T.sha256 r.settings.encoding = T.sha256 s.settings.encoding →
      r.settings.encoding = s.settings.encoding) ∧
    (T.sha256 r.searchSlice = T.sha256 s.searchSlice → r.searchSlice = s.searchSlice)

theorem faithful_key (T : Tools ρ) (compiled : CompiledCatalog ρ) {requests : List SelectionRequest}
    (h : CollisionFree T requests) :
    Memo.Faithful (LorebookEngine.key T compiled) (LorebookEngine.compute T compiled)
      fun request => request ∈ requests ∧ request.validate = .ok () := by
  rintro r s ⟨hr, hrvalid⟩ ⟨hs, hsvalid⟩ hkey
  obtain ⟨hsettings, hslice⟩ := h r hr s hs
  have hfits := SelectionRequest.fits hrvalid
  have hfits' := SelectionRequest.fits hsvalid
  have halike := settings_of_encoding hfits hfits' (hsettings (congrArg CacheKey.settingsFingerprint hkey))
  have hfingerprint : T.sha256 r.searchSlice = T.sha256 s.searchSlice :=
    congrArg CacheKey.searchSliceFingerprint hkey
  have htext := searchText_of_slice hfits hfits' halike.partialMessages (hslice hfingerprint)
  have hsearch : SearchInput.build T r = SearchInput.build T s := by
    simp only [SearchInput.build, htext, hfingerprint]
  have hchat : r.conversation.chatRevision = s.conversation.chatRevision :=
    congrArg CacheKey.chatRevision hkey
  have hbranch : r.conversation.branchRevision = s.conversation.branchRevision :=
    congrArg CacheKey.branchRevision hkey
  have hseed : r.seed = s.seed := congrArg CacheKey.seed hkey
  simp only [LorebookEngine.compute, hkey, hsearch, selectUncached,
    findMatches_congr T compiled _ halike hseed, admitEntries_congr halike, hchat, hbranch]

/-! ## Runs -/

/-- The selection apart from the flag that says where it came from. -/
def Selection.forgetHit (selection : Selection) : Selection :=
  { selection with receipt := { selection.receipt with cacheHit := false } }

def uncachedSelection (T : Tools ρ) (catalog : LorebookCatalog) (generation : Nat)
    (request : SelectionRequest) : Except LorebookError Selection := do
  let compiled ← compileCatalog T catalog generation
  request.validate
  selectUncached T compiled request (.build T request)
    ((LorebookEngine.key T compiled request).fingerprint T)

/-- A catalog that has been replaced with success is installed, under the next generation. -/
def install (current : LorebookCatalog × Nat) : EngineCall × EngineReply → LorebookCatalog × Nat
  | (.replaceCatalog catalog, .replaced (.ok ())) => (catalog, current.2 + 1)
  | _ => current

def installed (catalog : LorebookCatalog) (log : List (EngineCall × EngineReply)) :
    LorebookCatalog × Nat :=
  log.foldl install (catalog, 1)

def EngineCall.request : EngineCall → Option SelectionRequest
  | select request => some request
  | replaceCatalog _ => none

/-- The engine has compiled the installed catalog, and remembers selections from it. -/
structure EngineState (T : Tools ρ) (requests : List SelectionRequest)
    (current : LorebookCatalog × Nat) (engine : LorebookEngine ρ) : Prop where
  compiled : compileCatalog T current.1 current.2 = .ok engine.compiled
  generation : engine.compiled.generation = current.2
  remembers : Memo.Remembers (LorebookEngine.key T engine.compiled)
    (LorebookEngine.compute T engine.compiled)
    (fun request => request ∈ requests ∧ request.validate = .ok ()) engine.cache
  size : engine.cache.length ≤ maxCacheEntries

theorem compileEntries_labels {entries : List LoreEntry} {c c' : CompiledCatalog ρ}
    (h : compileEntries T entries c = .ok c') :
    c'.revision = c.revision ∧ c'.generation = c.generation := by
  induction entries generalizing c with
  | nil =>
    cases h
    exact ⟨rfl, rfl⟩
  | cons entry rest ih =>
    obtain ⟨activation, -, h⟩ := except_bind_ok.mp h
    have hrest := ih h
    exact hrest

theorem compileCatalog_labels {generation : Nat}
    {c : CompiledCatalog ρ} (h : compileCatalog T catalog generation = .ok c) :
    c.revision = catalog.revision ∧ c.generation = generation := by
  obtain ⟨_, _, h⟩ := except_bind_ok.mp h
  obtain ⟨_, _, h⟩ := except_bind_ok.mp h
  obtain ⟨_, _, h⟩ := except_bind_ok.mp h
  obtain ⟨_, _, h⟩ := except_bind_ok.mp h
  exact compileEntries_labels h

theorem compute_cacheHit {compiled : CompiledCatalog ρ} {request : SelectionRequest}
    {selection : Selection} (h : LorebookEngine.compute T compiled request = .ok selection) :
    selection.forgetHit = selection := by
  obtain ⟨found, -, h⟩ := except_bind_ok.mp h
  cases h
  rfl

section
variable {T : Tools ρ} {requests : List SelectionRequest} {current : LorebookCatalog × Nat}
  {engine : LorebookEngine ρ}

theorem engineState_new (h : LorebookEngine.new T catalog = .ok engine) :
    EngineState T requests (catalog, 1) engine := by
  obtain ⟨compiled, hcompiled, h⟩ := except_bind_ok.mp h
  cases h
  exact ⟨hcompiled, (compileCatalog_labels hcompiled).2, fun _ hentry => (nomatch hentry), Nat.zero_le _⟩

theorem EngineState.select (h : EngineState T requests current engine) {request : SelectionRequest}
    (hrequest : request ∈ requests) : EngineState T requests current (engine.select T request).2 := by
  unfold LorebookEngine.select
  cases hvalid : request.validate with
  | error e => exact h
  | ok u =>
    exact ⟨h.compiled, h.generation, Memo.memoized_remembers h.remembers ⟨hrequest, hvalid⟩,
      Memo.memoized_length (by decide) h.size⟩

theorem EngineState.replaceCatalog (h : EngineState T requests current engine)
    (catalog : LorebookCatalog) :
    EngineState T requests
      (install current (.replaceCatalog catalog, .replaced (engine.replaceCatalog T catalog).1))
      (engine.replaceCatalog T catalog).2 := by
  unfold LorebookEngine.replaceCatalog
  dsimp only
  split
  next => exact h
  next compiled hcompiled =>
    obtain ⟨-, -, hcompiled⟩ := except_bind_ok.mp hcompiled
    rw [h.generation] at hcompiled
    exact ⟨hcompiled, (compileCatalog_labels hcompiled).2, fun _ hentry => (nomatch hentry),
      Nat.zero_le _⟩

theorem EngineState.exec (h : EngineState T requests current engine) {call : EngineCall}
    (hcall : ∀ request ∈ call.request, request ∈ requests) :
    EngineState T requests (install current (call, ((engineServer T).exec call engine).1))
      ((engineServer T).exec call engine).2 := by
  cases call with
  | select request => exact h.select (hcall request rfl)
  | replaceCatalog catalog => exact h.replaceCatalog catalog

theorem EngineState.select_result (h : EngineState T requests current engine)
    (hsha : CollisionFree T requests) {request : SelectionRequest} (hrequest : request ∈ requests) :
    (engine.select T request).1.map Selection.forgetHit =
      uncachedSelection T current.1 current.2 request := by
  unfold uncachedSelection LorebookEngine.select
  rw [h.compiled]
  cases hvalid : request.validate with
  | error e => rfl
  | ok u =>
    simp only [bind, Except.bind]
    rw [← LorebookEngine.compute]
    have hresult := Memo.memoized_result CacheKey.before maxCacheEntries
      (faithful_key T engine.compiled hsha) h.remembers ⟨hrequest, hvalid⟩
    cases hmemo : (Memo.memoized CacheKey.before maxCacheEntries (LorebookEngine.key T engine.compiled)
        (LorebookEngine.compute T engine.compiled) request engine.cache).1 with
    | error e =>
      rw [hmemo] at hresult
      rw [← hresult]
      rfl
    | ok found =>
      obtain ⟨remembered, selection⟩ := found
      rw [hmemo] at hresult
      have hforget : selection.forgetHit = selection := compute_cacheHit hresult.symm
      rw [← hresult]
      cases remembered with
      | true => exact congrArg Except.ok hforget
      | false => exact congrArg Except.ok hforget

theorem EngineState.replaceCatalog_error {e : LorebookError}
    (h : (engine.replaceCatalog T catalog).1 = .error e) : (engine.replaceCatalog T catalog).2 = engine := by
  unfold LorebookEngine.replaceCatalog at h ⊢
  dsimp only at h ⊢
  split at h
  next => rfl
  next => cases h

theorem engineState_run {calls : List EngineCall}
    (h : LorebookEngine.new T catalog = .ok engine)
    (hcalls : ∀ call ∈ calls, ∀ request ∈ call.request, request ∈ requests) :
    EngineState T requests (installed catalog ((engineServer T).run calls engine).1)
      ((engineServer T).run calls engine).2 := by
  refine Server.run_history (A := fun call => ∀ request ∈ call.request, request ∈ requests)
    (P := fun log engine => EngineState T requests (installed catalog log) engine)
    (fun log engine call hcall hstate => ?_) hcalls (engineState_new h)
  have hnext := hstate.exec hcall
  rwa [installed, List.foldl_append]

end

/-- The cache of an engine cannot be observed: after any calls on a new engine a selection
answers, apart from the flag, what an uncached selection answers; a refused catalog leaves the
engine as it is; and the cache is bounded. -/
theorem cache_transparent {T : Tools ρ} {catalog : LorebookCatalog} {engine : LorebookEngine ρ}
    (h : LorebookEngine.new T catalog = .ok engine) (calls : List EngineCall)
    (request : SelectionRequest)
    (hsha : CollisionFree T (request :: calls.filterMap EngineCall.request)) :
    let log := ((engineServer T).run calls engine).1
    let engine' := ((engineServer T).run calls engine).2
    (engine'.select T request).1.map Selection.forgetHit =
        uncachedSelection T (installed catalog log).1 (installed catalog log).2 request ∧
      (∀ refused e, (engine'.replaceCatalog T refused).1 = .error e →
        (engine'.replaceCatalog T refused).2 = engine') ∧
      engine'.cache.length ≤ maxCacheEntries := by
  have hcalls : ∀ call ∈ calls, ∀ asked ∈ call.request,
      asked ∈ request :: calls.filterMap EngineCall.request := by
    intro call hcall asked hasked
    exact List.mem_cons_of_mem _ (List.mem_filterMap.mpr ⟨call, hcall, hasked⟩)
  have hstate := engineState_run h hcalls
  exact ⟨hstate.select_result hsha List.mem_cons_self,
    fun refused e hrefused => EngineState.replaceCatalog_error hrefused, hstate.size⟩

def digestTools : Tools String :=
  { asciiTools with
    sha256 bytes :=
      let number := bytes.foldl (fun n byte => n * 257 + byte.toNat + 1) 0
      Vector.ofFn fun i : Fin 32 => UInt8.ofNat (number / 256 ^ i.val) }

/-- A request, a catalog that is refused, and a request that differs only in its separator. -/
def knightCalls : List EngineCall :=
  [.select knightRequest,
   .replaceCatalog { knightCatalog with entries := knightCatalog.entries ++ knightCatalog.entries },
   .select { knightRequest with settings := { knightRequest.settings with separator := "; " } }]

theorem cache_transparent_knight : ∃ engine, LorebookEngine.new digestTools knightCatalog = .ok engine ∧
    (((((engineServer digestTools).run knightCalls engine).2.select digestTools knightRequest).1).map
      Selection.forgetHit) = uncachedSelection digestTools knightCatalog 1 knightRequest := by
  cases hengine : LorebookEngine.new digestTools knightCatalog with
  | error e =>
    have hok : (LorebookEngine.new digestTools knightCatalog).toBool = true := by decide
    rw [hengine] at hok
    cases hok
  | ok engine =>
    have hsha : CollisionFree digestTools
        (knightRequest :: knightCalls.filterMap EngineCall.request) := by
      unfold CollisionFree
      decide +kernel
    refine ⟨engine, rfl, ?_⟩
    have hlog : (LorebookEngine.new digestTools knightCatalog).map (fun engine =>
        installed knightCatalog ((engineServer digestTools).run knightCalls engine).1) =
        .ok (knightCatalog, 1) := by decide
    simp only [hengine, Except.map, Except.ok.injEq] at hlog
    have hresult := (cache_transparent hengine knightCalls knightRequest hsha).1
    rwa [hlog] at hresult

end Lorepia.Lorebook
