import Mathlib.Data.List.AList
import Lorepia.Lib.Tx

/-!
# The persona catalog

An editor presents the revision it has read, and an update or a removal is refused when the
persona has another one (`catalog.rs`). A persona that is removed and added again starts at
revision 1, so a revision identifies a content only as long as no id is used twice.
-/

namespace Lorepia.Persona

def maxPersonas : Nat := 256
def maxCharacterPolicies : Nat := 4096
def maxTotalPersonaPromptBytes : Nat := 4 * 1024 * 1024

abbrev PersonaId := String
abbrev CharacterCardId := String

inductive PersonaError where
  | tooManyItems (field : String) (max : Nat)
  | payloadTooLarge (field : String) (maxBytes : Nat)
  | alreadyExists (kind id : String)
  | notFound (kind id : String)
  | revisionConflict (personaId : String) (expected actual : Nat)
  | personaInUse (personaId scope : String)
  | revisionOverflow
  deriving DecidableEq

abbrev Result := Except PersonaError

structure PersonaDraft where
  label : String
  promptText : String
  deriving DecidableEq

structure PersonaRecord where
  id : PersonaId
  revision : Nat
  label : String
  promptText : String
  deriving DecidableEq

/-- What an editor sees of a persona besides its revision. -/
def PersonaRecord.content (record : PersonaRecord) : PersonaDraft := ⟨record.label, record.promptText⟩

inductive CharacterPersonaPolicy where
  | inheritGlobal
  | specific (id : PersonaId)
  | noPersona

inductive StoredCharacterPolicy where
  | specific (id : PersonaId)
  | noPersona
  deriving DecidableEq

structure PersonaCatalog where
  generation : Nat := 0
  personas : AList fun _ : PersonaId => PersonaRecord := ∅
  globalDefault : Option PersonaId := none
  characterPolicies : AList fun _ : CharacterCardId => StoredCharacterPolicy := ∅
  totalPromptBytes : Nat := 0

/-! ## Operations -/

/-- A `u64` that is counted up. -/
def nextGeneration (current : Nat) : Result Nat := do
  ensure (current + 1 < 2 ^ 64) .revisionOverflow
  .ok (current + 1)

def checkedTotalAfterReplace (current old new : Nat) : Result Nat := do
  ensure (old ≤ current ∧ current - old + new ≤ maxTotalPersonaPromptBytes)
    (.payloadTooLarge "total persona prompt text" maxTotalPersonaPromptBytes)
  .ok (current - old + new)

namespace PersonaCatalog

def get (catalog : PersonaCatalog) (id : PersonaId) : Option PersonaRecord := catalog.personas.lookup id

def requirePersona (catalog : PersonaCatalog) (id : PersonaId) : Result PersonaRecord :=
  match catalog.get id with
  | none => .error (.notFound "persona" id)
  | some record => .ok record

def add (catalog : PersonaCatalog) (id : PersonaId) (draft : PersonaDraft) :
    Result (PersonaRecord × PersonaCatalog) := do
  ensure (catalog.get id = none) (.alreadyExists "persona" id)
  ensure (catalog.personas.keys.length < maxPersonas) (.tooManyItems "personas" maxPersonas)
  let totalPromptBytes ←
    checkedTotalAfterReplace catalog.totalPromptBytes 0 draft.promptText.utf8ByteSize
  let generation ← nextGeneration catalog.generation
  let record : PersonaRecord := ⟨id, 1, draft.label, draft.promptText⟩
  .ok (record, { catalog with personas := catalog.personas.insert id record, totalPromptBytes, generation })

def update (catalog : PersonaCatalog) (id : PersonaId) (expectedRevision : Nat) (draft : PersonaDraft) :
    Result (PersonaRecord × PersonaCatalog) := do
  let current ← catalog.requirePersona id
  ensure (current.revision = expectedRevision)
    (.revisionConflict id expectedRevision current.revision)
  let revision ← nextGeneration current.revision
  let totalPromptBytes ← checkedTotalAfterReplace catalog.totalPromptBytes
    current.promptText.utf8ByteSize draft.promptText.utf8ByteSize
  let generation ← nextGeneration catalog.generation
  let updated : PersonaRecord := ⟨id, revision, draft.label, draft.promptText⟩
  .ok (updated, { catalog with personas := catalog.personas.insert id updated, totalPromptBytes, generation })

def policyOf (catalog : PersonaCatalog) (id : PersonaId) : Option CharacterCardId :=
  (((catalog.characterPolicies.entries.filter fun entry => entry.2 = .specific id).map
    Sigma.fst).insertionSort (· ≤ ·)).head?

def remove (catalog : PersonaCatalog) (id : PersonaId) (expectedRevision : Nat) :
    Result (PersonaRecord × PersonaCatalog) := do
  let current ← catalog.requirePersona id
  ensure (current.revision = expectedRevision)
    (.revisionConflict id expectedRevision current.revision)
  ensure (catalog.globalDefault ≠ some id) (.personaInUse id "the global default")
  match catalog.policyOf id with
  | some characterId => .error (.personaInUse id ("character policy " ++ characterId))
  | none => do
    let generation ← nextGeneration catalog.generation
    .ok (current, { catalog with
      personas := catalog.personas.erase id
      totalPromptBytes := catalog.totalPromptBytes - current.promptText.utf8ByteSize
      generation })

def setGlobalDefault (catalog : PersonaCatalog) (personaId : Option PersonaId) : Result PersonaCatalog := do
  let _ ← personaId.mapM catalog.requirePersona
  if catalog.globalDefault = personaId then .ok catalog
  else do
    let generation ← nextGeneration catalog.generation
    .ok { catalog with globalDefault := personaId, generation }

def storedPolicy (catalog : PersonaCatalog) : CharacterPersonaPolicy → Result (Option StoredCharacterPolicy)
  | .inheritGlobal => .ok none
  | .specific id => do
    let _ ← catalog.requirePersona id
    .ok (some (.specific id))
  | .noPersona => .ok (some .noPersona)

def setCharacterPolicy (catalog : PersonaCatalog) (characterId : CharacterCardId)
    (policy : CharacterPersonaPolicy) : Result PersonaCatalog := do
  let stored ← catalog.storedPolicy policy
  if stored = catalog.characterPolicies.lookup characterId then .ok catalog
  else do
    ensure (¬ (stored.isSome ∧ catalog.characterPolicies.lookup characterId = none ∧
        maxCharacterPolicies ≤ catalog.characterPolicies.keys.length))
      (.tooManyItems "character policies" maxCharacterPolicies)
    let generation ← nextGeneration catalog.generation
    .ok { catalog with
      characterPolicies := match stored with
        | some stored => catalog.characterPolicies.insert characterId stored
        | none => catalog.characterPolicies.erase characterId
      generation }

end PersonaCatalog

/-! ## Runs -/

inductive Operation where
  | add (id : PersonaId) (draft : PersonaDraft)
  | update (id : PersonaId) (expectedRevision : Nat) (draft : PersonaDraft)
  | remove (id : PersonaId) (expectedRevision : Nat)
  | setGlobalDefault (personaId : Option PersonaId)
  | setCharacterPolicy (characterId : CharacterCardId) (policy : CharacterPersonaPolicy)

namespace PersonaCatalog

def apply (catalog : PersonaCatalog) : Operation → Result PersonaCatalog
  | .add id draft => Prod.snd <$> catalog.add id draft
  | .update id expectedRevision draft => Prod.snd <$> catalog.update id expectedRevision draft
  | .remove id expectedRevision => Prod.snd <$> catalog.remove id expectedRevision
  | .setGlobalDefault personaId => catalog.setGlobalDefault personaId
  | .setCharacterPolicy characterId policy => catalog.setCharacterPolicy characterId policy

def after (catalog : PersonaCatalog) (operation : Operation) : PersonaCatalog :=
  match catalog.apply operation with
  | .ok next => next
  | .error _ => catalog

def run (catalog : PersonaCatalog) (operations : List Operation) : PersonaCatalog :=
  operations.foldl after catalog

/-- A persona is added only under an id that none has had before in the run. -/
def IdsUsedOnce (catalog : PersonaCatalog) (operations : List Operation) : Prop :=
  ∀ past id draft, past ++ [.add id draft] <+: operations →
    (∃ added, (catalog.run past).add id draft = .ok added) →
      ∀ earlier, earlier <+: past → (catalog.run earlier).get id = none

variable {catalog next : PersonaCatalog} {id : PersonaId} {operations : List Operation}
  {operation : Operation} {record : PersonaRecord}

theorem requirePersona_ok : catalog.requirePersona id = .ok record ↔ catalog.get id = some record := by
  unfold requirePersona
  split <;> simp_all

theorem get_apply (h : catalog.apply operation = .ok next) (id : PersonaId) :
    next.get id = catalog.get id ∨ next.get id = none ∨
      (∃ draft added, operation = .add id draft ∧ catalog.add id draft = .ok added) ∨
        ∃ current updated, catalog.get id = some current ∧ next.get id = some updated ∧
          updated.revision = current.revision + 1 := by
  cases operation with
  | add id' draft =>
    obtain ⟨added, hadd, rfl⟩ := except_map_ok.mp h
    by_cases hid : id = id'
    · subst hid
      exact .inr (.inr (.inl ⟨draft, added, rfl, hadd⟩))
    · simp only [add, except_bind_ok, ensure_ok, exists_const, Except.ok.injEq] at hadd
      obtain ⟨-, -, total, -, generation, -, rfl⟩ := hadd
      exact .inl (AList.lookup_insert_ne hid)
  | update id' revision draft =>
    obtain ⟨updated, hupdate, rfl⟩ := except_map_ok.mp h
    simp only [update, nextGeneration, except_bind_ok, requirePersona_ok, ensure_ok, exists_const,
      Except.ok.injEq] at hupdate
    obtain ⟨current, hcurrent, -, -, ⟨-, rfl⟩, total, -, generation, -, rfl⟩ := hupdate
    by_cases hid : id = id'
    · subst hid
      exact .inr (.inr (.inr ⟨current, _, hcurrent, AList.lookup_insert _, rfl⟩))
    · exact .inl (AList.lookup_insert_ne hid)
  | remove id' revision =>
    obtain ⟨removed, hremove, rfl⟩ := except_map_ok.mp h
    simp only [remove, except_bind_ok, requirePersona_ok, ensure_ok, exists_const] at hremove
    obtain ⟨current, -, -, -, hremove⟩ := hremove
    split at hremove
    · cases hremove
    · simp only [except_bind_ok, Except.ok.injEq] at hremove
      obtain ⟨generation, -, rfl⟩ := hremove
      by_cases hid : id = id'
      · subst hid
        exact .inr (.inl (AList.lookup_erase _ _))
      · exact .inl (AList.lookup_erase_ne hid)
  | setGlobalDefault personaId =>
    simp only [apply, setGlobalDefault, except_bind_ok] at h
    obtain ⟨-, -, h⟩ := h
    split at h
    · cases h
      exact .inl rfl
    · simp only [except_bind_ok, Except.ok.injEq] at h
      obtain ⟨generation, -, rfl⟩ := h
      exact .inl rfl
  | setCharacterPolicy characterId policy =>
    simp only [apply, setCharacterPolicy, except_bind_ok] at h
    obtain ⟨stored, -, h⟩ := h
    split at h
    · cases h
      exact .inl rfl
    · simp only [except_bind_ok, Except.ok.injEq] at h
      obtain ⟨-, -, generation, -, rfl⟩ := h
      exact .inl rfl

def Since (catalog : PersonaCatalog) (id : PersonaId) (read : PersonaRecord) : Prop :=
  ∀ current, catalog.get id = some current → current = read ∨ read.revision < current.revision

theorem Since.after {read : PersonaRecord} (h : catalog.Since id read)
    (hnew : ∀ draft, operation = .add id draft → ¬ ∃ added, catalog.add id draft = .ok added) :
    (catalog.after operation).Since id read := by
  unfold PersonaCatalog.after
  split
  next next hnext =>
    intro current hcurrent
    obtain hsame | hgone | ⟨draft, added, hop, hadd⟩ | ⟨old, updated, hold, hupdated, hrevision⟩ :=
      get_apply hnext id
    · exact h current (hsame ▸ hcurrent)
    · simp [hgone] at hcurrent
    · exact absurd ⟨added, hadd⟩ (hnew draft hop)
    · cases hupdated.symm.trans hcurrent
      obtain rfl | hlt := h old hold
      · exact .inr (by omega)
      · exact .inr (by omega)
  next => exact h

theorem since_run {read : PersonaRecord} {earlier later : List Operation}
    (honce : catalog.IdsUsedOnce operations) (hlater : later <+: operations)
    (hearlier : earlier <+: later) (hread : (catalog.run earlier).get id = some read) :
    (catalog.run later).Since id read := by
  obtain ⟨between, rfl⟩ := hearlier
  induction between using List.reverseRecOn with
  | nil =>
    intro current hcurrent
    rw [List.append_nil, hread] at hcurrent
    exact .inl (Option.some.inj hcurrent).symm
  | append_singleton between operation ih =>
    rw [← List.append_assoc] at hlater
    have hpast := ih ((List.prefix_append _ _).trans hlater)
    rw [run, ← List.append_assoc, List.foldl_append, List.foldl_cons, List.foldl_nil]
    refine hpast.after ?_
    rintro draft rfl hadded
    -- the editor has read the persona earlier, so its id is used
    have hnone := honce _ id draft hlater hadded earlier (List.prefix_append _ _)
    simp [hread] at hnone

/-- As long as no id is used twice, a revision that an editor has read stands for the content it
has read, and an edit that presents it meets this content. -/
theorem revision_identifies_content (catalog : PersonaCatalog) (operations : List Operation)
    (honce : catalog.IdsUsedOnce operations) (earlier later : List Operation)
    (hearlier : earlier <+: later) (hlater : later <+: operations) (id : PersonaId)
    (read : PersonaRecord) (hread : (catalog.run earlier).get id = some read) :
    (∀ current, (catalog.run later).get id = some current → current.revision = read.revision →
        current.content = read.content) ∧
      ((∃ draft done, (catalog.run later).update id read.revision draft = .ok done) ∨
          (∃ done, (catalog.run later).remove id read.revision = .ok done) →
        ∃ current, (catalog.run later).get id = some current ∧ current.content = read.content) := by
  have hsame : ∀ current, (catalog.run later).get id = some current →
      current.revision = read.revision → current.content = read.content := by
    intro current hcurrent hrevision
    obtain rfl | hlt := since_run honce hlater hearlier hread current hcurrent
    · rfl
    · omega
  refine ⟨hsame, ?_⟩
  rintro (⟨draft, done, h⟩ | ⟨done, h⟩)
  · simp only [update, except_bind_ok, requirePersona_ok, ensure_ok, exists_const] at h
    obtain ⟨current, hcurrent, hrevision, -⟩ := h
    exact ⟨current, hcurrent, hsame current hcurrent hrevision⟩
  · simp only [remove, except_bind_ok, requirePersona_ok, ensure_ok, exists_const] at h
    obtain ⟨current, hcurrent, hrevision, -⟩ := h
    exact ⟨current, hcurrent, hsame current hcurrent hrevision⟩

/-- A persona is removed and added again with another text. -/
def recreation : List Operation :=
  [.add "player" ⟨"Player", "first"⟩, .remove "player" 1, .add "player" ⟨"Player", "second"⟩]

/-- An editor that has read the first text presents revision 1 and replaces the second. -/
theorem recreated_persona_updated :
    (run {} (recreation.take 1)).get "player" = some ⟨"player", 1, "Player", "first"⟩ ∧
      (run {} recreation).get "player" = some ⟨"player", 1, "Player", "second"⟩ ∧
      Prod.fst <$> (run {} recreation).update "player" 1 ⟨"Player", "third"⟩ =
        .ok ⟨"player", 2, "Player", "third"⟩ := by
  decide

theorem revision_identifies_first :
    ∃ current, (run {} (recreation.take 1)).get "player" = some current ∧
      current.content = ⟨"Player", "first"⟩ := by
  have honce : IdsUsedOnce {} (recreation.take 1) := by
    rintro past id draft hpast - earlier hearlier
    obtain rfl : past = [] := by
      have := hpast.length_le
      simpa [recreation] using this
    rw [List.prefix_nil.mp hearlier]
    rfl
  exact (revision_identifies_content {} (recreation.take 1) honce _ _ (List.prefix_refl _)
    (List.prefix_refl _) "player" ⟨"player", 1, "Player", "first"⟩ (by decide)).2
      (.inl ⟨⟨"Player", "third"⟩, _, rfl⟩)

end PersonaCatalog

end Lorepia.Persona
