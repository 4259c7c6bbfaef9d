import Lorepia.Lib.Runs
import Lorepia.Memory.Selection

/-!
# The lineage of memories

A repository holds artifacts and the jobs planned from them. Calls plan jobs, turn results
into artifacts, invalidate artifacts when their messages are edited or deleted, mark them as
compacted, select memories and materialise selections. What a call computes is a function of
the crate; the repository only looks artifacts up by their ids and keeps the ids distinct.

Invalidating a leaf does not touch the summaries that cover it, and neither the selection nor
the materialisation looks at the validity of covered leaves. So the words of a deleted leaf can
come back (`deleted_leaf_resurfaces`), unless a leaf is only invalidated after every summary
that covers it (`no_resurfacing`).
-/

namespace Lorepia.Memory

variable {π : Type}

/-- The session a call is made in. -/
structure Caller where
  binding : MemorySessionBinding
  expectedChatId : ChatId
  expectedCharacterCardId : CharacterCardId

/-- The current source a job is compared with; artifacts are named by their ids. -/
inductive CurrentSource where
  | messages (items : List MemorySourceMessage)
  | artifacts (ids : List MemoryArtifactId)

/-- A candidate before its artifact is looked up. -/
structure CandidateInput where
  id : MemoryArtifactId
  reservedPromptTokens : UInt32
  embeddingMatch : Option EmbeddingMatch

inductive Invalidation where
  | edit
  | deletion
  deriving DecidableEq

inductive Call (π : Type) where
  | planInitial (caller : Caller) (messages : List MemorySourceMessage)
  | planResummary (caller : Caller) (ids : List MemoryArtifactId)
  | complete (caller : Caller) (job : Nat) (current : CurrentSource) (resolvedPrompt : π)
      (mode : SummaryOutputMode) (rawOutput : String) (id : MemoryArtifactId)
  | invalidate (reason : Invalidation) (id : MemoryArtifactId)
  | compact (id : MemoryArtifactId)
  | select (caller : Caller) (budgetInput : MemoryBudgetInput) (query : AuthoritativeEmbeddingQuery)
      (candidates : List CandidateInput)
  | materialize (caller : Caller) (selection : MemorySelection) (budgetInput : MemoryBudgetInput)
      (query : AuthoritativeEmbeddingQuery) (current : List MemoryArtifactId)

inductive Reply where
  | done
  | selected (selection : MemorySelection)
  | materialized (text : String)
  | failed (error : MemoryError)
  | unknown
  deriving DecidableEq

structure Repository where
  artifacts : List SummaryArtifact
  jobs : List SummaryJob
  deriving DecidableEq

namespace Repository

def find (repo : Repository) (id : MemoryArtifactId) : Option SummaryArtifact :=
  repo.artifacts.find? fun artifact => decide (artifact.id = id)

def lookup (repo : Repository) (ids : List MemoryArtifactId) : List SummaryArtifact :=
  ids.filterMap repo.find

def source (repo : Repository) : CurrentSource → SummaryJobSource
  | .messages items => .messages items
  | .artifacts ids => .artifacts (repo.lookup ids)

def candidates (repo : Repository) : List CandidateInput → Result (List MemoryCandidate)
  | [] => .ok []
  | input :: rest =>
    match repo.find input.id with
    | none => candidates repo rest
    | some artifact => do
      let candidate ← MemoryCandidate.new artifact input.reservedPromptTokens input.embeddingMatch
      let others ← candidates repo rest
      .ok (candidate :: others)

def replace (repo : Repository) (changed : SummaryArtifact) : Repository :=
  { repo with
    artifacts := repo.artifacts.map fun artifact => if artifact.id = changed.id then changed else artifact }

end Repository

def complete (P : Prompts π) (repo : Repository) (caller : Caller) (job : SummaryJob)
    (current : CurrentSource) (resolvedPrompt : π) (mode : SummaryOutputMode) (rawOutput : String)
    (id : MemoryArtifactId) : Result SummaryArtifact := do
  let processed ← processSummaryOutput P caller.binding caller.expectedChatId
    caller.expectedCharacterCardId job ⟨repo.source current, resolvedPrompt, mode, rawOutput⟩
  SummaryArtifact.new caller.binding caller.expectedChatId caller.expectedCharacterCardId processed id

def Invalidation.apply : Invalidation → SummaryArtifact → Result SummaryArtifact
  | edit => SummaryArtifact.invalidatedByEdit
  | deletion => SummaryArtifact.invalidatedByDeletion

def changing (repo : Repository) (result : Result Repository) : Reply × Repository :=
  match result with
  | .ok changed => (.done, changed)
  | .error error => (.failed error, repo)

def reading {α : Type} (repo : Repository) (reply : α → Reply) (result : Result α) :
    Reply × Repository :=
  match result with
  | .ok a => (reply a, repo)
  | .error error => (.failed error, repo)

def memoryServer (P : Prompts π) : Server Repository (Call π) Reply where
  exec
    | .planInitial caller messages, repo =>
      changing repo do
        let jobs ← planInitialSummaryJobs P caller.binding caller.expectedChatId
          caller.expectedCharacterCardId messages
        .ok { repo with jobs := repo.jobs ++ jobs }
    | .planResummary caller ids, repo =>
      changing repo do
        let job ← planResummaryJob caller.binding caller.expectedChatId
          caller.expectedCharacterCardId (repo.lookup ids)
        .ok { repo with jobs := repo.jobs ++ [job] }
    | .complete caller index current resolvedPrompt mode rawOutput id, repo =>
      match repo.jobs[index]?, repo.find id with
      | some job, none =>
        changing repo do
          let artifact ← complete P repo caller job current resolvedPrompt mode rawOutput id
          .ok { repo with artifacts := repo.artifacts ++ [artifact] }
      | _, _ => (.unknown, repo)
    | .invalidate reason id, repo =>
      match repo.find id with
      | some artifact =>
        changing repo do
          let changed ← reason.apply artifact
          .ok (repo.replace changed)
      | none => (.unknown, repo)
    | .compact id, repo =>
      match repo.find id with
      | some artifact => (.done, repo.replace artifact.sourceCompacted)
      | none => (.unknown, repo)
    | .select caller budgetInput query inputs, repo =>
      reading repo .selected do
        let candidates ← repo.candidates inputs
        selectMemories P caller.binding caller.expectedChatId caller.expectedCharacterCardId
          budgetInput query candidates
    | .materialize caller selection budgetInput query current, repo =>
      reading repo .materialized
        (selection.materialize P caller.binding caller.expectedChatId caller.expectedCharacterCardId
          budgetInput query (repo.lookup current))

/-! ## Resurfacing -/

/-- A selected memory is a consolidated summary that covers an invalidated leaf. -/
def Resurfaces (repo : Repository) (selected : List SelectedMemory) : Prop :=
  ∃ memory ∈ selected, ∃ artifact ∈ repo.artifacts,
    artifact.id = memory.artifactId ∧ artifact.kind = .consolidated ∧
      ∃ leaf ∈ repo.artifacts, leaf.kind = .leaf ∧ leaf.validity.invalidated = true ∧
        artifact.coversLeaf leaf.id = true

instance (repo : Repository) (selected : List SelectedMemory) : Decidable (Resurfaces repo selected) := by
  unfold Resurfaces
  infer_instance

/-- No call brings the words of an invalidated leaf back. -/
def Forgets (repo : Repository) (call : Call π) (reply : Reply) : Prop :=
  match reply, call with
  | .selected selection, _ => ¬ Resurfaces repo selection.selected
  | .materialized _, .materialize _ selection _ _ _ => ¬ Resurfaces repo selection.selected
  | _, _ => True

instance (repo : Repository) (call : Call π) (reply : Reply) : Decidable (Forgets repo call reply) := by
  unfold Forgets
  split <;> infer_instance

/-- An artifact is invalidated after everything that covers it. -/
def Cascades (repo : Repository) (call : Call π) (_ : Reply) : Prop :=
  match call with
  | .invalidate _ id => ∀ artifact ∈ repo.artifacts, artifact.id ≠ id →
    artifact.coversLeaf id = true → artifact.validity.invalidated = true
  | _ => True

instance (repo : Repository) (call : Call π) (reply : Reply) : Decidable (Cascades repo call reply) := by
  unfold Cascades
  split <;> infer_instance

/-- No artifact in force covers an invalidated one. -/
structure Repository.Sound (repo : Repository) : Prop where
  distinct : (repo.artifacts.map (·.id)).Nodup
  planned : ∀ job ∈ repo.jobs, job.Planned
  clean : ∀ artifact ∈ repo.artifacts, artifact.validity.invalidated = false →
    ∀ leaf ∈ repo.artifacts, leaf.validity.invalidated = true →
      leaf.id ∉ artifact.coveredLeafArtifactIds.ids

namespace Repository.Sound

variable {repo : Repository}

theorem mem_of_find {id : MemoryArtifactId} {artifact : SummaryArtifact}
    (h : repo.find id = some artifact) : artifact ∈ repo.artifacts ∧ artifact.id = id := by
  have hid := List.find?_some h
  exact ⟨List.mem_of_find?_eq_some h, of_decide_eq_true hid⟩

theorem mem_of_lookup {ids : List MemoryArtifactId} {artifact : SummaryArtifact}
    (h : artifact ∈ repo.lookup ids) : artifact ∈ repo.artifacts := by
  obtain ⟨id, -, hfind⟩ := List.mem_filterMap.mp h
  exact (mem_of_find hfind).1

theorem mem_of_candidates {inputs : List CandidateInput} {candidates : List MemoryCandidate}
    (h : repo.candidates inputs = .ok candidates) :
    ∀ candidate ∈ candidates, candidate.artifact ∈ repo.artifacts := by
  induction inputs generalizing candidates with
  | nil =>
    cases h
    intro candidate hmem
    cases hmem
  | cons input rest ih =>
    unfold Repository.candidates at h
    split at h
    · exact ih h
    · next artifact hfind =>
      obtain ⟨first, hfirst, h⟩ := except_bind_ok.mp h
      obtain ⟨others, hothers, h⟩ := except_bind_ok.mp h
      cases h
      intro candidate hmem
      obtain rfl | hmem := List.mem_cons.mp hmem
      · unfold MemoryCandidate.new at hfirst
        split at hfirst
        · split at hfirst
          · cases hfirst
            exact (mem_of_find hfind).1
          · cases hfirst
        · cases hfirst
      · exact ih hothers candidate hmem

theorem forgets (h : repo.Sound) (binding : MemorySessionBinding) {selected : List SelectedMemory}
    (heligible : ∀ memory ∈ selected, ∃ artifact ∈ repo.artifacts,
      artifact.id = memory.artifactId ∧ artifactIsEligible binding artifact = true) :
    ¬ Resurfaces repo selected := by
  rintro ⟨memory, hmemory, artifact, hartifact, hid, -, leaf, hleaf, -, hinvalidated, hcovers⟩
  obtain ⟨other, hother, hotherId, heligible⟩ := heligible memory hmemory
  have hsame : other = artifact :=
    List.inj_on_of_nodup_map h.distinct hother hartifact (hotherId.trans hid.symm)
  subst hsame
  exact h.clean other hother (invalidated_of_eligible heligible) leaf hleaf hinvalidated
    (of_decide_eq_true hcovers)

theorem replace (h : repo.Sound) {artifact changed : SummaryArtifact}
    (hmem : artifact ∈ repo.artifacts) (hid : changed.id = artifact.id)
    (hcovered : changed.coveredLeafArtifactIds = artifact.coveredLeafArtifactIds)
    (hkept : artifact.validity.invalidated = true → changed.validity.invalidated = true)
    (hcascades : artifact.validity.invalidated = false → changed.validity.invalidated = true →
      ∀ other ∈ repo.artifacts, other.id ≠ artifact.id →
        artifact.id ∈ other.coveredLeafArtifactIds.ids → other.validity.invalidated = true) :
    (repo.replace changed).Sound := by
  -- a row of the new table is the changed one or an old one with another id
  have hrow : ∀ row ∈ (repo.replace changed).artifacts,
      row = changed ∨ row ∈ repo.artifacts ∧ row.id ≠ artifact.id := by
    intro row hrow
    obtain ⟨old, hold, rfl⟩ := List.mem_map.mp hrow
    split
    · exact .inl rfl
    · next hne => exact .inr ⟨hold, hid ▸ hne⟩
  constructor
  case distinct =>
    have hids : ((repo.replace changed).artifacts.map (·.id)) = repo.artifacts.map (·.id) := by
      rw [Repository.replace, List.map_map]
      refine List.map_congr_left fun old _ => ?_
      simp only [Function.comp_apply]
      split
      · next heq => exact heq.symm
      · rfl
    rw [hids]
    exact h.distinct
  case planned => exact h.planned
  case clean =>
    intro row hmemRow hvalid leaf hleaf hinvalidated hcovers
    obtain rfl | ⟨hold, hne⟩ := hrow row hmemRow
    · -- the changed row covers what it covered, and it was in force before
      have hbefore : artifact.validity.invalidated = false := by
        by_contra hcontra
        rw [hkept (Bool.of_not_eq_false hcontra)] at hvalid
        cases hvalid
      obtain rfl | ⟨holdLeaf, -⟩ := hrow leaf hleaf
      · rw [hvalid] at hinvalidated
        cases hinvalidated
      · rw [hcovered] at hcovers
        exact h.clean artifact hmem hbefore leaf holdLeaf hinvalidated hcovers
    · obtain rfl | ⟨holdLeaf, -⟩ := hrow leaf hleaf
      · rw [hid] at hcovers
        cases hbefore : artifact.validity.invalidated with
        | false =>
          have := hcascades hbefore hinvalidated row hold hne hcovers
          rw [this] at hvalid
          cases hvalid
        | true => exact h.clean row hold hvalid artifact hmem hbefore hcovers
      · exact h.clean row hold hvalid leaf holdLeaf hinvalidated hcovers

theorem complete (h : repo.Sound) {P : Prompts π} {caller : Caller} {job : SummaryJob}
    (hjob : job ∈ repo.jobs) {current : CurrentSource} {resolvedPrompt : π} {mode : SummaryOutputMode}
    {rawOutput : String} {id : MemoryArtifactId} {artifact : SummaryArtifact}
    (hfresh : repo.find id = none)
    (hcomplete : Memory.complete P repo caller job current resolvedPrompt mode rawOutput id = .ok artifact) :
    Repository.Sound { repo with artifacts := repo.artifacts ++ [artifact] } := by
  obtain ⟨processed, hprocessed, hnew⟩ := except_bind_ok.mp hcomplete
  obtain ⟨hsame, hsource⟩ := processSummaryOutput_source hprocessed
  obtain ⟨hid, hattached, hkind⟩ := new_covers hnew
  have hnone : ∀ old ∈ repo.artifacts, old.id ≠ id := fun old hold heq =>
    absurd (decide_eq_true heq) (List.find?_eq_none.mp hfresh old hold)
  have hcovers : ∀ leaf ∈ repo.artifacts, leaf.validity.invalidated = true →
      leaf.id ∉ artifact.coveredLeafArtifactIds.ids := by
    intro leaf hleaf hinvalidated hmem
    obtain ⟨-, hsingle⟩ | ⟨-, sources, hsources, hcovered⟩ := hkind
    · rw [hsingle] at hmem
      exact hnone leaf hleaf (List.mem_singleton.mp hmem)
    · obtain ⟨source, hsourceMem, hmem⟩ := hcovered leaf.id hmem
      rw [hsame] at hsources
      have hplanned := h.planned job hjob
      unfold SummaryJob.Planned at hplanned
      rw [hsources] at hplanned
      have hcurrent := hsource sources hsources
      cases current with
      | messages items => cases hcurrent
      | artifacts ids =>
        obtain rfl : repo.lookup ids = sources := SummaryJobSource.artifacts.inj hcurrent
        have hvalid : source.validity.invalidated = false := by
          cases hjobKind : job.kind with
          | initial =>
            rw [hjobKind] at hplanned
            cases hplanned
          | resummary =>
            rw [hjobKind] at hplanned
            exact hplanned source hsourceMem
        exact h.clean source (mem_of_lookup hsourceMem) hvalid leaf hleaf hinvalidated hmem
  constructor
  case distinct =>
    rw [List.map_append, List.nodup_append]
    refine ⟨h.distinct, List.nodup_singleton _, fun a ha b hb heq => ?_⟩
    obtain ⟨old, hold, rfl⟩ := List.mem_map.mp ha
    obtain rfl := List.mem_singleton.mp hb
    exact hnone old hold (heq.trans hid)
  case planned => exact h.planned
  case clean =>
    intro row hrow hvalid leaf hleaf hinvalidated
    obtain hleaf | hleaf := List.mem_append.mp hleaf
    · obtain hrow | hrow := List.mem_append.mp hrow
      · exact h.clean row hrow hvalid leaf hleaf hinvalidated
      · rw [List.mem_singleton.mp hrow]
        exact hcovers leaf hleaf hinvalidated
    · rw [List.mem_singleton.mp hleaf, hattached] at hinvalidated
      cases hinvalidated

theorem addJobs (h : repo.Sound) {jobs : List SummaryJob} (hjobs : ∀ job ∈ jobs, job.Planned) :
    Repository.Sound { repo with jobs := repo.jobs ++ jobs } where
  distinct := h.distinct
  planned job hmem := by
    obtain hmem | hmem := List.mem_append.mp hmem
    · exact h.planned job hmem
    · exact hjobs job hmem
  clean := h.clean

end Repository.Sound

theorem apply_invalidated {reason : Invalidation} {artifact changed : SummaryArtifact}
    (h : reason.apply artifact = .ok changed) :
    changed.id = artifact.id ∧ changed.coveredLeafArtifactIds = artifact.coveredLeafArtifactIds ∧
      changed.validity.invalidated = true := by
  cases reason <;>
  · obtain ⟨_, _, h⟩ := except_bind_ok.mp h
    cases h
    exact ⟨rfl, rfl, rfl⟩

theorem sourceCompacted_keeps (artifact : SummaryArtifact) :
    artifact.sourceCompacted.id = artifact.id ∧
      artifact.sourceCompacted.coveredLeafArtifactIds = artifact.coveredLeafArtifactIds ∧
      artifact.sourceCompacted.validity.invalidated = artifact.validity.invalidated := by
  unfold SummaryArtifact.sourceCompacted
  split
  · next hattached =>
    rw [hattached]
    exact ⟨rfl, rfl, rfl⟩
  · exact ⟨rfl, rfl, rfl⟩

theorem resolveSelected_eligible {binding : MemorySessionBinding} {current : List SummaryArtifact}
    {selected : List SelectedMemory} {first : Bool} {bytes : Nat} {resolved : List SummaryArtifact}
    (h : resolveSelected binding current selected first bytes = .ok resolved) :
    ∀ memory ∈ selected, ∃ artifact ∈ current,
      artifact.id = memory.artifactId ∧ artifactIsEligible binding artifact = true := by
  induction selected generalizing first bytes resolved with
  | nil =>
    intro memory hmem
    cases hmem
  | cons head rest ih =>
    unfold resolveSelected at h
    split at h
    · cases h
    · next artifact hfind =>
      obtain ⟨_, _, h⟩ := except_bind_ok.mp h
      obtain ⟨_, hcurrent, h⟩ := except_bind_ok.mp h
      obtain ⟨_, _, h⟩ := except_bind_ok.mp h
      obtain ⟨others, hrest, _⟩ := except_bind_ok.mp h
      intro memory hmem
      obtain rfl | hmem := List.mem_cons.mp hmem
      · obtain ⟨-, -, -, heligible⟩ := ensure_ok.mp hcurrent
        have hid := List.find?_some hfind
        exact ⟨artifact, List.mem_of_find?_eq_some hfind, of_decide_eq_true hid, heligible⟩
      · exact ih hrest memory hmem

theorem exec_forgets (P : Prompts π) (repo : Repository) (call : Call π)
    (hcascades : Cascades repo call ((memoryServer P).exec call repo).1) (h : repo.Sound) :
    Forgets repo call ((memoryServer P).exec call repo).1 ∧ ((memoryServer P).exec call repo).2.Sound := by
  cases call with
  | planInitial caller messages =>
    simp only [memoryServer, changing]
    split
    · next changed hok =>
      obtain ⟨jobs, hjobs, hok⟩ := except_bind_ok.mp hok
      cases hok
      exact ⟨trivial, h.addJobs (planInitialSummaryJobs_planned hjobs)⟩
    · exact ⟨trivial, h⟩
  | planResummary caller ids =>
    simp only [memoryServer, changing]
    split
    · next changed hok =>
      obtain ⟨job, hjob, hok⟩ := except_bind_ok.mp hok
      cases hok
      refine ⟨trivial, h.addJobs fun other hmem => ?_⟩
      obtain rfl := List.mem_singleton.mp hmem
      exact planResummaryJob_planned hjob
    · exact ⟨trivial, h⟩
  | complete caller index current resolvedPrompt mode rawOutput id =>
    simp only [memoryServer, changing]
    split
    · next job hjob hfresh =>
      split
      · next changed hok =>
        obtain ⟨artifact, hartifact, hok⟩ := except_bind_ok.mp hok
        cases hok
        exact ⟨trivial, h.complete (List.mem_of_getElem? hjob) hfresh hartifact⟩
      · exact ⟨trivial, h⟩
    · exact ⟨trivial, h⟩
  | invalidate reason id =>
    simp only [memoryServer, changing]
    split
    · next artifact hfind =>
      obtain ⟨hmem, hid⟩ := Repository.Sound.mem_of_find hfind
      split
      · next changed hok =>
        obtain ⟨changed, happly, hok⟩ := except_bind_ok.mp hok
        cases hok
        obtain ⟨hchangedId, hcovered, hinvalidated⟩ := apply_invalidated happly
        refine ⟨trivial, h.replace hmem hchangedId hcovered (fun _ => hinvalidated) ?_⟩
        intro _ _ other hother hne hcovers
        exact hcascades other hother (hid ▸ hne) (decide_eq_true (hid ▸ hcovers))
      · exact ⟨trivial, h⟩
    · exact ⟨trivial, h⟩
  | compact id =>
    simp only [memoryServer]
    split
    · next artifact hfind =>
      obtain ⟨hmem, hid⟩ := Repository.Sound.mem_of_find hfind
      obtain ⟨hsameId, hcovered, hvalidity⟩ := sourceCompacted_keeps artifact
      refine ⟨trivial, h.replace hmem hsameId hcovered (fun hold => hvalidity.trans hold) ?_⟩
      intro hold hnew
      rw [hvalidity, hold] at hnew
      cases hnew
    · exact ⟨trivial, h⟩
  | select caller budgetInput query inputs =>
    simp only [memoryServer, reading]
    split
    · next selection hok =>
      obtain ⟨candidates, hcandidates, hok⟩ := except_bind_ok.mp hok
      have hmem := Repository.Sound.mem_of_candidates hcandidates
      refine ⟨h.forgets caller.binding fun memory hmemory => ?_, h⟩
      obtain ⟨candidate, hcandidate, hmemory, heligible, -⟩ :=
        (SelectionSpec.of_selectMemories hok).eligible memory hmemory
      exact ⟨candidate.artifact, hmem candidate hcandidate,
        (congrArg SelectedMemory.artifactId hmemory).symm, heligible⟩
    · exact ⟨trivial, h⟩
  | materialize caller selection budgetInput query current =>
    simp only [memoryServer, reading]
    split
    · next text hok =>
      obtain ⟨_, _, hok⟩ := except_bind_ok.mp hok
      obtain ⟨_, _, hok⟩ := except_bind_ok.mp hok
      obtain ⟨_, _, hok⟩ := except_bind_ok.mp hok
      obtain ⟨resolved, hresolved, _⟩ := except_bind_ok.mp hok
      refine ⟨h.forgets caller.binding fun memory hmemory => ?_, h⟩
      obtain ⟨artifact, hartifact, heligible⟩ := resolveSelected_eligible hresolved memory hmemory
      exact ⟨artifact, Repository.Sound.mem_of_lookup hartifact, heligible⟩
    · exact ⟨trivial, h⟩

/-- When artifacts are invalidated after everything that covers them, no call of any run
brings the words of an invalidated leaf back. -/
theorem no_resurfacing (P : Prompts π) (calls : List (Call π))
    (h : (memoryServer P).AllSteps Cascades calls ⟨[], []⟩) :
    (memoryServer P).AllSteps Forgets calls ⟨[], []⟩ :=
  h.imp_of_invariant (exec_forgets P)
    ⟨List.nodup_nil, fun _ hmem => (nomatch hmem), fun _ hmem => (nomatch hmem)⟩

/-! A leaf is summarised and then invalidated, with and without its summary. -/

def rollingCaller : Caller := ⟨rollingBinding, "chat", "card"⟩

def rollingMessages : List MemorySourceMessage :=
  [⟨⟨"message-1", by decide⟩, "chat", 1, .user, "My name is Ada.", revisionOne_ne_zero, by decide,
    by decide, by decide⟩]

/-- A leaf is made from the message, and a summary from the leaf. -/
def summarize : List (Call Unit) :=
  [.planInitial rollingCaller rollingMessages,
    .complete rollingCaller 0 (.messages rollingMessages) () .initialGeneration "The user is Ada." leafOne,
    .planResummary rollingCaller [leafOne],
    .complete rollingCaller 1 (.artifacts [leafOne]) () .initialGeneration "They met Ada." summaryOne]

def selectSummary : Call Unit :=
  .select rollingCaller rollingInput .rollingSummary [⟨leafOne, 100, none⟩, ⟨summaryOne, 100, none⟩]

def summarySelection : MemorySelection :=
  { rollingSelection with
    selected := [⟨summaryOne, 1, 1, 1, .consolidated, 100⟩]
    reservedPromptTokens := 100 }

def materializeSummary : Call Unit :=
  .materialize rollingCaller summarySelection rollingInput .rollingSummary [leafOne, summaryOne]

/-- The leaf is deleted, and its words are still put into the prompt. -/
theorem deleted_leaf_resurfaces :
    let calls := summarize ++ [.invalidate .deletion leafOne, selectSummary, materializeSummary]
    ((memoryServer plainPrompts).run calls ⟨[], []⟩).1.map (·.2) =
        [.done, .done, .done, .done, .done, .selected summarySelection,
          .materialized "They met Ada."] ∧
      Resurfaces ((memoryServer plainPrompts).run calls ⟨[], []⟩).2 summarySelection.selected ∧
      ¬ (memoryServer plainPrompts).AllSteps Forgets calls ⟨[], []⟩ := by
  decide

theorem no_resurfacing_summary :
    (memoryServer plainPrompts).AllSteps Cascades (summarize ++ [.invalidate .deletion summaryOne,
        .invalidate .deletion leafOne, selectSummary]) ⟨[], []⟩ ∧
      (memoryServer plainPrompts).AllSteps Forgets (summarize ++ [.invalidate .deletion summaryOne,
        .invalidate .deletion leafOne, selectSummary]) ⟨[], []⟩ := by
  have h : (memoryServer plainPrompts).AllSteps Cascades (summarize ++
      [.invalidate .deletion summaryOne, .invalidate .deletion leafOne, selectSummary]) ⟨[], []⟩ := by
    decide
  exact ⟨h, no_resurfacing plainPrompts _ h⟩

end Lorepia.Memory
