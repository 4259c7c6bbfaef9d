import Lorepia.Tools.Schema
import Lorepia.Providers.Accepted

/-!
# Normalised conversations (`compile.rs`:275–299, 1239–1265)

With the policy `merge_consecutive` the loop of `normalize_conversation` makes one message of
each run of messages of one role. `Grouped` is what holds of the messages normalised so far; the
loop keeps it (`Grouped.push`, `Grouped.extend`).

Gemini and Vertex only take roles that alternate. With one policy the normalised messages do, and
with the other `validate_role_contract` has checked the given ones.
-/

namespace Lorepia.Providers

open Tools (Value FloatText)

/-- A run of messages of one role, and the message that stands for it. -/
structure Joins (run : List ChatMessage) (message : ChatMessage) : Prop where
  nonempty : run ≠ []
  role : ∀ m ∈ run, m.role = message.role
  content : message.content = "\n\n".intercalate (run.map ChatMessage.content)

def Alternating (messages : List ChatMessage) : Prop :=
  messages.IsChain fun message next => message.role ≠ next.role

/-- The messages in runs that cannot be longer, each of them one normalised message. -/
structure Grouped (messages normalized : List ChatMessage) : Prop where
  runs : ∃ runs, runs.flatten = messages ∧ List.Forall₂ Joins runs normalized
  alternating : Alternating normalized

namespace Grouped

variable {messages normalized front : List ChatMessage} {message previous : ChatMessage}

theorem nil : Grouped [] [] := ⟨⟨[], rfl, .nil⟩, .nil⟩

theorem push (h : Grouped messages normalized)
    (hrole : ∀ previous ∈ normalized.getLast?, previous.role ≠ message.role) :
    Grouped (messages ++ [message]) (normalized ++ [message]) := by
  obtain ⟨runs, rfl, hruns⟩ := h.runs
  have hsingle : Joins [message] message := ⟨by simp, by simp, by simp⟩
  refine ⟨⟨runs ++ [[message]], by simp, List.rel_append hruns (.cons hsingle .nil)⟩, ?_⟩
  refine List.isChain_append.mpr ⟨h.alternating, List.isChain_singleton _, fun m hm m' hm' => ?_⟩
  obtain rfl : message = m' := by simpa using hm'
  exact hrole m hm

theorem last_run {runs : List (List ChatMessage)} (h : List.Forall₂ Joins runs (front ++ [previous])) :
    ∃ before run, runs = before ++ [run] ∧ List.Forall₂ Joins before front ∧ Joins run previous := by
  have hdrop := List.forall₂_drop_append _ _ _ h
  obtain ⟨run, rest, hjoins, hrest, hdrop⟩ := List.forall₂_cons_right_iff.mp hdrop
  obtain rfl := List.forall₂_nil_right_iff.mp hrest
  refine ⟨_, run, ?_, List.forall₂_take_append _ _ _ h, hjoins⟩
  rw [← hdrop, List.take_append_drop]

theorem extend (h : Grouped messages (front ++ [previous])) (hrole : previous.role = message.role) :
    Grouped (messages ++ [message])
      (front ++ [{ previous with content := previous.content ++ "\n\n" ++ message.content }]) := by
  obtain ⟨runs, rfl, hruns⟩ := h.runs
  obtain ⟨before, run, rfl, hbefore, hjoins⟩ := last_run hruns
  have hlonger : Joins (run ++ [message])
      { previous with content := previous.content ++ "\n\n" ++ message.content } := by
    refine ⟨by simp, fun m hm => ?_, ?_⟩
    · rcases List.mem_append.mp hm with hm | hm
      · exact hjoins.role m hm
      · rw [List.mem_singleton.mp hm]
        exact hrole.symm
    · rw [List.map_append, String.intercalate_append_of_ne_nil (by simpa using hjoins.nonempty) (by simp)]
      simp [hjoins.content]
  refine ⟨⟨before ++ [run ++ [message]], by simp, List.rel_append hbefore (.cons hlonger .nil)⟩, ?_⟩
  -- the longer message has the role of the one it replaces
  have halternating := h.alternating
  rw [Alternating, List.isChain_append] at halternating ⊢
  refine ⟨halternating.1, List.isChain_singleton _, fun m hm m' hm' => ?_⟩
  obtain rfl : _ = m' := by simpa using hm'
  exact halternating.2.2 m hm previous (by simp)

end Grouped

theorem mergeMessages_grouped {messages done normalized : List ChatMessage} (h : Grouped done normalized) :
    Grouped (done ++ messages) (mergeMessages .mergeConsecutive messages normalized) := by
  induction messages generalizing done normalized with
  | nil => simpa [mergeMessages] using h
  | cons message rest ih =>
    have hassoc : done ++ message :: rest = (done ++ [message]) ++ rest := by simp
    rw [hassoc, mergeMessages]
    rcases List.eq_nil_or_concat' normalized with rfl | ⟨front, previous, rfl⟩
    · exact ih (h.push (by simp))
    · simp only [List.getLast?_append, List.getLast?_singleton, Option.some_or, List.dropLast_concat, true_and]
      split
      · next hrole => exact ih (h.extend hrole)
      · next hrole => exact ih (h.push (by simpa using hrole))

theorem mergeMessages_of_alternating {policy : RolePolicy} {messages normalized : List ChatMessage}
    (h : Alternating (normalized ++ messages)) :
    mergeMessages policy messages normalized = normalized ++ messages := by
  induction messages generalizing normalized with
  | nil => simp [mergeMessages]
  | cons message rest ih =>
    have hassoc : normalized ++ message :: rest = (normalized ++ [message]) ++ rest := by simp
    have hnext := ih (by rwa [hassoc] at h)
    rw [mergeMessages]
    rcases List.eq_nil_or_concat' normalized with rfl | ⟨front, previous, rfl⟩
    · simpa using hnext
    · have hrole : previous.role ≠ message.role :=
        (List.isChain_append.mp h).2.2 previous (by simp) message (by simp)
      simp only [List.getLast?_append, List.getLast?_singleton, Option.some_or, hrole, and_false, if_false]
      rw [hnext, hassoc]

theorem mergeMessages_preserve (messages normalized : List ChatMessage) :
    mergeMessages .preserve messages normalized = normalized ++ messages := by
  induction messages generalizing normalized with
  | nil => simp [mergeMessages]
  | cons message rest ih =>
    rw [mergeMessages]
    cases normalized.getLast? with
    | none => simp [ih]
    | some previous => simp [ih]

def NormalizedConversation.asMessages (conversation : NormalizedConversation) : List ChatMessage :=
  conversation.system.toList.map (⟨.system, ·⟩) ++ conversation.messages

theorem normalizeConversation_system (messages : List ChatMessage) (policy : RolePolicy) :
    (normalizeConversation messages policy).system =
      let system := "\n\n".intercalate ((messages.filter (·.role = .system)).map ChatMessage.content)
      if system = "" then none else some system := rfl

theorem asMessages_filter_system (conversation : NormalizedConversation) :
    ((conversation.asMessages.filter (·.role = .system)).map ChatMessage.content) =
      conversation.system.toList := by
  have hmessages : conversation.messages.filter (·.role = .system) = [] :=
    List.filter_eq_nil_iff.mpr fun m hm => by simpa using conversation.conversational m hm
  rw [NormalizedConversation.asMessages, List.filter_append, hmessages, List.append_nil]
  cases conversation.system <;> rfl

theorem asMessages_filter_conversation (conversation : NormalizedConversation) :
    conversation.asMessages.filter (·.role ≠ .system) = conversation.messages := by
  have hmessages : conversation.messages.filter (·.role ≠ .system) = conversation.messages :=
    List.filter_eq_self.mpr fun m hm => by simpa using conversation.conversational m hm
  rw [NormalizedConversation.asMessages, List.filter_append, hmessages]
  cases conversation.system <;> rfl

theorem normalizeConversation_grouped (messages : List ChatMessage) :
    Grouped (messages.filter (·.role ≠ .system))
      (normalizeConversation messages .mergeConsecutive).messages :=
  mergeMessages_grouped Grouped.nil

theorem normalizeConversation_again (messages : List ChatMessage) :
    (normalizeConversation (normalizeConversation messages .mergeConsecutive).asMessages
        .mergeConsecutive).system = (normalizeConversation messages .mergeConsecutive).system ∧
      (normalizeConversation (normalizeConversation messages .mergeConsecutive).asMessages
        .mergeConsecutive).messages = (normalizeConversation messages .mergeConsecutive).messages := by
  have halternating := (normalizeConversation_grouped messages).alternating
  constructor
  · rw [normalizeConversation_system, asMessages_filter_system, normalizeConversation_system]
    simp only
    split <;> simp_all
  · show mergeMessages _ (List.filter _ _) [] = _
    rw [asMessages_filter_conversation]
    exact mergeMessages_of_alternating halternating

/-! ## Gemini and Vertex -/

theorem alternates_iff {messages : List ChatMessage} {previous : Option MessageRole} :
    alternates (messages.map ChatMessage.role) previous = true ↔
      (∀ m ∈ messages.head?, previous ≠ some m.role) ∧ Alternating messages := by
  induction messages generalizing previous with
  | nil => simp [alternates, Alternating]
  | cons message rest ih =>
    have hchain : Alternating (message :: rest) ↔
        (∀ m ∈ rest.head?, message.role ≠ m.role) ∧ Alternating rest := List.isChain_cons
    rw [List.map_cons, alternates, Bool.and_eq_true, ih, decide_eq_true_eq, hchain]
    simp

theorem google_alternating [FloatText] {request : ProviderRequest}
    (hprovider : request.provider = .googleGemini ∨ request.provider = .googleVertexAi)
    (hvalid : validateRequest request = .ok ()) :
    Alternating (normalizeConversation request.messages request.generation.rolePolicy).messages := by
  obtain ⟨_, _, _, _, _, hroles, _⟩ := validateRequest_ok.mp hvalid
  cases hpolicy : request.generation.rolePolicy with
  | mergeConsecutive => exact (normalizeConversation_grouped request.messages).alternating
  | preserve =>
    have hgoogle : ¬ ((request.provider ≠ .googleGemini ∧ request.provider ≠ .googleVertexAi) ∨
        request.generation.rolePolicy = .mergeConsecutive) := by
      rw [hpolicy]
      tauto
    rw [validateRoleContract, if_neg hgoogle, ensure_ok, List.filter_map] at hroles
    show Alternating (mergeMessages .preserve _ [])
    rw [mergeMessages_preserve]
    exact (alternates_iff.mp hroles).2

def contentRole (content : Value) : Option String :=
  (content.asObject.bind (·.lookup "role")).bind Value.asStr

theorem contentRole_googleMessage (message : ChatMessage) :
    contentRole (.object [("role", .string (roleText "model" message.role)),
      ("parts", .array [.object [("text", .string message.content)]])]) =
      some (roleText "model" message.role) := rfl

theorem roleText_model_injective : Function.Injective (roleText "model") := by
  intro role role' h
  cases role <;> cases role' <;> first | rfl | exact absurd h (by decide)

theorem googleMessages_alternating {messages : List ChatMessage} (h : Alternating messages)
    (hconversational : ∀ message ∈ messages, message.role ≠ .system) :
    (∀ content ∈ googleMessages messages, contentRole content = some "user" ∨
        contentRole content = some "model") ∧
      (googleMessages messages).IsChain fun content next => contentRole content ≠ contentRole next := by
  constructor
  · intro content hcontent
    obtain ⟨message, hmem, rfl⟩ := List.mem_map.mp hcontent
    rw [contentRole_googleMessage]
    have hrole := hconversational message hmem
    cases hm : message.role with
    | system => exact absurd hm hrole
    | user => exact .inl rfl
    | assistant => exact .inr rfl
  · refine (List.isChain_map _).mpr (h.imp fun message next hne hsame => hne ?_)
    rw [contentRole_googleMessage, contentRole_googleMessage] at hsame
    exact roleText_model_injective (Option.some.inj hsame)

theorem Object.lookup_insert_ne {body : Object} {key member : String} (h : member ≠ key) (value : Value) :
    (body.insert key value).lookup member = body.lookup member := by
  have hbeq : (member == key) = false := beq_false_of_ne h
  induction body with
  | nil => simp [Object.insert, List.lookup, hbeq]
  | cons entry rest ih =>
    obtain ⟨k, v⟩ := entry
    rw [Object.insert]
    split
    · next hk =>
      subst hk
      simp [List.lookup, hbeq]
    · simp only [List.lookup, ih]

theorem Object.lookup_insertSome_ne {α : Type} {body : Object} {key member : String} (h : member ≠ key)
    (value : Option α) (f : α → Value) : (body.insertSome key value f).lookup member = body.lookup member := by
  cases value with
  | none => rfl
  | some a => exact Object.lookup_insert_ne h (f a)

theorem compileGoogleBody_contents (request : ProviderRequest) (conversation : NormalizedConversation)
    (thinking : Option GoogleThinking) (safetySettings : List GoogleSafetySetting)
    (cachedContent serviceTier : Option String) (vertex : Bool) :
    (compileGoogleBody request conversation thinking safetySettings cachedContent serviceTier vertex).lookup
      "contents" = some (.array (googleMessages conversation.messages)) := by
  simp only [compileGoogleBody, apply_ite (List.lookup "contents"), Object.lookup_insert_ne,
    Object.lookup_insertSome_ne, ne_eq, String.reduceEq, not_false_eq_true, ite_self]
  rfl


theorem compileTyped_contents {request : ProviderRequest} {conversation : NormalizedConversation}
    {compiled : CompiledProviderRequest}
    (hprovider : request.providerOptions.providerId = .googleGemini ∨
      request.providerOptions.providerId = .googleVertexAi)
    (h : compileTyped request conversation = .ok compiled) :
    compiled.body.lookup "contents" = some (.array (googleMessages conversation.messages)) := by
  unfold compileTyped at h
  cases hoptions : request.providerOptions with
  | googleGemini options =>
    rw [hoptions] at h
    cases h
    exact compileGoogleBody_contents request conversation options.thinking options.safetySettings
      options.cachedContent (options.serviceTier.map GoogleServiceTier.asStr) false
  | googleVertexAi options =>
    rw [hoptions] at h
    cases h
    exact compileGoogleBody_contents request conversation options.thinking options.safetySettings
      options.cachedContent none true
  | openAi | anthropic | deepSeek | ollamaCloud =>
    rw [hoptions] at hprovider
    rcases hprovider with hprovider | hprovider <;> cases hprovider

/-- With `merge_consecutive` the normalised messages are the runs of the conversation, and
normalising again changes nothing. What Gemini or Vertex accepts is compiled to contents of the
user and of the model in turn. -/
theorem conversation_normalized [FloatText] :
    (∀ messages : List ChatMessage,
      Grouped (messages.filter (·.role ≠ .system))
          (normalizeConversation messages .mergeConsecutive).messages ∧
        ((normalizeConversation messages .mergeConsecutive).system =
          let system := "\n\n".intercalate ((messages.filter (·.role = .system)).map ChatMessage.content)
          if system = "" then none else some system) ∧
        (normalizeConversation (normalizeConversation messages .mergeConsecutive).asMessages
          .mergeConsecutive).system = (normalizeConversation messages .mergeConsecutive).system ∧
        (normalizeConversation (normalizeConversation messages .mergeConsecutive).asMessages
          .mergeConsecutive).messages = (normalizeConversation messages .mergeConsecutive).messages) ∧
    ∀ request compiled, compileRequest request = .ok compiled →
      request.provider = .googleGemini ∨ request.provider = .googleVertexAi →
      ∃ contents, compiled.body.lookup "contents" = some (.array contents) ∧
        (∀ content ∈ contents, contentRole content = some "user" ∨ contentRole content = some "model") ∧
        contents.IsChain fun content next => contentRole content ≠ contentRole next := by
  refine ⟨fun messages => ⟨normalizeConversation_grouped messages, normalizeConversation_system messages _,
    normalizeConversation_again messages⟩, fun request compiled hcompiled hprovider => ?_⟩
  obtain ⟨hvalid, typed, body, htyped, hbody, rfl⟩ := compileRequest_ok.mp hcompiled
  obtain ⟨rfl, -⟩ := mergeAdditionalParameters_ok hbody
  have hoptions := (validateRequest_ok.mp hvalid).1
  have hcontents := compileTyped_contents (hoptions ▸ hprovider) htyped
  refine ⟨_, by rw [List.lookup_append, hcontents]; rfl, ?_⟩
  exact googleMessages_alternating (google_alternating hprovider hvalid)
    (normalizeConversation request.messages request.generation.rolePolicy).conversational

def twiceRequest : ProviderRequest where
  provider := .googleGemini
  modelId := "m"
  messages := [⟨.user, "one"⟩, ⟨.user, "two"⟩]
  generation := { rolePolicy := .mergeConsecutive }
  providerOptions := .googleGemini {}

theorem twiceRequest_valid : @validateRequest Tools.unitsText twiceRequest = .ok () := by
  decide

theorem conversation_normalized_twice : ∃ compiled contents,
    @compileRequest Tools.unitsText twiceRequest = .ok compiled ∧
      compiled.body.lookup "contents" = some (.array contents) ∧
      contents.IsChain fun content next => contentRole content ≠ contentRole next := by
  have hcompiled := (@compileRequest_ok Tools.unitsText twiceRequest _).mpr
    ⟨twiceRequest_valid, _, _, rfl, rfl, rfl⟩
  obtain ⟨contents, hcontents, _, hchain⟩ :=
    (@conversation_normalized Tools.unitsText).2 twiceRequest _ hcompiled (.inl rfl)
  exact ⟨_, contents, hcompiled, hcontents, hchain⟩

end Lorepia.Providers
