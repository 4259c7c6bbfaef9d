import Lorepia.Providers.Compile

/-!
# Accepted requests

What `validate_request` and `compile_request` have checked when they accept (`validateRequest_ok`,
`compileRequest_ok`), and what additional parameters can do to a request.
-/

namespace Lorepia.Providers

open Tools (Value FloatText)

theorem check_bind_ok {α : Type} {check : Result Unit} {next : Unit → Result α} {a : α} :
    (check >>= next) = .ok a ↔ check = .ok () ∧ next () = .ok a := by
  rw [except_bind_ok]
  exact ⟨fun ⟨_, hcheck, hnext⟩ => ⟨hcheck, hnext⟩, fun ⟨hcheck, hnext⟩ => ⟨(), hcheck, hnext⟩⟩

section
variable [FloatText] {request : ProviderRequest} {compiled : CompiledProviderRequest}

/-- The checks of `validate_request`. -/
theorem validateRequest_ok : validateRequest request = .ok () ↔
    request.provider = request.providerOptions.providerId ∧
    validateTextField "modelId" request.modelId maxModelIdBytes = .ok () ∧
    (request.provider = .googleGemini ∨ request.provider = .googleVertexAi →
      validatePathSegment "modelId" request.modelId false = .ok ()) ∧
    validateMessages request.messages = .ok () ∧
    validateGeneration request.provider request.generation = .ok () ∧
    validateRoleContract request = .ok () ∧
    validateProviderOptions request = .ok () ∧
    checkSome validateTokenizerOverride request.tokenizerOverride = .ok () ∧
    validateAdditionalParameters request.additionalParameters = .ok () := by
  unfold validateRequest
  by_cases hgoogle : request.provider = .googleGemini ∨ request.provider = .googleVertexAi
  · simp only [check_bind_ok, ensure_ok, hgoogle, if_true, true_imp_iff]
  · simp only [check_bind_ok, ensure_ok, hgoogle, if_false, false_imp_iff, true_and]

theorem compileRequest_ok : compileRequest request = .ok compiled ↔
    validateRequest request = .ok () ∧ ∃ typed body,
      compileTyped request (normalizeConversation request.messages request.generation.rolePolicy) =
        .ok typed ∧
      mergeAdditionalParameters request.additionalParameters typed.body = .ok body ∧
      compiled = { typed with body, tokenizerOverride := request.tokenizerOverride } := by
  unfold compileRequest
  rw [check_bind_ok]
  simp only [except_bind_ok, Except.ok.injEq]
  constructor
  · rintro ⟨hvalid, typed, htyped, body, hbody, rfl⟩
    exact ⟨hvalid, typed, body, htyped, hbody, rfl⟩
  · rintro ⟨hvalid, typed, body, htyped, hbody, rfl⟩
    exact ⟨hvalid, typed, htyped, body, hbody, rfl⟩

end

/-! ## Additional parameters -/

theorem Object.insert_fresh {body : Object} {key : String} (h : key ∉ body.map Prod.fst) (value : Value) :
    body.insert key value = body ++ [(key, value)] := by
  induction body with
  | nil => rfl
  | cons entry rest ih =>
    obtain ⟨k, v⟩ := entry
    rw [List.map_cons, List.mem_cons, not_or] at h
    rw [Object.insert, if_neg (Ne.symm h.1), ih h.2]
    rfl

theorem mergeAdditionalParameters_ok {parameters : List (String × Value)} {body merged : Object}
    (h : mergeAdditionalParameters parameters body = .ok merged) :
    merged = body ++ parameters ∧ ∀ key ∈ parameters.map Prod.fst, key ∉ body.map Prod.fst := by
  induction parameters generalizing body with
  | nil =>
    cases h
    simp
  | cons parameter rest ih =>
    obtain ⟨key, value⟩ := parameter
    obtain ⟨_, hfresh, h⟩ := except_bind_ok.mp h
    replace hfresh := ensure_ok.mp hfresh
    rw [Object.insert_fresh hfresh] at h
    obtain ⟨rfl, hrest⟩ := ih h
    refine ⟨by simp, fun k hk => ?_⟩
    rcases List.mem_cons.mp hk with rfl | hk
    · exact hfresh
    · have hlater := hrest k hk
      rw [List.map_append, List.mem_append, not_or] at hlater
      exact hlater.1

/-- The keys of objects in a value, at any depth. -/
inductive HasKey : Value → String → Prop
  | here {entries : List (String × Value)} {key : String} {value : Value} :
    (key, value) ∈ entries → HasKey (.object entries) key
  | member {entries : List (String × Value)} {name key : String} {value : Value} :
    (name, value) ∈ entries → HasKey value key → HasKey (.object entries) key
  | item {items : List Value} {key : String} {value : Value} :
    value ∈ items → HasKey value key → HasKey (.array items) key

theorem findSensitiveEntry_none {entries : List (String × Value)} (h : findSensitiveEntry entries = none) :
    ∀ entry ∈ entries, isSensitiveExtraParameter entry.1 = false ∧ findSensitiveNestedKey entry.2 = none := by
  induction entries with
  | nil => simp
  | cons entry rest ih =>
    obtain ⟨key, value⟩ := entry
    rw [findSensitiveEntry] at h
    split at h
    · cases h
    · next hkey =>
      rw [Option.or_eq_none_iff] at h
      exact List.forall_mem_cons.mpr ⟨⟨Bool.eq_false_iff.mpr hkey, h.1⟩, ih h.2⟩

theorem findSensitiveItem_none {items : List Value} (h : findSensitiveItem items = none) :
    ∀ value ∈ items, findSensitiveNestedKey value = none := by
  induction items with
  | nil => simp
  | cons value rest ih =>
    rw [findSensitiveItem, Option.or_eq_none_iff] at h
    exact List.forall_mem_cons.mpr ⟨h.1, ih h.2⟩

theorem not_sensitive_of_hasKey {value : Value} {key : String} (hkey : HasKey value key)
    (h : findSensitiveNestedKey value = none) : isSensitiveExtraParameter key = false := by
  induction hkey with
  | here hmem => exact (findSensitiveEntry_none (by rwa [findSensitiveNestedKey] at h) _ hmem).1
  | member hmem _ ih => exact ih (findSensitiveEntry_none (by rwa [findSensitiveNestedKey] at h) _ hmem).2
  | item hmem _ ih => exact ih (findSensitiveItem_none (by rwa [findSensitiveNestedKey] at h) _ hmem)

theorem isSensitiveExtraParameter_false {key : String} (h : isSensitiveExtraParameter key = false) :
    ∀ part ∈ sensitiveParts, ¬ part.toList <:+: (canonicalExtraParameter key).toList := by
  intro part hpart hinfix
  rw [isSensitiveExtraParameter, List.any_eq_false] at h
  exact h part hpart (decide_eq_true hinfix)

theorem validateParameter_ok {key : String} {value : Value} (h : validateParameter key value = .ok ()) :
    isSensitiveExtraParameter key = false ∧ findSensitiveNestedKey value = none := by
  obtain ⟨_, _, h⟩ := except_bind_ok.mp h
  obtain ⟨_, hreserved, h⟩ := except_bind_ok.mp h
  rw [ensure_ok, isReservedExtraParameter, Bool.or_eq_false_iff] at hreserved
  refine ⟨hreserved.2, ?_⟩
  simp only at h
  split at h
  · cases h
  · assumption

theorem lookup_eq_none_iff_names {body : Object} {member : String} :
    body.lookup member = none ↔ member ∉ body.map Prod.fst := by
  rw [List.lookup_eq_none_iff]
  constructor
  · intro h hmem
    obtain ⟨entry, hentry, rfl⟩ := List.mem_map.mp hmem
    simpa using h entry hentry
  · intro h entry hentry
    have hne : member ≠ entry.1 := fun heq => h (heq ▸ List.mem_map_of_mem hentry)
    simpa using hne

/-- Additional parameters change nothing but the body, and there they are put beside the typed
members. No key in them, at any depth, has a forbidden part. -/
theorem additional_parameters_isolated [FloatText] (request : ProviderRequest)
    (compiled : CompiledProviderRequest) (h : compileRequest request = .ok compiled) :
    ∃ typed, compileRequest { request with additionalParameters := [] } = .ok typed ∧
      compiled = { typed with body := compiled.body } ∧
      (∀ member ∈ typed.body.map Prod.fst, compiled.body.lookup member = typed.body.lookup member) ∧
      (∀ member value, compiled.body.lookup member = some value ∧ member ∉ typed.body.map Prod.fst ↔
        request.additionalParameters.lookup member = some value) ∧
      ∀ parameter ∈ request.additionalParameters, ∀ key,
        key = parameter.1 ∨ HasKey parameter.2 key →
          ∀ part ∈ sensitiveParts, ¬ part.toList <:+: (canonicalExtraParameter key).toList := by
  obtain ⟨hvalid, typed, body, htyped, hbody, rfl⟩ := compileRequest_ok.mp h
  obtain ⟨rfl, hfresh⟩ := mergeAdditionalParameters_ok hbody
  rw [validateRequest_ok] at hvalid
  obtain ⟨hprovider, hmodel, hsegment, hmessages, hgeneration, hroles, hoptions, htokenizer, hparameters⟩ :=
    hvalid
  -- every other check reads the same fields
  have hnone : validateAdditionalParameters [] = .ok () := rfl
  have hwithout : validateRequest { request with additionalParameters := [] } = .ok () :=
    validateRequest_ok.mpr
      ⟨hprovider, hmodel, hsegment, hmessages, hgeneration, hroles, hoptions, htokenizer, hnone⟩
  refine ⟨{ typed with tokenizerOverride := request.tokenizerOverride },
    compileRequest_ok.mpr ⟨hwithout, typed, typed.body, htyped, rfl, rfl⟩, rfl, ?_, ?_, ?_⟩
  · intro member hmem
    cases hlookup : typed.body.lookup member with
    | none => exact absurd hmem (lookup_eq_none_iff_names.mp hlookup)
    | some value => rw [List.lookup_append, hlookup, Option.some_or]
  · intro member value
    rw [List.lookup_append, ← lookup_eq_none_iff_names]
    constructor
    · rintro ⟨hvalue, hnone⟩
      rwa [hnone, Option.none_or] at hvalue
    · intro hvalue
      have hmem : member ∈ request.additionalParameters.map Prod.fst := by
        by_contra habsent
        rw [lookup_eq_none_iff_names.mpr habsent] at hvalue
        cases hvalue
      have hnone := lookup_eq_none_iff_names.mpr (hfresh member hmem)
      exact ⟨by rw [hnone, Option.none_or, hvalue], hnone⟩
  · intro parameter hparameter key hkey
    obtain ⟨_, _, hparameters⟩ := except_bind_ok.mp hparameters
    obtain ⟨_, _, hparameters⟩ := except_bind_ok.mp hparameters
    obtain ⟨hname, hnested⟩ := validateParameter_ok (validateEach_ok hparameters parameter hparameter)
    rcases hkey with rfl | hkey
    · exact isSensitiveExtraParameter_false hname
    · exact isSensitiveExtraParameter_false (not_sensitive_of_hasKey hkey hnested)

def parameterRequest : ProviderRequest :=
  { thinkRequest with additionalParameters := [("logprobs", .object [("top", .bool true)])] }

theorem parameterRequest_valid : @validateRequest Tools.unitsText parameterRequest = .ok () := by
  decide

theorem additional_parameters_isolated_sample :
    ∃ typed, @compileRequest Tools.unitsText { parameterRequest with additionalParameters := [] } = .ok typed ∧
      typed.body.lookup "logprobs" = none := by
  have hcompiled := (@compileRequest_ok Tools.unitsText parameterRequest _).mpr
    ⟨parameterRequest_valid, _, _, rfl, rfl, rfl⟩
  obtain ⟨typed, htyped, _, _, hadded, _⟩ :=
    @additional_parameters_isolated Tools.unitsText parameterRequest _ hcompiled
  exact ⟨typed, htyped, lookup_eq_none_iff_names.mpr
    ((hadded "logprobs" (.object [("top", .bool true)])).mpr rfl).2⟩

end Lorepia.Providers
