import Lorepia.Lorebook.Naive

/-!
# What a selection costs

Which regular expressions of an entry are evaluated does not depend on the limits, so its
evaluation has a price: how many there are, how many bytes they scan and how often they match.
A selection succeeds when the prices of all entries together are within the limits
(`naiveFind_ok`), and finds the entries that match (`LoreEntry.answer`).
-/

namespace Lorepia.Lorebook

variable {ρ : Type}

abbrev Price := Nat × Nat × Nat

namespace EvaluationLimits

def Within (limits : EvaluationLimits) : Prop :=
  limits.evaluations ≤ limits.maxEvaluations ∧ limits.scanBytes ≤ limits.maxScanBytes ∧
    limits.matchCount ≤ limits.maxMatches

def charge (price : Price) (limits : EvaluationLimits) : EvaluationLimits :=
  { limits with
    evaluations := limits.evaluations + price.1
    scanBytes := limits.scanBytes + price.2.1
    matchCount := limits.matchCount + price.2.2 }

def meter : Meter EvaluationLimits Price where
  Within := Within
  charge := charge
  charge_zero _ := rfl
  charge_add c d limits := by
    simp only [charge, Prod.fst_add, Prod.snd_add, Nat.add_assoc]
  within_of_charge c limits h := by
    simp only [Within, charge] at h ⊢
    omega

theorem within_new (request : SelectionRequest) : (new request).Within :=
  ⟨Nat.zero_le _, Nat.zero_le _, Nat.zero_le _⟩

theorem countMatches_ok {n : Nat} {limits limits' : EvaluationLimits}
    (h : limits.matchCount ≤ limits.maxMatches) :
    countMatches n limits = .ok limits' ↔
      limits.matchCount + n ≤ limits.maxMatches ∧
        { limits with matchCount := limits.matchCount + n } = limits' := by
  induction n generalizing limits with
  | zero =>
    rw [countMatches, Except.ok.injEq]
    exact (and_iff_right h).symm
  | succ n ih =>
    rw [countMatches]
    by_cases hfull : limits.maxMatches < limits.matchCount + 1
    · rw [if_pos hfull]
      constructor
      · intro hok
        cases hok
      · rintro ⟨hroom, -⟩
        omega
    · rw [if_neg hfull, ih (Nat.not_lt.mp hfull)]
      simp only [Nat.add_assoc, Nat.add_comm 1 n]

theorem prices_evaluate (found : Nat) (input : String) :
    meter.Prices (evaluate · found input) (decide (found ≠ 0)) (1, input.utf8ByteSize, found) := by
  intro limits hlimits r
  have hroom : (limits.charge (1, input.utf8ByteSize, 0)).matchCount ≤ limits.maxMatches := hlimits.2.2
  constructor
  · intro hok
    obtain ⟨_, hevaluations, hok⟩ := except_bind_ok.mp hok
    obtain ⟨_, hscan, hok⟩ := except_bind_ok.mp hok
    obtain ⟨_, hcount, hok⟩ := except_bind_ok.mp hok
    obtain ⟨hmatches, rfl⟩ := (countMatches_ok hroom).mp hcount
    exact ⟨⟨ensure_ok.mp hevaluations, ensure_ok.mp hscan, hmatches⟩, Except.ok.inj hok⟩
  · rintro ⟨⟨hevaluations, hscan, hmatches⟩, rfl⟩
    refine except_bind_ok.mpr ⟨⟨⟩, ensure_ok.mpr hevaluations, ?_⟩
    refine except_bind_ok.mpr ⟨⟨⟩, ensure_ok.mpr hscan, ?_⟩
    exact except_bind_ok.mpr ⟨_, (countMatches_ok hroom).mpr ⟨hmatches, rfl⟩, rfl⟩

end EvaluationLimits

open EvaluationLimits (meter)

/-! ## Several conditions -/

section
variable {α : Type} {holds : α → Evaluation} {answer : α → Bool} {price : α → Price}

def pricesUntil (decides : α → Bool) (price : α → Price) : List α → Price
  | [] => 0
  | a :: rest => price a + if decides a then 0 else pricesUntil decides price rest

theorem prices_anyHolds {l : List α} (h : ∀ a ∈ l, meter.Prices (holds a) (answer a) (price a)) :
    meter.Prices (anyHolds holds l) (l.any answer) (pricesUntil answer price l) := by
  induction l with
  | nil => exact Meter.prices_pure false
  | cons a rest ih =>
    rw [List.any_cons, pricesUntil]
    refine (h a List.mem_cons_self).bind
      (g := fun held limits => if held then .ok (true, limits) else anyHolds holds rest limits) ?_
    cases answer a with
    | true => exact Meter.prices_pure true
    | false => exact ih fun b hb => h b (List.mem_cons_of_mem _ hb)

theorem prices_allHold {l : List α} (h : ∀ a ∈ l, meter.Prices (holds a) (answer a) (price a)) :
    meter.Prices (allHold holds l) (l.all answer) (pricesUntil (!answer ·) price l) := by
  induction l with
  | nil => exact Meter.prices_pure true
  | cons a rest ih =>
    rw [List.all_cons, pricesUntil]
    refine (h a List.mem_cons_self).bind
      (g := fun held limits => if held then allHold holds rest limits else .ok (false, limits)) ?_
    cases answer a with
    | true => exact ih fun b hb => h b (List.mem_cons_of_mem _ hb)
    | false => exact Meter.prices_pure false

end

/-! ## Entries -/

section
variable (T : Tools ρ) (text : String)

namespace MatchCondition

def answer : MatchCondition → Bool
  | literal value caseSensitive => literalHolds T text value caseSensitive
  | regex pattern _ caseInsensitive => decide (regexMatches T pattern caseInsensitive text ≠ 0)

def price : MatchCondition → Price
  | literal _ _ => 0
  | regex pattern _ caseInsensitive =>
    (1, text.utf8ByteSize, regexMatches T pattern caseInsensitive text)

end MatchCondition

namespace SecondaryConditions

def answer : SecondaryConditions → Bool
  | none => true
  | any values => values.any (MatchCondition.answer T text)
  | all values => values.all (MatchCondition.answer T text)

def price : SecondaryConditions → Price
  | none => 0
  | any values => pricesUntil (MatchCondition.answer T text) (MatchCondition.price T text) values
  | all values => pricesUntil (!MatchCondition.answer T text ·) (MatchCondition.price T text) values

end SecondaryConditions

namespace MatchConditions

/-- One of the primary conditions holds, and the secondary ones as they say. -/
def answer (conditions : MatchConditions) : Bool :=
  conditions.primary.any (MatchCondition.answer T text) && conditions.secondary.answer T text

def price (conditions : MatchConditions) : Price :=
  pricesUntil (MatchCondition.answer T text) (MatchCondition.price T text) conditions.primary +
    if conditions.primary.any (MatchCondition.answer T text) then conditions.secondary.price T text
    else 0

end MatchConditions

namespace LoreEntry

def answer (seed : UInt64) (entry : LoreEntry) : Bool :=
  match entry.activation with
  | .constant => true
  | .selective conditions => conditions.answer T text
  | .probability basisPoints none => probabilityAdmits T seed entry.id.text basisPoints
  | .probability basisPoints (some conditions) =>
    conditions.answer T text && probabilityAdmits T seed entry.id.text basisPoints

def price (entry : LoreEntry) : Price :=
  ((activationConditions entry.activation).map (MatchConditions.price T text)).getD 0

end LoreEntry

variable {T text}

theorem MatchCondition.prices (condition : MatchCondition) :
    meter.Prices (condition.holds T text) (condition.answer T text) (condition.price T text) := by
  cases condition with
  | literal value caseSensitive => exact Meter.prices_pure _
  | regex pattern requiredLiteral caseInsensitive => exact EvaluationLimits.prices_evaluate _ text

theorem MatchConditions.prices (conditions : MatchConditions) :
    meter.Prices (conditions.holds T text) (conditions.answer T text) (conditions.price T text) := by
  obtain ⟨primary, secondary⟩ := conditions
  have hprimary : meter.Prices (anyHolds (MatchCondition.holds T text) primary) _ _ :=
    prices_anyHolds fun c _ => c.prices
  cases secondary with
  | none => exact hprimary.guard (Meter.prices_pure true)
  | any values => exact hprimary.guard (prices_anyHolds fun c _ => c.prices)
  | all values => exact hprimary.guard (prices_allHold fun c _ => c.prices)

theorem LoreEntry.prices (seed : UInt64) (entry : LoreEntry) :
    meter.Prices (entry.holds T text seed) (entry.answer T text seed) (entry.price T text) := by
  unfold LoreEntry.holds LoreEntry.answer LoreEntry.price
  cases entry.activation with
  | constant => exact Meter.prices_pure true
  | selective conditions => exact conditions.prices
  | probability basisPoints conditions =>
    cases conditions with
    | none => exact Meter.prices_pure _
    | some conditions =>
      have hboth := (@MatchConditions.prices ρ T text conditions).guard
        (Meter.prices_pure (probabilityAdmits T seed entry.id.text basisPoints))
      rw [ite_self, add_zero] at hboth
      exact hboth

end

/-! ## Selections -/

def SelectionRequest.matched (T : Tools ρ) (catalog : LorebookCatalog) (request : SelectionRequest) :
    List LoreEntry :=
  (catalog.enabled.filter (LoreEntry.answer T request.searchText request.seed)).insertionSort rankedBefore

def SelectionRequest.price (T : Tools ρ) (catalog : LorebookCatalog) (request : SelectionRequest) :
    Price :=
  (catalog.enabled.map (LoreEntry.price T request.searchText)).sum

theorem naiveFind_ok {T : Tools ρ} {catalog : LorebookCatalog} {request : SelectionRequest}
    {r : List LoreEntry × Nat × EvaluationLimits} :
    naiveFind T catalog request = .ok r ↔
      literalEvents T catalog request.searchText ≤ request.settings.maxLiteralMatchEvents ∧
      ((EvaluationLimits.new request).charge (request.price T catalog)).Within ∧
      (request.matched T catalog, literalEvents T catalog request.searchText,
        (EvaluationLimits.new request).charge (request.price T catalog)) = r := by
  have hprices : ∀ entry ∈ catalog.enabled,
      meter.Prices (LoreEntry.holds T request.searchText request.seed entry) _ _ :=
    fun entry _ => entry.prices request.seed
  have hpassing := Meter.passing_ok hprices (EvaluationLimits.within_new request)
  simp only [naiveFind, except_bind_ok, ensure_ok, exists_const, hpassing, Except.ok.injEq]
  constructor
  · rintro ⟨hevents, _, ⟨hwithin, rfl⟩, hr⟩
    exact ⟨hevents, hwithin, hr⟩
  · rintro ⟨hevents, hwithin, hr⟩
    exact ⟨hevents, _, ⟨hwithin, rfl⟩, hr⟩

end Lorepia.Lorebook
