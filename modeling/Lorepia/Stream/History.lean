import Lorepia.Lib.Budget
import Lorepia.Providers.Validate
import Lorepia.Storage.Effects
import Lorepia.Stream.Model

/-!
# The history of a request (`provider_stream.rs`)

A request carries the newest closed turns of the chat. `selectCompletedHistory` goes backwards
through the stored messages, two at a time where they are a turn and one where they are not, and
takes closed turns until the limit is reached or one does not fit. A message cannot end one turn
and begin another, so this takes the longest last part of `closedPairs` within the limits
(`selectCompletedHistory_spec`).
-/

namespace Lorepia.Stream

open Lorepia.Storage (Message checkedAddU64)
open Lorepia.Providers (ChatMessage isBlank isWhitespace)
open Budget (whileFits whileFits_nil whileFits_cons)

def isTurnPair (user assistant : Message) : Bool :=
  user.role = .user && assistant.role = .assistant

def isClosed (user assistant : Message) : Bool :=
  user.status = .complete && assistant.status = .complete && !isBlank user.text &&
    !isBlank assistant.text

def chatPair (turn : Message × Message) : ChatMessage × ChatMessage :=
  (⟨.user, turn.1.text⟩, ⟨.assistant, turn.2.text⟩)

/-- The loop of `select_completed_history`. The messages before the cursor come newest first. -/
def selectNewest (maxPairs maxUtf8Bytes : Nat) :
    List Message → List (ChatMessage × ChatMessage) → Nat → List (ChatMessage × ChatMessage)
  | assistant :: user :: older, newestPairs, retainedBytes =>
    if newestPairs.length < maxPairs then
      if isTurnPair user assistant then
        if isClosed user assistant then
          match checkedAddU64 user.text.utf8ByteSize assistant.text.utf8ByteSize with
          | none => newestPairs
          | some pairBytes =>
            match checkedAddU64 retainedBytes pairBytes with
            | none => newestPairs
            | some projected =>
              if maxUtf8Bytes < projected then newestPairs
              else selectNewest maxPairs maxUtf8Bytes older
                (newestPairs ++ [chatPair (user, assistant)]) projected
        else selectNewest maxPairs maxUtf8Bytes older newestPairs retainedBytes
      else selectNewest maxPairs maxUtf8Bytes (user :: older) newestPairs retainedBytes
    else newestPairs
  | _, newestPairs, _ => newestPairs

def selectCompletedHistory (storedHistory : List Message) (maxMessages maxUtf8Bytes : UInt64) :
    List ChatMessage :=
  (selectNewest (maxMessages.toNat / 2) maxUtf8Bytes.toNat storedHistory.reverse [] 0).reverse.flatMap
    fun pair => [pair.1, pair.2]

/-! ## Closed turns -/

def isClosedTurn (turn : Message × Message) : Bool :=
  isTurnPair turn.1 turn.2 && isClosed turn.1 turn.2

def closedPairs (history : List Message) : List (Message × Message) :=
  (history.zip history.tail).filter isClosedTurn

/-- The closed turns of messages that come newest first, in this order. -/
def closedBackwards (unread : List Message) : List (Message × Message) :=
  (unread.tail.zip unread).filter isClosedTurn

def turnBytes (turn : Message × Message) : Nat :=
  turn.1.text.utf8ByteSize + turn.2.text.utf8ByteSize

theorem turnBytes_mk (user assistant : Message) :
    turnBytes (user, assistant) = user.text.utf8ByteSize + assistant.text.utf8ByteSize := rfl

theorem zip_tail_snoc {α : Type} (l : List α) (a b : α) :
    (l ++ [a, b]).zip (l ++ [a, b]).tail = (l ++ [a]).zip (l ++ [a]).tail ++ [(a, b)] := by
  induction l with
  | nil => rfl
  | cons c l ih =>
    cases l with
    | nil => rfl
    | cons d l => exact congrArg ((c, d) :: ·) ih

theorem reverse_zip_tail {α : Type} (l : List α) :
    (l.reverse.zip l.reverse.tail).reverse = l.tail.zip l := by
  induction l with
  | nil => rfl
  | cons b l ih =>
    cases l with
    | nil => rfl
    | cons a l =>
      have hsnoc : (b :: a :: l).reverse = l.reverse ++ [a, b] := by simp
      rw [List.reverse_cons] at ih
      rw [hsnoc, zip_tail_snoc, List.reverse_append, ih]
      rfl

theorem reverse_closedPairs (history : List Message) :
    (closedPairs history).reverse = closedBackwards history.reverse := by
  have hzip := reverse_zip_tail history.reverse
  rw [List.reverse_reverse] at hzip
  rw [closedPairs, closedBackwards, ← List.filter_reverse, hzip]

theorem closedBackwards_cons (assistant user : Message) (older : List Message) :
    closedBackwards (assistant :: user :: older) =
      if isClosedTurn (user, assistant) then (user, assistant) :: closedBackwards (user :: older)
      else closedBackwards (user :: older) := by
  unfold closedBackwards
  rw [List.tail_cons, List.zip_cons_cons, List.filter_cons]
  rfl

theorem closedBackwards_user {user : Message} (h : user.role = .user) (older : List Message) :
    closedBackwards (user :: older) = closedBackwards older := by
  cases older with
  | nil => rfl
  | cons before older =>
    rw [closedBackwards_cons, if_neg]
    simp [isClosedTurn, isTurnPair, h]

/-! ## What is selected -/

/-- The two checked additions of the loop, as far as the budget can tell. -/
theorem checkedAdd_fits {retained first second : Nat} {budget : Nat} (hword : budget < 2 ^ 64)
    (h : ∀ total, checkedAddU64 first second = some total →
      ∀ projected, checkedAddU64 retained total = some projected → budget < projected) :
    budget < retained + (first + second) := by
  by_contra hfits
  have hall : retained + (first + second) < 2 ^ 64 := by omega
  exact hfits (h (first + second) (if_pos (by omega)) _ (if_pos hall))

theorem selectNewest_eq {maxPairs maxUtf8Bytes : Nat} (hword : maxUtf8Bytes < 2 ^ 64)
    (unread : List Message) (pairs : List (ChatMessage × ChatMessage)) {bytes : Nat}
    (hbytes : bytes ≤ maxUtf8Bytes) :
    selectNewest maxPairs maxUtf8Bytes unread pairs bytes =
      pairs ++ (whileFits turnBytes (maxPairs - pairs.length) (maxUtf8Bytes - bytes)
        (closedBackwards unread)).map chatPair := by
  -- a closed turn that does not fit ends the selection
  have hstop : ∀ {user assistant : Message} {older : List Message}
      {pairs : List (ChatMessage × ChatMessage)} {bytes : Nat}, bytes ≤ maxUtf8Bytes →
      pairs.length < maxPairs → isTurnPair user assistant = true → isClosed user assistant = true →
      maxUtf8Bytes < bytes + (user.text.utf8ByteSize + assistant.text.utf8ByteSize) →
      pairs = pairs ++ (whileFits turnBytes (maxPairs - pairs.length) (maxUtf8Bytes - bytes)
        (closedBackwards (assistant :: user :: older))).map chatPair := by
    intro user assistant older pairs bytes hbytes hroom hturn hclosed hover
    rw [closedBackwards_cons, if_pos (by simp [isClosedTurn, hturn, hclosed]),
      whileFits_cons (by omega), if_neg]
    · simp
    · rw [turnBytes_mk]
      omega
  fun_induction selectNewest maxPairs maxUtf8Bytes unread pairs bytes with
  | case1 assistant user older pairs bytes hroom hturn hclosed hsum =>
    refine hstop hbytes hroom hturn hclosed (checkedAdd_fits hword fun total htotal => ?_)
    rw [hsum] at htotal
    cases htotal
  | case2 assistant user older pairs bytes hroom hturn hclosed total hsum hprojected =>
    refine hstop hbytes hroom hturn hclosed (checkedAdd_fits hword fun total' htotal projected h => ?_)
    rw [hsum] at htotal
    cases htotal
    rw [hprojected] at h
    cases h
  | case3 assistant user older pairs bytes hroom hturn hclosed total hsum projected hprojected hover =>
    refine hstop hbytes hroom hturn hclosed (checkedAdd_fits hword fun total' htotal projected' h => ?_)
    rw [hsum] at htotal
    cases htotal
    rw [hprojected] at h
    cases h
    exact hover
  | case4 assistant user older pairs bytes hroom hturn hclosed total hsum projected hprojected hfits ih =>
    obtain ⟨-, rfl⟩ := Storage.checkedAddU64_eq.mp hsum
    obtain ⟨-, rfl⟩ := Storage.checkedAddU64_eq.mp hprojected
    have huser : user.role = .user := by
      simp only [isTurnPair, Bool.and_eq_true, decide_eq_true_eq] at hturn
      exact hturn.1
    rw [ih (by omega), closedBackwards_cons, if_pos (by simp [isClosedTurn, hturn, hclosed]),
      whileFits_cons (by omega), if_pos (by rw [turnBytes_mk]; omega), closedBackwards_user huser,
      List.map_cons, List.append_assoc, List.length_append, List.length_singleton, Nat.sub_add_eq,
      Nat.sub_add_eq]
    rfl
  | case5 assistant user older pairs bytes hroom hturn hopen ih =>
    have huser : user.role = .user := by
      simp only [isTurnPair, Bool.and_eq_true, decide_eq_true_eq] at hturn
      exact hturn.1
    rw [ih hbytes, closedBackwards_cons, if_neg (by simp [isClosedTurn, hopen]),
      closedBackwards_user huser]
  | case6 assistant user older pairs bytes hroom hturn ih =>
    rw [ih hbytes, closedBackwards_cons, if_neg (by simp [isClosedTurn, hturn])]
  | case7 assistant user older pairs bytes hroom =>
    rw [Nat.sub_eq_zero_of_le (Nat.le_of_not_lt hroom)]
    simp [whileFits]
  | case8 unread pairs bytes hshort =>
    have hnone : closedBackwards unread = [] := by
      rcases unread with _ | ⟨last, _ | ⟨before, older⟩⟩
      · rfl
      · rfl
      · exact absurd rfl (hshort last before older)
    rw [hnone, whileFits_nil, List.map_nil, List.append_nil]

theorem isClosedTurn_iff {turn : Message × Message} :
    isClosedTurn turn = true ↔ turn.1.role = .user ∧ turn.2.role = .assistant ∧
      turn.1.status = .complete ∧ turn.2.status = .complete ∧
      isBlank turn.1.text = false ∧ isBlank turn.2.text = false := by
  simp [isClosedTurn, isTurnPair, isClosed, and_assoc]

theorem adjacent_of_mem_zip_tail {α : Type} {l : List α} {pair : α × α} (h : pair ∈ l.zip l.tail) :
    [pair.1, pair.2] <:+: l := by
  induction l with
  | nil => cases h
  | cons a l ih =>
    cases l with
    | nil => cases h
    | cons b l =>
      obtain rfl | h := List.mem_cons.mp h
      · exact ⟨[], l, rfl⟩
      · exact List.infix_cons (ih h)

def newestTurns (storedHistory : List Message) (maxMessages maxUtf8Bytes : UInt64) :
    List (Message × Message) :=
  whileFits turnBytes (maxMessages.toNat / 2) maxUtf8Bytes.toNat (closedBackwards storedHistory.reverse)

section
variable (storedHistory : List Message) (maxMessages maxUtf8Bytes : UInt64)

theorem selectCompletedHistory_eq :
    selectCompletedHistory storedHistory maxMessages maxUtf8Bytes =
      (newestTurns storedHistory maxMessages maxUtf8Bytes).reverse.flatMap
        fun turn => [⟨.user, turn.1.text⟩, ⟨.assistant, turn.2.text⟩] := by
  rw [selectCompletedHistory, selectNewest_eq maxUtf8Bytes.toNat_lt _ _ (Nat.zero_le _),
    List.nil_append, List.length_nil, Nat.sub_zero, Nat.sub_zero, ← List.map_reverse,
    List.flatMap_map]
  rfl

theorem length_selectCompletedHistory_le :
    (selectCompletedHistory storedHistory maxMessages maxUtf8Bytes).length ≤ maxMessages.toNat := by
  have htwo : ∀ turns : List (Message × Message), (turns.flatMap fun turn =>
      [(⟨.user, turn.1.text⟩ : ChatMessage), ⟨.assistant, turn.2.text⟩]).length = 2 * turns.length := by
    intro turns
    rw [List.length_flatMap]
    simp [Nat.mul_comm]
  have hturns : (newestTurns storedHistory maxMessages maxUtf8Bytes).length ≤ maxMessages.toNat / 2 :=
    Budget.length_whileFits_le _ _ _
  rw [selectCompletedHistory_eq, htwo, List.length_reverse]
  omega

theorem selectCompletedHistory_bytes :
    ((selectCompletedHistory storedHistory maxMessages maxUtf8Bytes).map
      (·.content.utf8ByteSize)).sum ≤ maxUtf8Bytes.toNat := by
  have hbytes : ∀ turns : List (Message × Message), ((turns.flatMap fun turn =>
      [(⟨.user, turn.1.text⟩ : ChatMessage), ⟨.assistant, turn.2.text⟩].map
        (·.content.utf8ByteSize)).sum) = (turns.map turnBytes).sum := by
    intro turns
    induction turns with
    | nil => rfl
    | cons turn turns ih =>
      rw [List.flatMap_cons, List.sum_append, ih]
      simp [turnBytes, Nat.add_assoc]
  rw [selectCompletedHistory_eq, List.map_flatMap, hbytes, List.map_reverse, List.sum_reverse]
  exact Budget.whileFits_cost _ _ _

theorem newestTurns_suffix :
    (newestTurns storedHistory maxMessages maxUtf8Bytes).reverse <:+ closedPairs storedHistory := by
  rw [← List.reverse_prefix, reverse_closedPairs, List.reverse_reverse]
  exact Budget.whileFits_prefix _ _ _

theorem newestTurns_maximal {turn : Message × Message}
    (h : turn :: (newestTurns storedHistory maxMessages maxUtf8Bytes).reverse <:+
      closedPairs storedHistory) :
    (newestTurns storedHistory maxMessages maxUtf8Bytes).length = maxMessages.toNat / 2 ∨
      maxUtf8Bytes.toNat <
        ((newestTurns storedHistory maxMessages maxUtf8Bytes).map turnBytes).sum + turnBytes turn := by
  obtain ⟨rest, hrest⟩ := List.reverse_prefix.mpr h
  rw [reverse_closedPairs, List.reverse_cons, List.reverse_reverse, List.append_assoc] at hrest
  exact Budget.whileFits_maximal hrest.symm

/-- The selected turns are the longest last part of the closed turns within the limits. -/
theorem selectCompletedHistory_spec :
    ∃ turns, turns <:+ closedPairs storedHistory ∧
      selectCompletedHistory storedHistory maxMessages maxUtf8Bytes =
        turns.flatMap (fun turn => [⟨.user, turn.1.text⟩, ⟨.assistant, turn.2.text⟩]) ∧
      (∀ turn ∈ turns, [turn.1, turn.2] <:+: storedHistory ∧
        turn.1.role = .user ∧ turn.2.role = .assistant ∧
        turn.1.status = .complete ∧ turn.2.status = .complete ∧
        isBlank turn.1.text = false ∧ isBlank turn.2.text = false) ∧
      (selectCompletedHistory storedHistory maxMessages maxUtf8Bytes).length ≤ maxMessages.toNat ∧
      ((selectCompletedHistory storedHistory maxMessages maxUtf8Bytes).map
        (·.content.utf8ByteSize)).sum ≤ maxUtf8Bytes.toNat ∧
      ∀ turn, turn :: turns <:+ closedPairs storedHistory →
        turns.length = maxMessages.toNat / 2 ∨
          maxUtf8Bytes.toNat < ((turn :: turns).map turnBytes).sum := by
  have hsuffix := newestTurns_suffix storedHistory maxMessages maxUtf8Bytes
  refine ⟨_, hsuffix, selectCompletedHistory_eq _ _ _, fun turn hturn => ?_,
    length_selectCompletedHistory_le _ _ _, selectCompletedHistory_bytes _ _ _, fun turn hturn => ?_⟩
  · have hmem := hsuffix.subset hturn
    rw [closedPairs, List.mem_filter] at hmem
    exact ⟨adjacent_of_mem_zip_tail hmem.1, isClosedTurn_iff.mp hmem.2⟩
  · rw [List.length_reverse, List.map_cons, List.sum_cons, List.map_reverse, List.sum_reverse,
      Nat.add_comm]
    exact newestTurns_maximal _ _ _ hturn

end

end Lorepia.Stream
