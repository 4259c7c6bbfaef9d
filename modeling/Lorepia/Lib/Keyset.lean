import Mathlib
import Lorepia.Lib.Tx
import Lorepia.Lib.Table

/-!
# Keyset paging

A page is asked for with a cursor, which names the last row of the page before, and with a
limit; it comes with the cursor of the next page if there are more rows. `follow` is the client
that goes on from cursor to cursor.

`Serves` is what a listing has to provide: after any beginning of its rows, the page asked for
with the cursor of the last of them is a beginning of the others, not empty unless they are.
Then the client stops and sees every row once (`Serves.follow_eq`). `serves_of_query`
establishes it for the usual query, which selects the rows above the cursor in a strict order
and fetches one row more than it returns.
-/

namespace Lorepia.Keyset

open Lorepia.Table (Keyed)

/-- A page, and where the next one starts. -/
structure Page (α κ : Type) where
  rows : List α
  next : Option κ
  deriving DecidableEq

variable {α κ ε : Type}

/-- The client: at most `fuel` pages, with the limits in turn. It has no result as
long as there is a cursor left to follow. -/
def follow (fetch : Option κ → Nat → Except ε (Page α κ)) :
    Nat → (Nat → Nat) → Option κ → Except ε (Option (List (List α)))
  | 0, _, _ => .ok none
  | fuel + 1, limits, cursor => do
    let page ← fetch cursor (limits 0)
    match page.next with
    | none => .ok (some [page.rows])
    | some next => do
      let rest ← follow fetch fuel (fun i => limits (i + 1)) (some next)
      .ok (rest.map (page.rows :: ·))

/-- The cursor after `front` when the rows `back` are still to come. -/
def nextCursor (cursorOf : α → κ) (front back : List α) : Option κ :=
  if back.isEmpty then none else front.getLast?.map cursorOf

/-- The listing serves `all` in pages. -/
def Serves (fetch : Option κ → Nat → Except ε (Page α κ)) (Valid : Nat → Prop)
    (cursorOf : α → κ) (all : List α) : Prop :=
  ∀ done rest limit, all = done ++ rest → Valid limit →
    ∃ front back, rest = front ++ back ∧ (rest ≠ [] → front ≠ []) ∧
      fetch (done.getLast?.map cursorOf) limit = .ok ⟨front, nextCursor cursorOf front back⟩

/-- Following the cursors of the listing ends and gives each row once, in an order
`lt`, whatever limits are used. -/
def Complete (fetch : Option κ → Nat → Except ε (Page α κ)) (Valid : Nat → Prop)
    (rows : List α) (lt : α → α → Prop) : Prop :=
  ∀ limits : Nat → Nat, (∀ i, Valid (limits i)) → ∃ pages,
    follow fetch (rows.length + 1) limits none = .ok (some pages) ∧
      pages.flatten.Perm rows ∧ pages.flatten.Pairwise lt

section Client

variable {fetch : Option κ → Nat → Except ε (Page α κ)} {Valid : Nat → Prop} {cursorOf : α → κ}
  {all : List α}

theorem Serves.follow_from (h : Serves fetch Valid cursorOf all) {done rest : List α} {fuel : Nat}
    {limits : Nat → Nat} (hall : all = done ++ rest) (hlimits : ∀ i, Valid (limits i))
    (hfuel : rest.length < fuel) : ∃ pages,
      follow fetch fuel limits (done.getLast?.map cursorOf) = .ok (some pages) ∧
        pages.flatten = rest := by
  induction fuel generalizing done rest limits with
  | zero => omega
  | succ fuel ih =>
    obtain ⟨front, back, rfl, hfront, hpage⟩ := h done rest (limits 0) hall (hlimits 0)
    unfold follow
    rw [hpage]
    simp only [bind, Except.bind]
    by_cases hback : back = []
    · subst hback
      exact ⟨[front], rfl, by simp⟩
    · have hne : front ≠ [] := hfront (by simp [hback])
      have hlength : 0 < front.length := List.length_pos_iff.mpr hne
      rw [List.length_append] at hfuel
      obtain ⟨pages, hpages, hflatten⟩ := @ih (done ++ front) back _
        (by rw [hall, List.append_assoc]) (fun i => hlimits (i + 1)) (by omega)
      have hlast : (done ++ front).getLast? = front.getLast? := by
        rw [List.getLast?_append, List.getLast?_eq_some_getLast hne]
        rfl
      rw [hlast, List.getLast?_eq_some_getLast hne] at hpages
      have hnext : nextCursor cursorOf front back = some (cursorOf (front.getLast hne)) := by
        rw [nextCursor, if_neg (by simpa using hback), List.getLast?_eq_some_getLast hne]
        rfl
      rw [hnext]
      simp only
      rw [show some (cursorOf (front.getLast hne)) = Option.map cursorOf (some (front.getLast hne))
        from rfl, hpages]
      exact ⟨front :: pages, rfl, by rw [List.flatten_cons, hflatten]⟩

theorem Serves.follow_eq (h : Serves fetch Valid cursorOf all) {limits : Nat → Nat}
    (hlimits : ∀ i, Valid (limits i)) : ∃ pages,
      follow fetch (all.length + 1) limits none = .ok (some pages) ∧ pages.flatten = all :=
  h.follow_from (List.nil_append all).symm hlimits (Nat.lt_succ_self _)

theorem Serves.complete (h : Serves fetch Valid cursorOf all) {rows : List α}
    {lt : α → α → Prop} (hperm : all.Perm rows) (hlt : all.Pairwise lt) :
    Complete fetch Valid rows lt := by
  intro limits hlimits
  obtain ⟨pages, hpages, rfl⟩ := h.follow_eq hlimits
  rw [hperm.length_eq] at hpages
  exact ⟨pages, hpages, hperm, hlt⟩

end Client

/-! ## Queries in a strict order -/

def lookAhead (cursorOf : α → κ) (limit : Nat) (fetched : List α) : Page α κ :=
  ⟨fetched.take limit,
    if limit < fetched.length then (fetched.take limit).getLast?.map cursorOf else none⟩

theorem lookAhead_take (cursorOf : α → κ) (limit : Nat) (rows : List α) :
    lookAhead cursorOf limit (rows.take (limit + 1)) =
      ⟨rows.take limit, nextCursor cursorOf (rows.take limit) (rows.drop limit)⟩ := by
  have htake : (rows.take (limit + 1)).take limit = rows.take limit := by
    rw [List.take_take, Nat.min_eq_left (Nat.le_succ limit)]
  have hmore : limit < (rows.take (limit + 1)).length ↔ ¬ (rows.drop limit).isEmpty = true := by
    rw [List.length_take, List.isEmpty_iff, List.drop_eq_nil_iff]
    omega
  simp only [lookAhead, nextCursor, htake, hmore, ite_not]

section Order

variable {ρ : Type} [LinearOrder ρ] {key : α → ρ} {rows done rest : List α}

/-- `ORDER BY key`. -/
def orderBy (key : α → ρ) (rows : List α) : List α := rows.insertionSort fun a b => key a ≤ key b

theorem orderBy_perm (key : α → ρ) (rows : List α) : (orderBy key rows).Perm rows :=
  List.perm_insertionSort _ _

theorem pairwise_orderBy (key : α → ρ) (rows : List α) :
    (orderBy key rows).Pairwise fun a b => key a ≤ key b :=
  List.pairwise_insertionSort _ _

theorem orderBy_strict (hkey : Keyed key rows) :
    (orderBy key rows).Pairwise fun a b => key a < key b := by
  have hnodup : ((orderBy key rows).map key).Nodup := ((orderBy_perm key rows).map key).nodup_iff.mpr hkey
  exact ((pairwise_orderBy key rows).and (List.pairwise_map.mp hnodup)).imp
    fun h => lt_of_le_of_ne h.1 h.2

theorem orderBy_filter (hkey : Keyed key rows) (p : α → Bool) :
    orderBy key (rows.filter p) = (orderBy key rows).filter p := by
  refine @List.Perm.eq_of_pairwise _ (fun a b => key a ≤ key b) _ _ ?_ (pairwise_orderBy _ _)
    ((pairwise_orderBy _ _).filter _) ?_
  · intro a b ha hb hle hle'
    have ha' : a ∈ rows := (List.mem_filter.mp ((orderBy_perm _ _).mem_iff.mp ha)).1
    have hb' : b ∈ rows := (orderBy_perm _ _).mem_iff.mp (List.mem_filter.mp hb).1
    exact hkey.eq ha' hb' (le_antisymm hle hle')
  · exact (orderBy_perm _ _).trans ((orderBy_perm _ _).filter p).symm

theorem orderBy_after (hkey : Keyed key rows) (hsplit : orderBy key rows = done ++ rest) :
    orderBy key (rows.filter fun r => done.getLast?.all fun a => decide (key a < key r)) = rest := by
  have hlt := orderBy_strict hkey
  rw [hsplit, List.pairwise_append] at hlt
  rw [orderBy_filter hkey, hsplit, List.filter_append]
  have hdone : (done.filter fun r => done.getLast?.all fun a => decide (key a < key r)) = [] := by
    refine List.filter_eq_nil_iff.mpr fun r hr habove => ?_
    have hne : done ≠ [] := List.ne_nil_of_mem hr
    rw [List.getLast?_eq_some_getLast hne] at habove
    have hle : key r ≤ key (done.getLast hne) := by
      have hbelow := hlt.1
      rw [← List.dropLast_append_getLast hne] at hr hbelow
      rcases List.mem_append.mp hr with hr | hr
      · exact le_of_lt ((List.pairwise_append.mp hbelow).2.2 r hr _ List.mem_cons_self)
      · rw [List.mem_singleton.mp hr]
    simp only [Option.all_some, decide_eq_true_eq] at habove
    exact absurd habove (not_lt.mpr hle)
  have hrest : (rest.filter fun r => done.getLast?.all fun a => decide (key a < key r)) = rest := by
    refine List.filter_eq_self.mpr fun r hr => ?_
    rw [Option.all_eq_true]
    intro a ha
    exact decide_eq_true (hlt.2.2 a (List.mem_of_getLast? ha) r hr)
  rw [hdone, hrest, List.nil_append]

theorem serves_of_query {fetch : Option κ → Nat → Except ε (Page α κ)} {Valid : Nat → Prop}
    {cursorOf : α → κ} (hkey : Keyed key rows) (hvalid : ∀ limit, Valid limit → limit ≠ 0)
    (hfetch : ∀ last : Option α, (∀ a ∈ last, a ∈ rows) → ∀ limit, Valid limit →
      fetch (last.map cursorOf) limit = .ok (lookAhead cursorOf limit
        ((orderBy key (rows.filter fun r => last.all fun a => decide (key a < key r))).take (limit + 1)))) :
    Serves fetch Valid cursorOf (orderBy key rows) := by
  intro done rest limit hsplit hlimit
  refine ⟨rest.take limit, rest.drop limit, (List.take_append_drop _ _).symm, ?_, ?_⟩
  · intro hne hnil
    rcases List.take_eq_nil_iff.mp hnil with hzero | hnil
    · exact hvalid limit hlimit hzero
    · exact hne hnil
  · have hmem : ∀ a ∈ done.getLast?, a ∈ rows := fun a ha => by
      refine (orderBy_perm key rows).mem_iff.mp ?_
      rw [hsplit]
      exact List.mem_append_left _ (List.mem_of_getLast? ha)
    rw [hfetch done.getLast? hmem limit hlimit, orderBy_after hkey hsplit, lookAhead_take]

end Order

end Lorepia.Keyset
