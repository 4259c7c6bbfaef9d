import Mathlib
import Lorepia.Lib.Tx

/-!
# Tests that cost something

A test looks at an element, spends from a budget and may refuse to go on. `passing` keeps the
elements of a list that pass. When the answers do not depend on the budget (`Answers`), these
are a plain filter, and only what the tests spend (`spending`) depends on the order; elements
whose test costs nothing (`Free`) can be left out of that, moved or skipped. Where every test
has a price of its own (`Meter.Prices`), not even that depends on it (`Meter.passing_ok`).
-/

namespace Lorepia

variable {α σ ε : Type}

/-- Run the tests one after the other; the elements that pass. -/
def passing (test : α → σ → Except ε (Bool × σ)) : List α → σ → Except ε (List α × σ)
  | [], s => .ok ([], s)
  | a :: rest, s => do
    let (b, s) ← test a s
    let (found, s) ← passing test rest s
    .ok (if b then a :: found else found, s)

def spending (test : α → σ → Except ε (Bool × σ)) : List α → σ → Except ε σ
  | [], s => .ok s
  | a :: rest, s => do
    let (_, s) ← test a s
    spending test rest s

/-- Whenever the test of `a` answers, it answers `b`. -/
def Answers (test : α → σ → Except ε (Bool × σ)) (a : α) (b : Bool) : Prop :=
  ∀ s b' s', test a s = .ok (b', s') → b' = b

/-- The test of `a` always answers and spends nothing. -/
def Free (test : α → σ → Except ε (Bool × σ)) (a : α) : Prop :=
  ∃ b, ∀ s, test a s = .ok (b, s)

variable {test : α → σ → Except ε (Bool × σ)} {p : α → Bool}

theorem passing_eq {l : List α} {answer : α → Bool} (h : ∀ a ∈ l, Answers test a (answer a)) (s : σ) :
    passing test l s = (spending test l s).map fun s' => (l.filter answer, s') := by
  induction l generalizing s with
  | nil => rfl
  | cons a rest ih =>
    have hrest := ih fun b hb => h b (List.mem_cons_of_mem _ hb)
    cases htest : test a s with
    | error e => simp [passing, spending, htest, bind, Except.bind, Except.map]
    | ok r =>
      obtain ⟨b, s₁⟩ := r
      obtain rfl := h a List.mem_cons_self s b s₁ htest
      simp only [passing, spending, htest, bind, Except.bind, hrest s₁, List.filter_cons]
      cases spending test rest s₁ with
      | error e => rfl
      | ok s₂ => rfl

theorem spending_filter {l : List α} (h : ∀ a ∈ l, p a = false → Free test a) (s : σ) :
    spending test l s = spending test (l.filter p) s := by
  induction l generalizing s with
  | nil => rfl
  | cons a rest ih =>
    have hrest := ih fun b hb => h b (List.mem_cons_of_mem _ hb)
    cases hp : p a with
    | false =>
      obtain ⟨b, hb⟩ := h a List.mem_cons_self hp
      rw [List.filter_cons_of_neg (by simp [hp]), ← hrest s]
      simp only [spending, hb s, bind, Except.bind]
    | true =>
      rw [List.filter_cons_of_pos hp]
      simp only [spending]
      congr 1
      funext r
      exact hrest r.2

theorem spending_congr {l l' : List α} (h : ∀ a ∈ l, p a = false → Free test a)
    (h' : ∀ a ∈ l', p a = false → Free test a) (heq : l.filter p = l'.filter p) (s : σ) :
    spending test l s = spending test l' s := by
  rw [spending_filter h, spending_filter h', heq]

theorem passing_congr {test' : α → σ → Except ε (Bool × σ)} {l : List α}
    (h : ∀ a ∈ l, test a = test' a) (s : σ) : passing test l s = passing test' l s := by
  induction l generalizing s with
  | nil => rfl
  | cons a rest ih =>
    simp only [passing, h a List.mem_cons_self]
    congr 1
    funext r
    rw [ih fun b hb => h b (List.mem_cons_of_mem _ hb)]

theorem passing_map {β : Type} (f : β → α) (l : List β) (s : σ) :
    passing test (l.map f) s =
      (passing (fun b => test (f b)) l s).map fun r => (r.1.map f, r.2) := by
  induction l generalizing s with
  | nil => rfl
  | cons b rest ih =>
    simp only [List.map_cons, passing, bind, Except.bind]
    cases htest : test (f b) s with
    | error e => rfl
    | ok r =>
      obtain ⟨b', s₁⟩ := r
      simp only [ih s₁]
      cases passing (fun b => test (f b)) rest s₁ with
      | error e => rfl
      | ok r₂ => cases b' <;> rfl

theorem passing_sublist {l found : List α} {s s' : σ} (h : passing test l s = .ok (found, s')) :
    found.Sublist l := by
  induction l generalizing found s with
  | nil =>
    cases h
    exact .refl _
  | cons a rest ih =>
    obtain ⟨⟨b, s₁⟩, -, h⟩ := except_bind_ok.mp h
    obtain ⟨⟨found', s₂⟩, hrest, h⟩ := except_bind_ok.mp h
    cases h
    cases b with
    | true => exact (ih hrest).cons_cons a
    | false => exact (ih hrest).cons a

theorem passing_range {l : List α} {testAt : Nat → σ → Except ε (Bool × σ)}
    (h : ∀ (k : Nat) a, l[k]? = some a → testAt k = test a) (s : σ) :
    passing test l s =
      (passing testAt (List.range l.length) s).map fun r => (r.1.filterMap (l[·]?), r.2) := by
  -- both lists are read off the elements with their positions
  have hmem : ∀ {x : α × Nat}, x ∈ l.zipIdx → l[x.2]? = some x.1 := List.mem_zipIdx_iff_getElem?.mp
  have hleft : passing test l s =
      (passing (fun x : α × Nat => test x.1) l.zipIdx s).map fun r => (r.1.map Prod.fst, r.2) := by
    rw [← passing_map, List.zipIdx_map_fst]
  have hright : passing testAt (List.range l.length) s =
      (passing (fun x : α × Nat => testAt x.2) l.zipIdx s).map fun r => (r.1.map Prod.snd, r.2) := by
    rw [← passing_map, List.zipIdx_map_snd, List.range_eq_range']
  have hsame : passing (fun x : α × Nat => testAt x.2) l.zipIdx s =
      passing (fun x : α × Nat => test x.1) l.zipIdx s :=
    passing_congr (fun x hx => h x.2 x.1 (hmem hx)) s
  rw [hleft, hright, hsame]
  cases hfound : passing (fun x : α × Nat => test x.1) l.zipIdx s with
  | error e => rfl
  | ok r =>
    obtain ⟨found, s'⟩ := r
    have hsub := (passing_sublist hfound).subset
    have hentries : (found.map Prod.snd).filterMap (l[·]?) = found.map Prod.fst := by
      rw [List.filterMap_map, ← List.filterMap_eq_map]
      exact List.filterMap_congr fun x hx => hmem (hsub hx)
    simp only [Except.map, hentries]

/-! ## Fixed prices -/

/-- A budget from which amounts are charged. It is not exceeded while it is within its limits. -/
structure Meter (σ κ : Type) [AddCommMonoid κ] where
  Within : σ → Prop
  charge : κ → σ → σ
  charge_zero : ∀ s, charge 0 s = s
  charge_add : ∀ c d s, charge (c + d) s = charge d (charge c s)
  within_of_charge : ∀ c s, Within (charge c s) → Within s

namespace Meter

variable {κ : Type} [AddCommMonoid κ] (m : Meter σ κ)

/-- The computation answers `b` at this price, and fails where that is too much. -/
def Prices (f : σ → Except ε (Bool × σ)) (b : Bool) (price : κ) : Prop :=
  ∀ s, m.Within s → ∀ r, f s = .ok r ↔ m.Within (m.charge price s) ∧ (b, m.charge price s) = r

variable {m}

theorem prices_pure (b : Bool) : m.Prices (ε := ε) (fun s => .ok (b, s)) b 0 := by
  intro s hs r
  rw [m.charge_zero, Except.ok.injEq]
  exact (and_iff_right hs).symm

theorem Prices.bind {f : σ → Except ε (Bool × σ)} {g : Bool → σ → Except ε (Bool × σ)} {b b' : Bool}
    {price price' : κ} (hf : m.Prices f b price) (hg : m.Prices (g b) b' price') :
    m.Prices (fun s => do
      let (held, s) ← f s
      g held s) b' (price + price') := by
  intro s hs r
  rw [except_bind_ok, m.charge_add]
  constructor
  · rintro ⟨r₁, hr₁, hr⟩
    obtain ⟨hwithin, rfl⟩ := (hf s hs r₁).mp hr₁
    exact (hg _ hwithin r).mp hr
  · rintro ⟨hwithin, hr⟩
    have hfirst := m.within_of_charge _ _ hwithin
    exact ⟨_, (hf s hs _).mpr ⟨hfirst, rfl⟩, (hg _ hfirst r).mpr ⟨hwithin, hr⟩⟩

theorem Prices.guard {f g : σ → Except ε (Bool × σ)} {b b' : Bool} {price price' : κ}
    (hf : m.Prices f b price) (hg : m.Prices g b' price') :
    m.Prices (fun s => do
      let (held, s) ← f s
      if held then g s else .ok (false, s)) (b && b') (price + if b then price' else 0) := by
  refine hf.bind (g := fun held s => if held then g s else .ok (false, s)) ?_
  cases b with
  | true => exact hg
  | false => exact prices_pure false

theorem passing_ok {l : List α} {answer : α → Bool} {price : α → κ}
    (h : ∀ a ∈ l, m.Prices (test a) (answer a) (price a)) {s : σ} (hs : m.Within s)
    (r : List α × σ) :
    passing test l s = .ok r ↔
      m.Within (m.charge (l.map price).sum s) ∧
        (l.filter answer, m.charge (l.map price).sum s) = r := by
  induction l generalizing s r with
  | nil =>
    rw [passing, List.map_nil, List.sum_nil, m.charge_zero, List.filter_nil, Except.ok.injEq]
    exact (and_iff_right hs).symm
  | cons a rest ih =>
    have hrest := fun {s} hs => ih (fun b hb => h b (List.mem_cons_of_mem _ hb)) (s := s) hs
    have hfirst := h a List.mem_cons_self s hs
    rw [List.map_cons, List.sum_cons, m.charge_add]
    constructor
    · intro hpass
      obtain ⟨r₁, hr₁, hpass⟩ := except_bind_ok.mp hpass
      obtain ⟨hwithin, rfl⟩ := (hfirst r₁).mp hr₁
      obtain ⟨r₂, hr₂, hpass⟩ := except_bind_ok.mp hpass
      obtain ⟨hwithin', rfl⟩ := (hrest hwithin r₂).mp hr₂
      cases hpass
      exact ⟨hwithin', by rw [List.filter_cons]⟩
    · rintro ⟨hwithin, rfl⟩
      have hwithin' := m.within_of_charge _ _ hwithin
      refine except_bind_ok.mpr ⟨_, (hfirst _).mpr ⟨hwithin', rfl⟩, ?_⟩
      refine except_bind_ok.mpr ⟨_, (hrest hwithin' _).mpr ⟨hwithin, rfl⟩, ?_⟩
      rw [List.filter_cons]

end Meter

/-! ## Sorting -/

theorem insertionSort_eq_of_perm {r : α → α → Prop} [DecidableRel r] [IsTrans α r] [Std.Total r]
    {l l' : List α} (hanti : ∀ a ∈ l, ∀ b ∈ l, r a b → r b a → a = b) (h : l.Perm l') :
    l.insertionSort r = l'.insertionSort r := by
  have hsorted := List.perm_insertionSort r l
  refine List.Perm.eq_of_pairwise (fun a b ha hb => ?_) (List.pairwise_insertionSort r l)
    (List.pairwise_insertionSort r l') ?_
  · have hb' := h.symm.mem_iff.mp ((List.perm_insertionSort r l').mem_iff.mp hb)
    exact hanti a (hsorted.mem_iff.mp ha) b hb'
  · exact hsorted.trans (h.trans (List.perm_insertionSort r l').symm)

theorem insertionSort_eq_of_key {κ : Type*} [LinearOrder κ] {r : α → α → Prop} [DecidableRel r]
    (key : α → κ) (hr : ∀ a b, r a b ↔ key a ≤ key b) {l l' : List α}
    (hinj : ∀ a ∈ l, ∀ b ∈ l, key a = key b → a = b) (h : l.Perm l') :
    l.insertionSort r = l'.insertionSort r := by
  have htrans : IsTrans α r := ⟨fun a b c hab hbc => by
    rw [hr] at hab hbc ⊢
    exact hab.trans hbc⟩
  have htotal : Std.Total r := ⟨fun a b => by
    rw [hr, hr]
    exact le_total _ _⟩
  refine insertionSort_eq_of_perm (fun a ha b hb hab hba => ?_) h
  rw [hr] at hab hba
  exact hinj a ha b hb (hab.antisymm hba)

end Lorepia
