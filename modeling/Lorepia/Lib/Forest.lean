import Mathlib

/-!
# Forests given by parent links and depths

A finite forest is stored the way a table stores it: a list of nodes, a parent
relation, and a depth for each node that is zero exactly for the roots. `Lineage a l`
is the way from `a` up to its root. Because the depth drops by one at each link, a
lineage visits the depths `depth a, .., 1, 0` once each (`Lineage.depths`); all other
facts follow from this one.
-/

namespace Lorepia

universe u

/-- A finite forest. -/
structure Forest (α : Type u) where
  nodes : List α
  Parent : α → α → Prop
  depth : α → Nat
  parent_mem : ∀ {a b}, Parent a b → b ∈ nodes
  parent_depth : ∀ {a b}, Parent a b → depth a = depth b + 1
  parent_unique : ∀ {a b b'}, Parent a b → Parent a b' → b = b'
  parent_exists : ∀ {a}, a ∈ nodes → depth a ≠ 0 → ∃ b, Parent a b

namespace Forest

variable {α : Type u}

/-- The nodes from `a` up to its root. -/
inductive Lineage (F : Forest α) : α → List α → Prop
  | root {a} : a ∈ F.nodes → F.depth a = 0 → Lineage F a [a]
  | child {a b l} : a ∈ F.nodes → F.Parent a b → Lineage F b l → Lineage F a (a :: l)

variable {F F' : Forest α} {a : α} {l l' : List α}

theorem exists_lineage (ha : a ∈ F.nodes) : ∃ l, F.Lineage a l := by
  -- the depth is the height of the climb
  induction hd : F.depth a generalizing a with
  | zero => exact ⟨[a], .root ha hd⟩
  | succ d ih =>
    obtain ⟨b, hb⟩ := F.parent_exists ha (by omega)
    have hdb := F.parent_depth hb
    obtain ⟨l, hl⟩ := ih (F.parent_mem hb) (by omega)
    exact ⟨a :: l, .child ha hb hl⟩

theorem Lineage.mem (h : F.Lineage a l) : a ∈ l := by
  cases h <;> exact List.mem_cons_self

theorem Lineage.subset (h : F.Lineage a l) : ∀ x ∈ l, x ∈ F.nodes := by
  induction h with
  | root ha _ => simpa using ha
  | child ha _ _ ih =>
    intro x hx
    rcases List.mem_cons.mp hx with rfl | hx
    · exact ha
    · exact ih x hx

theorem Lineage.depths (h : F.Lineage a l) :
    l.map F.depth = (List.range (F.depth a + 1)).reverse := by
  induction h with
  | root _ hd => simp [hd]
  | child _ hp _ ih =>
    rw [List.map_cons, ih, F.parent_depth hp]
    conv_rhs => rw [List.range_succ, List.reverse_append]
    rfl

theorem Lineage.length (h : F.Lineage a l) : l.length = F.depth a + 1 := by
  have := congrArg List.length h.depths
  simpa using this

theorem Lineage.depth_le (h : F.Lineage a l) {x : α} (hx : x ∈ l) : F.depth x ≤ F.depth a := by
  have : F.depth x ∈ l.map F.depth := List.mem_map_of_mem hx
  rw [h.depths, List.mem_reverse, List.mem_range] at this
  omega

theorem Lineage.exists_depth (h : F.Lineage a l) {i : Nat} (hi : i ≤ F.depth a) :
    ∃ x ∈ l, F.depth x = i := by
  have : i ∈ l.map F.depth := by
    rw [h.depths, List.mem_reverse, List.mem_range]
    omega
  obtain ⟨x, hx, hd⟩ := List.mem_map.mp this
  exact ⟨x, hx, hd⟩

theorem Lineage.nodup_depths (h : F.Lineage a l) : (l.map F.depth).Nodup := by
  rw [h.depths, List.nodup_reverse]
  exact List.nodup_range

theorem Lineage.depth_inj (h : F.Lineage a l) {x y : α} (hx : x ∈ l) (hy : y ∈ l)
    (hd : F.depth x = F.depth y) : x = y :=
  List.inj_on_of_nodup_map h.nodup_depths hx hy hd

theorem Lineage.length_le (h : F.Lineage a l) : l.length ≤ F.nodes.length :=
  (List.subperm_of_subset (List.Nodup.of_map _ h.nodup_depths) h.subset).length_le

theorem Lineage.unique (h : F.Lineage a l) (h' : F.Lineage a l') : l = l' := by
  induction h generalizing l' with
  | root ha hd =>
    cases h' with
    | root => rfl
    | child _ hp _ =>
      have := F.parent_depth hp
      omega
  | child ha hp _ ih =>
    cases h' with
    | root _ hd =>
      have := F.parent_depth hp
      omega
    | child _ hp' hl' =>
      obtain rfl := F.parent_unique hp hp'
      rw [ih hl']

theorem Lineage.mem_of_parent (h : F.Lineage a l) {x y : α} (hx : x ∈ l) (hp : F.Parent x y) :
    y ∈ l := by
  induction h with
  | root _ hd =>
    have := F.parent_depth hp
    rw [List.mem_singleton.mp hx] at this
    omega
  | child _ hpar hl ih =>
    rcases List.mem_cons.mp hx with rfl | hx
    · rw [F.parent_unique hp hpar]
      exact List.mem_cons_of_mem _ hl.mem
    · exact List.mem_cons_of_mem _ (ih hx)

theorem Lineage.forall_mem {P : α → Prop} (h : F.Lineage a l) (ha : P a)
    (hp : ∀ {x y}, F.Parent x y → P x → P y) : ∀ x ∈ l, P x := by
  induction h with
  | root => simpa using ha
  | child _ hpar _ ih =>
    intro x hx
    rcases List.mem_cons.mp hx with rfl | hx
    · exact ha
    · exact ih (hp hpar ha) x hx

theorem Lineage.transfer (h : F.Lineage a l) (hmem : ∀ x ∈ l, x ∈ F'.nodes)
    (hparent : ∀ {x y}, x ∈ l → y ∈ l → F.Parent x y → F'.Parent x y)
    (hdepth : ∀ x, F'.depth x = F.depth x) : F'.Lineage a l := by
  induction h with
  | root ha hd => exact .root (hmem _ List.mem_cons_self) ((hdepth _).trans hd)
  | @child a b l ha hp hl ih =>
    refine .child (hmem _ List.mem_cons_self)
      (hparent List.mem_cons_self (List.mem_cons_of_mem _ hl.mem) hp) (ih ?_ ?_)
    · exact fun x hx => hmem x (List.mem_cons_of_mem _ hx)
    · exact fun hx hy => hparent (List.mem_cons_of_mem _ hx) (List.mem_cons_of_mem _ hy)

theorem Lineage.isChain (h : F.Lineage a l) : l.IsChain F.Parent := by
  induction h with
  | root => exact .singleton _
  | child _ hp hl ih =>
    cases hl with
    | root => exact List.isChain_cons_cons.mpr ⟨hp, ih⟩
    | child => exact List.isChain_cons_cons.mpr ⟨hp, ih⟩

theorem Lineage.filter_depth (h : F.Lineage a l) {n : α} {ancestors : List α} (hn : n ∈ l)
    (hancestors : F.Lineage n (n :: ancestors)) :
    l.filter (fun x => decide (F.depth x < F.depth n)) = ancestors := by
  induction h with
  | root _ hd =>
    obtain rfl := List.mem_singleton.mp hn
    cases hancestors with
    | root => simp
    | child _ hp _ =>
      have := F.parent_depth hp
      omega
  | @child a b l ha hp hl ih =>
    have hab := F.parent_depth hp
    rcases List.mem_cons.mp hn with rfl | hn
    · -- all of the rest lies below
      have hrest : l.filter (fun x => decide (F.depth x < F.depth n)) = l := by
        refine List.filter_eq_self.mpr fun x hx => decide_eq_true ?_
        have := hl.depth_le hx
        omega
      rw [List.filter_cons_of_neg (by simp), hrest]
      exact List.tail_eq_of_cons_eq ((Lineage.child ha hp hl).unique hancestors)
    · have hle := hl.depth_le hn
      rw [List.filter_cons_of_neg (by simp; omega)]
      exact ih hn

end Forest

end Lorepia
