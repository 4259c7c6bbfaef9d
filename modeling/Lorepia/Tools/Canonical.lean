import Lorepia.Lib.Filter
import Lorepia.Tools.Schema

/-!
# The canonical text of a document

An approval is bound to a call through the canonical text of its arguments. Different arguments
have different texts (`canonicalJson_inj`). Here is the other half: the order in which the map
of an object lists its members does not matter to the text, at any depth.
-/

namespace Lorepia.Tools

/-- No object in the value has a key twice, as in every `serde_json::Value`. -/
inductive DistinctKeys : Value → Prop where
  | mk {value : Value} (keys : ∀ entries, value = .object entries → (entries.map (·.1)).Nodup)
      (inside : ∀ child ∈ value.children, DistinctKeys child) : DistinctKeys value

theorem sortByKey_perm {α : Type} {xs ys : List (String × α)} (h : xs.Perm ys)
    (hkeys : (xs.map (·.1)).Nodup) : sortByKey xs = sortByKey ys := by
  have : IsTrans (String × α) keyOrder := ⟨fun _ _ _ => List.le_trans⟩
  have : Std.Total (keyOrder (α := α)) := ⟨fun _ _ => List.le_total _ _⟩
  refine insertionSort_eq_of_perm (fun a ha b hb hab hba => ?_) h
  exact List.inj_on_of_nodup_map hkeys ha hb (utf8_inj (List.le_antisymm hab hba))

theorem map_eq_of_forall₂ {α β γ : Type} {R : α → β → Prop} {f : α → γ} {g : β → γ} {xs : List α}
    {ys : List β} (h : List.Forall₂ R xs ys) (hR : ∀ x ∈ xs, ∀ y, R x y → f x = g y) :
    xs.map f = ys.map g := by
  induction h with
  | nil => rfl
  | cons hxy _ ih =>
    rw [List.map_cons, List.map_cons, hR _ List.mem_cons_self _ hxy,
      ih fun x hx => hR x (List.mem_cons_of_mem _ hx)]

section Canonical

variable [FloatText]

theorem canonicalJson_of_same (v : Value) :
    ∀ w, DistinctKeys v → Same v w → canonicalJson v = canonicalJson w := by
  induction v using Value.induct with
  | array xs ih =>
    rintro w ⟨-, hinside⟩ h
    cases h with
    | @array _ ys hitems =>
      have htexts : xs.map (write sortByKey) = ys.map (write sortByKey) :=
        map_eq_of_forall₂ hitems fun x hx y hxy => ih x hx y (hinside x hx) hxy
      rw [canonicalJson, canonicalJson, write, write, writeItems_eq, writeItems_eq, htexts]
  | object xs ih =>
    rintro w ⟨hkeys, hinside⟩ h
    cases h with
    | @object _ ys zs hentries horder =>
      -- the entries with their texts are the same up to their order, which the keys decide
      have htexts : xs.map (fun e => (e.1, write sortByKey e.2)) =
          zs.map fun e => (e.1, write sortByKey e.2) := by
        refine map_eq_of_forall₂ hentries fun e he e' hee' => ?_
        obtain ⟨key, hsame⟩ := hee'
        rw [← canonicalJson, ih _ he _ (hinside _ (List.mem_map_of_mem he)) hsame, canonicalJson]
      have hperm := horder.map fun e : String × Value => (e.1, write sortByKey e.2)
      rw [← htexts] at hperm
      have hsorted := sortByKey_perm hperm (by simpa [Function.comp_def] using hkeys xs rfl)
      rw [canonicalJson, canonicalJson, write, write, writeEntries_eq, writeEntries_eq, hsorted]
  | _ =>
    intro w _ h
    cases h
    rfl

/-- Documents without repeated keys have the same canonical text exactly when they are the
same up to the order of the members of their objects. -/
theorem canonicalJson_eq_iff (v w : Value) (hkeys : DistinctKeys v) :
    canonicalJson v = canonicalJson w ↔ Same v w :=
  ⟨canonicalJson_inj, canonicalJson_of_same v w hkeys⟩

end Canonical

/-- Two members in either order. -/
theorem canonicalJson_eq_iff_swap :
    @canonicalJson unitsText (.object [("b", .null), ("a", .array [.bool true])]) =
      @canonicalJson unitsText (.object [("a", .array [.bool true]), ("b", .null)]) := by
  have hplain : ∀ b, DistinctKeys (.bool b) := fun b => ⟨by simp, by simp [Value.children]⟩
  refine (@canonicalJson_eq_iff unitsText _ _ ⟨?_, ?_⟩).2 ?_
  · rintro _ ⟨⟩
    decide
  · rintro child (_ | ⟨_, _ | ⟨_, ⟨⟩⟩⟩)
    · exact ⟨by simp, by simp [Value.children]⟩
    · exact ⟨by simp, by simpa [Value.children] using hplain true⟩
  · exact .object (.cons (.mk _ .null) (.cons (.mk _ (.array (.cons (.bool true) .nil))) .nil))
      (.swap ..)

end Lorepia.Tools
