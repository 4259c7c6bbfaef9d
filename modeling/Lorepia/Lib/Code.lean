import Mathlib

/-!
# Codes that can be read back

An encoding binds data when different data never give the same word. For composite data this
is proved part by part: `Reads stop enc R a` says that when a word starts with the code of `a`
and also with the code of some `b`, and what follows each of the two is allowed by `stop`, then
`a` and `b` are related by `R` and the two remainders are equal. Equality is the usual `R`; a
coarser one is for codes that forget something on purpose.

The combinators are those wire formats are made of: codes none of which starts another
(`PrefixFree`), a word over an alphabet that what follows leaves (`span_inj`), lists closed by
a mark or with separators between brackets, and fields that start with their length.
-/

namespace Lorepia.Code

universe u v

variable {α : Type u} {β : Type v}

/-- The code of `a` can be read off the front of a word, up to `R`. -/
def Reads (stop : List β → Prop) (enc : α → List β) (R : α → α → Prop) (a : α) : Prop :=
  ∀ b r s, stop r → stop s → enc a ++ r = enc b ++ s → R a b ∧ r = s

/-! ## Codes of one length and prefix-free codes -/

def PrefixFree (enc : α → List β) : Prop := ∀ a b, enc a <+: enc b → a = b

theorem PrefixFree.append_inj {enc : α → List β} (h : PrefixFree enc) {a b : α}
    {r s : List β} (e : enc a ++ r = enc b ++ s) : a = b ∧ r = s := by
  have ha : enc a <+: enc b ++ s := ⟨r, e⟩
  have hb : enc b <+: enc b ++ s := ⟨s, rfl⟩
  have hab : a = b := by
    rcases List.prefix_or_prefix_of_prefix ha hb with hp | hp
    · exact h a b hp
    · exact (h b a hp).symm
  subst hab
  exact ⟨rfl, List.append_cancel_left e⟩

theorem PrefixFree.of_read {enc : α → List β} {read : List β → α}
    (h : ∀ a r, read (enc a ++ r) = a) : PrefixFree enc := by
  rintro a b ⟨r, hr⟩
  calc a = read (enc a ++ r) := (h a r).symm
    _ = read (enc b ++ []) := by rw [hr, List.append_nil]
    _ = b := h b []

theorem PrefixFree.flatMap_inj {enc : α → List β} (h : PrefixFree enc) {close : β}
    (hclose : ∀ a r s, enc a ++ r ≠ close :: s) {as bs : List α} {r s : List β}
    (e : as.flatMap enc ++ close :: r = bs.flatMap enc ++ close :: s) : as = bs ∧ r = s := by
  induction as generalizing bs with
  | nil =>
    cases bs with
    | nil => exact ⟨rfl, (List.cons.inj e).2⟩
    | cons b bs =>
      rw [List.flatMap_cons, List.append_assoc] at e
      exact absurd e.symm (hclose b _ _)
  | cons a as ih =>
    cases bs with
    | nil =>
      rw [List.flatMap_cons, List.append_assoc] at e
      exact absurd e (hclose a _ _)
    | cons b bs =>
      rw [List.flatMap_cons, List.flatMap_cons, List.append_assoc, List.append_assoc] at e
      obtain ⟨rfl, e'⟩ := h.append_inj e
      obtain ⟨rfl, hrs⟩ := ih e'
      exact ⟨rfl, hrs⟩

/-! ## Words over an alphabet -/

/-- The word does not go on with a letter of `p`. -/
def StopsAt (p : β → Prop) (r : List β) : Prop := ∀ b ∈ r.head?, ¬ p b

theorem span_inj {p : β → Prop} {x y r s : List β} (hx : ∀ b ∈ x, p b) (hy : ∀ b ∈ y, p b)
    (hr : StopsAt p r) (hs : StopsAt p s) (e : x ++ r = y ++ s) : x = y ∧ r = s := by
  induction x generalizing y with
  | nil =>
    cases y with
    | nil => exact ⟨rfl, e⟩
    | cons b y =>
      -- then `r` would start with a letter
      have hb : p b := hy b List.mem_cons_self
      rw [List.nil_append] at e
      exact absurd hb (hr b (by rw [e]; rfl))
  | cons a x ih =>
    cases y with
    | nil =>
      have ha : p a := hx a List.mem_cons_self
      rw [List.nil_append] at e
      exact absurd ha (hs a (by rw [← e]; rfl))
    | cons b y =>
      obtain ⟨rfl, e'⟩ := List.cons.inj e
      obtain ⟨rfl, hrs⟩ := ih (fun c hc => hx c (List.mem_cons_of_mem _ hc))
        (fun c hc => hy c (List.mem_cons_of_mem _ hc)) e'
      exact ⟨rfl, hrs⟩

/-! ## Lists with separators -/

def separated (sep : β) (enc : α → List β) : List α → List β
  | [] => []
  | a :: as => enc a ++ as.flatMap fun b => sep :: enc b

theorem separated_map {γ : Type u} (sep : β) (enc : α → List β) (f : γ → α) (cs : List γ) :
    separated sep enc (cs.map f) = separated sep (fun c => enc (f c)) cs := by
  cases cs with
  | nil => rfl
  | cons c cs => simp [separated, List.flatMap_map]

section Separated

variable {stop : List β → Prop} {enc : α → List β} {R : α → α → Prop} {sep close : β}

theorem rest_stops (hsep : ∀ r, stop (sep :: r)) (hclose : ∀ r, stop (close :: r))
    (as : List α) (r : List β) : stop ((as.flatMap fun b => sep :: enc b) ++ close :: r) := by
  cases as with
  | nil => exact hclose r
  | cons a as => exact hsep _

theorem rest_reads (hsep : ∀ r, stop (sep :: r)) (hclose : ∀ r, stop (close :: r))
    (hne : sep ≠ close) {as : List α} (items : ∀ a ∈ as, Reads stop enc R a) {bs : List α}
    {r s : List β}
    (e : (as.flatMap fun b => sep :: enc b) ++ close :: r =
      (bs.flatMap fun b => sep :: enc b) ++ close :: s) :
    List.Forall₂ R as bs ∧ r = s := by
  induction as generalizing bs with
  | nil =>
    cases bs with
    | nil => exact ⟨.nil, (List.cons.inj e).2⟩
    | cons b bs => exact absurd (List.cons.inj e).1.symm hne
  | cons a as ih =>
    cases bs with
    | nil => exact absurd (List.cons.inj e).1 hne
    | cons b bs =>
      simp only [List.flatMap_cons, List.cons_append, List.append_assoc, List.cons.injEq,
        true_and] at e
      obtain ⟨hab, e'⟩ := items a List.mem_cons_self b _ _
        (rest_stops hsep hclose as r) (rest_stops hsep hclose bs s) e
      obtain ⟨hrest, hrs⟩ := ih (fun c hc => items c (List.mem_cons_of_mem _ hc)) e'
      exact ⟨.cons hab hrest, hrs⟩

theorem separated_reads (hsep : ∀ r, stop (sep :: r)) (hclose : ∀ r, stop (close :: r))
    (hne : sep ≠ close) (hstart : ∀ a r s, enc a ++ r ≠ close :: s) {as : List α}
    (items : ∀ a ∈ as, Reads stop enc R a) {bs : List α} {r s : List β}
    (e : separated sep enc as ++ close :: r = separated sep enc bs ++ close :: s) :
    List.Forall₂ R as bs ∧ r = s := by
  cases as with
  | nil =>
    cases bs with
    | nil => exact ⟨.nil, (List.cons.inj e).2⟩
    | cons b bs =>
      simp only [separated, List.append_assoc] at e
      exact absurd e.symm (hstart b _ _)
  | cons a as =>
    cases bs with
    | nil =>
      simp only [separated, List.append_assoc] at e
      exact absurd e (hstart a _ _)
    | cons b bs =>
      simp only [separated, List.append_assoc] at e
      obtain ⟨hab, e'⟩ := items a List.mem_cons_self b _ _
        (rest_stops hsep hclose as r) (rest_stops hsep hclose bs s) e
      obtain ⟨hrest, hrs⟩ :=
        rest_reads hsep hclose hne (fun c hc => items c (List.mem_cons_of_mem _ hc)) e'
      exact ⟨.cons hab hrest, hrs⟩

end Separated

/-! ## Numbers in a fixed number of bytes, and fields with a length -/

/-- The low `width` bytes of `n`, the most significant first. -/
def bigEndian : Nat → Nat → List UInt8
  | 0, _ => []
  | width + 1, n => bigEndian width (n / 256) ++ [UInt8.ofNat n]

@[simp] theorem length_bigEndian (width n : Nat) : (bigEndian width n).length = width := by
  induction width generalizing n with
  | zero => rfl
  | succ width ih => simp [bigEndian, ih]

theorem bigEndian_inj {width n m : Nat} (hn : n < 256 ^ width) (hm : m < 256 ^ width)
    (e : bigEndian width n = bigEndian width m) : n = m := by
  induction width generalizing n m with
  | zero => simp at hn hm; omega
  | succ width ih =>
    obtain ⟨hhigh, hlow⟩ := List.append_inj e (by simp)
    have hdiv : n / 256 = m / 256 := by
      apply ih _ _ hhigh
      · rw [pow_succ] at hn; omega
      · rw [pow_succ] at hm; omega
    have hmod : n % 256 = m % 256 := by
      have := congrArg UInt8.toNat (List.cons.inj hlow).1
      simpa using this
    omega

def littleEndian (width n : Nat) : List UInt8 := (bigEndian width n).reverse

@[simp] theorem length_littleEndian (width n : Nat) : (littleEndian width n).length = width := by
  simp [littleEndian]

theorem littleEndian_append_inj {width n m : Nat} {r s : List UInt8} (hn : n < 256 ^ width)
    (hm : m < 256 ^ width) (e : littleEndian width n ++ r = littleEndian width m ++ s) :
    n = m ∧ r = s := by
  obtain ⟨hnumber, hrest⟩ := List.append_inj e (by simp)
  exact ⟨bigEndian_inj hn hm (List.reverse_injective hnumber), hrest⟩

/-- A field is its length in `width` bytes and then its bytes. -/
def field (width : Nat) (bytes : List UInt8) : List UInt8 :=
  bigEndian width bytes.length ++ bytes

theorem field_append_inj {width : Nat} {x y r s : List UInt8} (hx : x.length < 256 ^ width)
    (hy : y.length < 256 ^ width) (e : field width x ++ r = field width y ++ s) :
    x = y ∧ r = s := by
  simp only [field, List.append_assoc] at e
  obtain ⟨hlen, hrest⟩ := List.append_inj e (by simp)
  exact List.append_inj hrest (bigEndian_inj hx hy hlen)

/-! ## Texts -/

def utf8Bytes (value : String) : List UInt8 := value.toUTF8.data.toList

theorem utf8Bytes_inj {s t : String} (h : utf8Bytes s = utf8Bytes t) : s = t := by
  unfold utf8Bytes at h
  rw [Array.toList_inj] at h
  exact String.toByteArray_inj.mp (ByteArray.ext h)

theorem utf8Bytes_eq (value : String) :
    utf8Bytes value = value.toList.flatMap String.utf8EncodeChar := by
  have hbytes : value.toByteArray = value.toList.utf8Encode := by
    rw [← String.toByteArray_ofList, String.ofList_toList]
  show value.toByteArray.data.toList = _
  rw [hbytes, List.utf8Encode]
  simp

theorem utf8Bytes_append (s t : String) : utf8Bytes (s ++ t) = utf8Bytes s ++ utf8Bytes t := by
  simp only [utf8Bytes_eq, String.toList_append, List.flatMap_append]

theorem toNat_eq_of_mem_utf8EncodeChar {c : Char} {b : UInt8} (h : b ∈ String.utf8EncodeChar c)
    (hb : b.toNat < 128) : c.toNat = b.toNat := by
  have hc : c.val.toNat = c.toNat := rfl
  unfold String.utf8EncodeChar at h
  simp only [hc] at h
  split at h
  · rw [List.mem_singleton.mp h, UInt8.toNat_ofNat']
    omega
  · -- every byte of a longer code has its highest bit set
    exfalso
    split at h
    · simp only [List.mem_cons, List.not_mem_nil, or_false] at h
      rcases h with rfl | rfl <;> simp only [UInt8.toNat_ofNat'] at hb <;> omega
    · split at h
      · simp only [List.mem_cons, List.not_mem_nil, or_false] at h
        rcases h with rfl | rfl | rfl <;> simp only [UInt8.toNat_ofNat'] at hb <;> omega
      · simp only [List.mem_cons, List.not_mem_nil, or_false] at h
        rcases h with rfl | rfl | rfl | rfl <;> simp only [UInt8.toNat_ofNat'] at hb <;> omega

theorem exists_of_mem_utf8Bytes {value : String} {b : UInt8} (h : b ∈ utf8Bytes value)
    (hb : b.toNat < 128) : ∃ c ∈ value.toList, c.toNat = b.toNat := by
  rw [utf8Bytes_eq, List.mem_flatMap] at h
  obtain ⟨c, hc, h⟩ := h
  exact ⟨c, hc, toNat_eq_of_mem_utf8EncodeChar h hb⟩

theorem head_of_byteOrderMark {value : String}
    (h : [0xef, 0xbb, 0xbf] <+: utf8Bytes value) : value.toList.head? = some (Char.ofNat 0xfeff) := by
  rw [utf8Bytes_eq] at h
  cases hlist : value.toList with
  | nil =>
    rw [hlist] at h
    cases List.prefix_nil.mp h
  | cons c rest =>
    rw [hlist, List.flatMap_cons] at h
    have hc : c.val.toNat = c.toNat := rfl
    have hbyte : ∀ {n : Nat} {b : UInt8}, b = UInt8.ofNat n → n % 256 = b.toNat := fun hb => by
      rw [hb, UInt8.toNat_ofNat']
    suffices hnat : c.toNat = 0xfeff by
      rw [List.head?_cons, ← hnat, Char.ofNat_toNat]
    unfold String.utf8EncodeChar at h
    simp only [hc] at h
    split at h
    · simp only [List.cons_append, List.cons_prefix_cons] at h
      have := hbyte h.1
      simp only [UInt8.reduceToNat] at this
      omega
    · split at h
      · simp only [List.cons_append, List.cons_prefix_cons] at h
        have := hbyte h.1
        simp only [UInt8.reduceToNat] at this
        omega
      · split at h
        · simp only [List.cons_append, List.cons_prefix_cons] at h
          have h₁ := hbyte h.1
          have h₂ := hbyte h.2.1
          have h₃ := hbyte h.2.2.1
          simp only [UInt8.reduceToNat] at h₁ h₂ h₃
          omega
        · simp only [List.cons_append, List.cons_prefix_cons] at h
          have := hbyte h.1
          simp only [UInt8.reduceToNat] at this
          omega

theorem length_utf8Bytes (value : String) : (utf8Bytes value).length = value.utf8ByteSize := by
  simp [utf8Bytes]

end Lorepia.Code
