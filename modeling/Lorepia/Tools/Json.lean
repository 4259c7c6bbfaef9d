import Mathlib
import Lorepia.Lib.Code

/-!
# JSON values and their canonical text (`json.rs`)

`serde_json::Value` with the two texts the tool runtime makes of it: the plain one,
whose length is limited, and `canonical_json`, which an approval signs. The main result
is `canonicalJson_inj`: values with the same canonical text are the same up to the order
of object entries (`Same`), however deeply they are nested.

Representation:

- an object is the list of its entries in the map's iteration order. The keys of a
  `serde_json::Map` are distinct; no result here needs it;
- a finite `f64` is a `Double`, a signed multiple of `2⁻¹⁰⁷⁴` with at most 53 significant
  bits. A `Number` holds no other float;
- the shortest decimal text of a float is made by a library. `FloatText` has what is used
  of it: the text reads back as the same float, it is made of the characters of a JSON
  number, and it has a point or an exponent.
-/

namespace Lorepia.Tools

open Code

abbrev Bytes := List UInt8

/-- `str::as_bytes`. -/
def utf8 (s : String) : Bytes := s.toUTF8.data.toList

theorem utf8_inj {s t : String} (h : utf8 s = utf8 t) : s = t := by
  unfold utf8 at h
  rw [Array.toList_inj] at h
  exact String.toByteArray_inj.mp (ByteArray.ext h)

/-! ## Numbers -/

/-- A finite `f64`, the number `±scaled · 2⁻¹⁰⁷⁴`. -/
structure Double where
  negative : Bool
  scaled : Nat
  fits : ∃ mantissa exponent, mantissa < 2 ^ 53 ∧ exponent ≤ 2045 ∧
    scaled = mantissa * 2 ^ exponent
  deriving DecidableEq

namespace Double

/-- The value in units of `2⁻¹⁰⁷⁴`. Both zeros have the value zero. -/
def units (d : Double) : Int := if d.negative then -d.scaled else d.scaled

/-- The comparison `<` of two finite floats. -/
def lt (a b : Double) : Bool := a.units < b.units

/-- The comparison `==` of two finite floats. -/
def eq (a b : Double) : Bool := a.units = b.units

/-- `n` rounded to 53 significant bits, to the nearest and from a tie to the even one. -/
def roundEven (n : Nat) : Nat :=
  let unit := 2 ^ (n.log2 - 52)
  let low := n % unit
  if 2 * low < unit ∨ 2 * low = unit ∧ n / unit % 2 = 0 then n / unit * unit
  else (n / unit + 1) * unit

theorem div_unit_lt (n : Nat) : n / 2 ^ (n.log2 - 52) < 2 ^ 53 := by
  rw [Nat.div_lt_iff_lt_mul (by positivity), ← pow_add]
  calc n < 2 ^ (n.log2 + 1) := Nat.lt_log2_self
    _ ≤ 2 ^ (53 + (n.log2 - 52)) := Nat.pow_le_pow_right (by norm_num) (by omega)

theorem roundEven_fits {n : Nat} (hn : n < 2 ^ 64) :
    ∃ mantissa exponent, mantissa < 2 ^ 53 ∧ exponent ≤ 2045 ∧
      roundEven n * 2 ^ 1074 = mantissa * 2 ^ exponent := by
  have hlog : n.log2 < 64 := by
    by_cases h0 : n = 0
    · subst h0
      simp
    · exact (Nat.log2_lt h0).mpr hn
  have hq := div_unit_lt n
  unfold roundEven
  dsimp only
  split
  · refine ⟨n / 2 ^ (n.log2 - 52), n.log2 - 52 + 1074, hq, by omega, ?_⟩
    rw [mul_assoc, ← pow_add]
  · by_cases hcarry : n / 2 ^ (n.log2 - 52) + 1 < 2 ^ 53
    · refine ⟨n / 2 ^ (n.log2 - 52) + 1, n.log2 - 52 + 1074, hcarry, by omega, ?_⟩
      rw [mul_assoc, ← pow_add]
    · -- the carry makes it the next power of two
      have hq' : n / 2 ^ (n.log2 - 52) + 1 = 2 ^ 53 := by omega
      refine ⟨2 ^ 52, n.log2 - 52 + 1075, by norm_num, by omega, ?_⟩
      have hexp : 53 + (n.log2 - 52 + 1074) = 52 + (n.log2 - 52 + 1075) := by omega
      rw [hq', mul_assoc, ← pow_add, ← pow_add, ← pow_add, hexp]

/-- An integer of at most 64 bits `as f64`. -/
def ofMagnitude (negative : Bool) (n : Fin (2 ^ 64)) : Double :=
  ⟨negative, roundEven n * 2 ^ 1074, roundEven_fits n.isLt⟩

end Double

/-- `serde_json::Number`: `negInt n` is the integer `-(n + 1)`. -/
inductive Number where
  | posInt (n : Fin (2 ^ 64))
  | negInt (n : Fin (2 ^ 63))
  | float (d : Double)
  deriving DecidableEq

namespace Number

/-- `Number::as_u64`. -/
def asU64 : Number → Option Nat
  | .posInt n => some n
  | .negInt _ => none
  | .float _ => none

/-- `Number::as_i64`. -/
def asI64 : Number → Option Int
  | .posInt n => if n.val < 2 ^ 63 then some n else none
  | .negInt n => some (-(n + 1))
  | .float _ => none

/-- `Number::as_f64`. -/
def asF64 : Number → Double
  | .posInt n => .ofMagnitude false n
  | .negInt n => .ofMagnitude true ⟨n + 1, by omega⟩
  | .float d => d

/-- `PartialEq` of numbers: integers and floats are never equal. -/
def eq : Number → Number → Bool
  | .posInt n, .posInt m => n = m
  | .negInt n, .negInt m => n = m
  | .float a, .float b => a.eq b
  | _, _ => false

end Number

/-! ## Values -/

/-- `serde_json::Value`. -/
inductive Value where
  | null
  | bool (value : Bool)
  | number (value : Number)
  | string (value : String)
  | array (items : List Value)
  | object (entries : List (String × Value))

namespace Value

/-- Induction over a value and everything inside it. -/
theorem induct {P : Value → Prop} (null : P .null) (bool : ∀ b, P (.bool b))
    (number : ∀ n, P (.number n)) (string : ∀ s, P (.string s))
    (array : ∀ items, (∀ v ∈ items, P v) → P (.array items))
    (object : ∀ entries, (∀ e ∈ entries, P e.2) → P (.object entries)) : ∀ v, P v := by
  refine @Value.rec P (fun items => ∀ v ∈ items, P v) (fun entries => ∀ e ∈ entries, P e.2)
    (fun e => P e.2) null bool number string array object ?_ ?_ ?_ ?_ ?_
  · simp
  · intro v items hv hitems
    simpa using ⟨hv, hitems⟩
  · simp
  · intro e entries he hentries
    exact List.forall_mem_cons.mpr ⟨he, hentries⟩
  · intro key v hv
    exact hv

end Value

mutual

/-- `Value::eq`. Objects are compared as maps. -/
def Value.eq : Value → Value → Bool
  | .null, .null => true
  | .bool a, .bool b => a = b
  | .number a, .number b => a.eq b
  | .string a, .string b => a = b
  | .array xs, .array ys => Value.eqItems xs ys
  | .object xs, .object ys => xs.length = ys.length && Value.eqEntries xs ys
  | _, _ => false

def Value.eqItems : List Value → List Value → Bool
  | [], [] => true
  | x :: xs, y :: ys => x.eq y && Value.eqItems xs ys
  | _, _ => false

def Value.eqEntries : List (String × Value) → List (String × Value) → Bool
  | [], _ => true
  | (key, x) :: xs, ys =>
    match ys.lookup key with
    | some y => x.eq y && Value.eqEntries xs ys
    | none => false

end

/-! ## The same value -/

def keyOrder {α : Type} (a b : String × α) : Prop := utf8 a.1 ≤ utf8 b.1

instance {α : Type} : DecidableRel (keyOrder (α := α)) :=
  fun a b => inferInstanceAs (Decidable (utf8 a.1 ≤ utf8 b.1))

/-- `entries.sort_unstable_by_key(|(key, _)| *key)`. -/
def sortByKey {α : Type} (entries : List (String × α)) : List (String × α) :=
  entries.insertionSort keyOrder

theorem sortByKey_map {α β : Type} (f : α → β) (entries : List (String × α)) :
    sortByKey (entries.map fun e => (e.1, f e.2)) =
      (sortByKey entries).map fun e => (e.1, f e.2) :=
  (List.map_insertionSort keyOrder keyOrder (fun e => (e.1, f e.2)) entries
    fun _ _ _ _ => Iff.rfl).symm

mutual

/-- The same JSON value, up to the order of the entries of its objects. -/
inductive Same : Value → Value → Prop where
  | null : Same .null .null
  | bool (b : Bool) : Same (.bool b) (.bool b)
  | number (n : Number) : Same (.number n) (.number n)
  | string (s : String) : Same (.string s) (.string s)
  | array {xs ys : List Value} (items : List.Forall₂ Same xs ys) : Same (.array xs) (.array ys)
  | object {xs ys zs : List (String × Value)} (entries : List.Forall₂ SameEntry xs zs)
      (order : zs.Perm ys) : Same (.object xs) (.object ys)

inductive SameEntry : String × Value → String × Value → Prop where
  | mk (key : String) {v w : Value} (value : Same v w) : SameEntry (key, v) (key, w)

end

theorem Same.object_of_sorted {xs ys : List (String × Value)}
    (h : List.Forall₂ SameEntry (sortByKey xs) (sortByKey ys)) :
    Same (.object xs) (.object ys) := by
  have hxs : xs.Perm (sortByKey xs) := (List.perm_insertionSort keyOrder xs).symm
  have hys : (sortByKey ys).Perm ys := List.perm_insertionSort keyOrder ys
  obtain ⟨zs, hxz, hzs⟩ := List.perm_comp_forall₂ hxs h
  exact .object hxz (hzs.trans hys)

/-! ## Text of integers and strings -/

/-- The digits of `n` in decimal. -/
def decimal (n : Nat) : Bytes :=
  if n = 0 then [0x30] else (Nat.digits 10 n).reverse.map fun d => UInt8.ofNat (0x30 + d)

theorem decimal_digits (n : Nat) : ∀ b ∈ decimal n, 0x30 ≤ b ∧ b ≤ 0x39 := by
  intro b hb
  unfold decimal at hb
  split at hb
  · simp only [List.mem_singleton] at hb
    subst hb
    decide
  · simp only [List.mem_map, List.mem_reverse] at hb
    obtain ⟨d, hd, rfl⟩ := hb
    have hlt : d < 10 := Nat.digits_lt_base (by norm_num) hd
    simp only [UInt8.le_iff_toNat_le, UInt8.toNat_ofNat']
    constructor
    · show 48 ≤ _
      omega
    · show _ ≤ 57
      omega

theorem decimal_ne_nil (n : Nat) : decimal n ≠ [] := by
  unfold decimal
  split
  · simp
  · rename_i hn
    simpa [Nat.digits_eq_nil_iff_eq_zero] using hn

def decimalValue (text : Bytes) : Nat := text.foldl (fun value b => value * 10 + (b.toNat - 0x30)) 0

theorem decimalValue_decimal (n : Nat) : decimalValue (decimal n) = n := by
  -- the digits are written from the last one, so the fold over the text is `ofDigits`
  have key : ∀ digits : List Nat, (∀ d ∈ digits, d < 10) →
      decimalValue (digits.reverse.map fun d => UInt8.ofNat (0x30 + d)) =
        Nat.ofDigits 10 digits := by
    intro digits hdigits
    induction digits with
    | nil => rfl
    | cons d digits ih =>
      obtain ⟨hd, hrest⟩ := List.forall_mem_cons.mp hdigits
      have hbyte : (UInt8.ofNat (0x30 + d)).toNat = 0x30 + d := by
        rw [UInt8.toNat_ofNat']
        omega
      have ih' := ih hrest
      unfold decimalValue at ih' ⊢
      rw [List.reverse_cons, List.map_append, List.foldl_append, ih', Nat.ofDigits_cons,
        List.map_singleton, List.foldl_cons, List.foldl_nil, hbyte]
      omega
  unfold decimal
  split
  · rename_i hn
    rw [hn]
    rfl
  · rw [key _ (fun d hd => Nat.digits_lt_base (by norm_num) hd), Nat.ofDigits_digits]

theorem decimal_inj {n m : Nat} (h : decimal n = decimal m) : n = m := by
  rw [← decimalValue_decimal n, h, decimalValue_decimal]

theorem decimal_ne_minus (n : Nat) (r : Bytes) : decimal n ≠ 0x2d :: r := by
  intro h
  have := decimal_digits n 0x2d (by rw [h]; exact List.mem_cons_self)
  exact absurd this.1 (by decide)

def hexDigit (n : UInt8) : UInt8 := if n < 10 then 0x30 + n else 0x61 + (n - 10)

/-- How `serde_json` writes one byte of a string. -/
def escapeByte (b : UInt8) : Bytes :=
  if b = 0x22 ∨ b = 0x5c then [0x5c, b]
  else if b = 0x08 then [0x5c, 0x62]
  else if b = 0x09 then [0x5c, 0x74]
  else if b = 0x0a then [0x5c, 0x6e]
  else if b = 0x0c then [0x5c, 0x66]
  else if b = 0x0d then [0x5c, 0x72]
  else if b < 0x20 then [0x5c, 0x75, 0x30, 0x30, hexDigit (b >>> 4), hexDigit (b &&& 0x0f)]
  else [b]

/-- `serde_json::to_string` on a string. -/
def quote (s : String) : Bytes := 0x22 :: ((utf8 s).flatMap escapeByte ++ [0x22])

def hexValue (c : UInt8) : UInt8 := if c ≤ 0x39 then c - 0x30 else c - 0x61 + 10

def unescape : Bytes → UInt8
  | 0x5c :: 0x75 :: _ :: _ :: high :: low :: _ => hexValue high <<< 4 ||| hexValue low
  | 0x5c :: 0x62 :: _ => 0x08
  | 0x5c :: 0x74 :: _ => 0x09
  | 0x5c :: 0x6e :: _ => 0x0a
  | 0x5c :: 0x66 :: _ => 0x0c
  | 0x5c :: 0x72 :: _ => 0x0d
  | 0x5c :: b :: _ => b
  | b :: _ => b
  | [] => 0

theorem hexDigits_value {b : UInt8} (h : b < 0x20) :
    hexValue (hexDigit (b >>> 4)) <<< 4 ||| hexValue (hexDigit (b &&& 0x0f)) = b := by
  have hall : ∀ n : Fin 32, hexValue (hexDigit (UInt8.ofNat n >>> 4)) <<< 4 |||
      hexValue (hexDigit (UInt8.ofNat n &&& 0x0f)) = UInt8.ofNat n := by decide
  have := hall ⟨b.toNat, UInt8.lt_iff_toNat_lt.mp h⟩
  simpa using this

theorem unescape_escapeByte (b : UInt8) (r : Bytes) : unescape (escapeByte b ++ r) = b := by
  unfold escapeByte
  split_ifs with hq h8 h9 ha hc hd hlow
  · rcases hq with rfl | rfl <;> rfl
  · exact h8.symm
  · exact h9.symm
  · exact ha.symm
  · exact hc.symm
  · exact hd.symm
  · exact hexDigits_value hlow
  · have : b ≠ 0x5c := fun h => hq (.inr h)
    simp [unescape, this]

theorem escapeByte_ne_quote (b : UInt8) (r s : Bytes) : escapeByte b ++ r ≠ 0x22 :: s := by
  intro h
  have hhead : (escapeByte b ++ r).head? = some 0x22 := by rw [h]; rfl
  have hb : b = 0x22 := by
    have := unescape_escapeByte b r
    rw [h] at this
    exact this.symm
  subst hb
  cases hhead

theorem quote_append_inj {a b : String} {r s : Bytes} (h : quote a ++ r = quote b ++ s) :
    a = b ∧ r = s := by
  simp only [quote, List.cons_append, List.append_assoc, List.cons.injEq, true_and] at h
  obtain ⟨hbytes, hrs⟩ :=
    (PrefixFree.of_read unescape_escapeByte).flatMap_inj escapeByte_ne_quote h
  exact ⟨utf8_inj hbytes, hrs⟩

/-! ## Length of texts -/

theorem length_utf8 (s : String) : (utf8 s).length = s.utf8ByteSize := by
  simp [utf8]

theorem length_escapeByte_le (b : UInt8) : (escapeByte b).length ≤ 6 := by
  unfold escapeByte
  split_ifs <;> simp

/-- A text of bytes that are each written in at most `k` bytes. -/
theorem length_quote_le {k : Nat} {s : String} (h : ∀ b ∈ utf8 s, (escapeByte b).length ≤ k) :
    (quote s).length ≤ k * s.utf8ByteSize + 2 := by
  have hbytes : ∀ bytes : Bytes, (∀ b ∈ bytes, (escapeByte b).length ≤ k) →
      (bytes.flatMap escapeByte).length ≤ k * bytes.length := by
    intro bytes hbytes
    induction bytes with
    | nil => exact Nat.zero_le _
    | cons b bytes ih =>
      have hfirst := hbytes b List.mem_cons_self
      have hrest := ih fun c hc => hbytes c (List.mem_cons_of_mem _ hc)
      rw [List.flatMap_cons, List.length_append, List.length_cons, Nat.mul_succ]
      omega
  have hall := hbytes (utf8 s) h
  rw [length_utf8] at hall
  unfold quote
  rw [List.length_cons, List.length_append, List.length_singleton]
  omega

theorem length_decimal_le {n k : Nat} (hk : 0 < k) (h : n < 10 ^ k) : (decimal n).length ≤ k := by
  unfold decimal
  split
  · exact hk
  · rw [List.length_map, List.length_reverse]
    exact (Nat.digits_length_le_iff (by norm_num) n).mpr h

def Numeric (b : UInt8) : Prop :=
  (0x30 ≤ b ∧ b ≤ 0x39) ∨ b = 0x2d ∨ b = 0x2b ∨ b = 0x2e ∨ b = 0x65 ∨ b = 0x45

instance : DecidablePred Numeric := fun _ => inferInstanceAs (Decidable (_ ∨ _))

/-- What follows a value in a canonical text does not go on as a number. -/
abbrev Stops : Bytes → Prop := StopsAt Numeric

theorem stops_cons {b : UInt8} (hb : ¬ Numeric b) (r : Bytes) : Stops (b :: r) := by
  intro c hc
  cases hc
  exact hb

/-- What the first byte of a value's text tells. -/
inductive Kind where
  | null | yes | no | number | string | array | object

def Value.kind : Value → Kind
  | .null => .null
  | .bool b => if b then .yes else .no
  | .number _ => .number
  | .string _ => .string
  | .array _ => .array
  | .object _ => .object

def kindOf (b : UInt8) : Kind :=
  if b = 0x6e then .null
  else if b = 0x74 then .yes
  else if b = 0x66 then .no
  else if b = 0x22 then .string
  else if b = 0x5b then .array
  else if b = 0x7b then .object
  else .number

theorem Numeric.kindOf {b : UInt8} (h : Numeric b) : kindOf b = .number := by
  have hne : ∀ c : UInt8, ¬ Numeric c → b ≠ c := fun c hc hbc => hc (hbc ▸ h)
  unfold Tools.kindOf
  rw [if_neg (hne _ (by decide)), if_neg (hne _ (by decide)), if_neg (hne _ (by decide)),
    if_neg (hne _ (by decide)), if_neg (hne _ (by decide)), if_neg (hne _ (by decide))]

/-! ## Text of values -/

/-- What the code uses of the library that writes floats. -/
class FloatText where
  text : Double → Bytes
  text_injective : Function.Injective text
  text_numeric : ∀ d, ∀ b ∈ text d, Numeric b
  text_marked : ∀ d, 0x2e ∈ text d ∨ 0x65 ∈ text d

variable [FloatText]

/-- `Number::to_string`. -/
def Number.text : Number → Bytes
  | .posInt n => decimal n
  | .negInt n => 0x2d :: decimal (n + 1)
  | .float d => FloatText.text d

def writeEntry (entry : String × Bytes) : Bytes := quote entry.1 ++ 0x3a :: entry.2

mutual

/-- A value as text; `order` arranges the entries of an object. The values of the entries
are written before they are arranged, which is the same as after it since only the
keys decide. -/
def write (order : List (String × Bytes) → List (String × Bytes)) : Value → Bytes
  | .null => utf8 "null"
  | .bool b => utf8 (if b then "true" else "false")
  | .number n => n.text
  | .string s => quote s
  | .array items => 0x5b :: (separated 0x2c id (writeItems order items) ++ [0x5d])
  | .object entries =>
    0x7b :: (separated 0x2c writeEntry (order (writeEntries order entries)) ++ [0x7d])

def writeItems (order : List (String × Bytes) → List (String × Bytes)) :
    List Value → List Bytes
  | [] => []
  | item :: items => write order item :: writeItems order items

def writeEntries (order : List (String × Bytes) → List (String × Bytes)) :
    List (String × Value) → List (String × Bytes)
  | [] => []
  | (key, item) :: entries => (key, write order item) :: writeEntries order entries

end

/-- `serde_json::to_vec`. -/
def toVec (value : Value) : Bytes := write id value

def canonicalJson (value : Value) : Bytes := write sortByKey value

/-! ## Numbers read back -/

theorem Number.text_numeric (n : Number) : ∀ b ∈ n.text, Numeric b := by
  intro b hb
  cases n with
  | posInt n => exact .inl (decimal_digits _ b hb)
  | negInt n =>
    rcases List.mem_cons.mp hb with rfl | hb
    · exact .inr (.inl rfl)
    · exact .inl (decimal_digits _ b hb)
  | float d => exact FloatText.text_numeric d b hb

theorem decimal_ne_float (sign : Bytes) (hsign : ∀ b ∈ sign, b = 0x2d) (n : Nat) (d : Double) :
    sign ++ decimal n ≠ FloatText.text d := by
  intro h
  have plain : ∀ b ∈ FloatText.text d, b ≠ 0x2e ∧ b ≠ 0x65 := by
    intro b hb
    rw [← h, List.mem_append] at hb
    rcases hb with hb | hb
    · rw [hsign b hb]
      decide
    · obtain ⟨-, hle⟩ := decimal_digits n b hb
      constructor
      · rintro rfl
        exact absurd (decimal_digits n _ hb).1 (by decide)
      · rintro rfl
        exact absurd hle (by decide)
  rcases FloatText.text_marked d with hm | hm
  · exact (plain _ hm).1 rfl
  · exact (plain _ hm).2 rfl

theorem Number.text_inj {n m : Number} (h : n.text = m.text) : n = m := by
  have minus : ∀ b ∈ [(0x2d : UInt8)], b = 0x2d := by simp
  have none : ∀ b ∈ ([] : Bytes), b = 0x2d := by simp
  cases n with
  | posInt n =>
    cases m with
    | posInt m => rw [Fin.ext (decimal_inj h)]
    | negInt m => exact absurd h (decimal_ne_minus _ _)
    | float d => exact absurd h (decimal_ne_float [] none _ d)
  | negInt n =>
    cases m with
    | posInt m => exact absurd h.symm (decimal_ne_minus _ _)
    | negInt m =>
      have := decimal_inj (List.cons.inj h).2
      rw [Fin.ext (Nat.succ.inj this)]
    | float d => exact absurd h (decimal_ne_float [0x2d] minus _ d)
  | float d =>
    cases m with
    | posInt m => exact absurd h.symm (decimal_ne_float [] none _ d)
    | negInt m => exact absurd h.symm (decimal_ne_float [0x2d] minus _ d)
    | float e => rw [FloatText.text_injective h]

theorem Number.text_ne_nil (n : Number) : n.text ≠ [] := by
  cases n with
  | posInt n => exact decimal_ne_nil _
  | negInt n => exact List.cons_ne_nil _ _
  | float d =>
    intro h
    have hd : FloatText.text d = [] := h
    have := FloatText.text_marked d
    rw [hd] at this
    simp at this

/-! ## Values read back -/

theorem writeItems_eq (order : List (String × Bytes) → List (String × Bytes))
    (items : List Value) : writeItems order items = items.map (write order) := by
  induction items with
  | nil => rfl
  | cons item items ih => rw [writeItems, ih, List.map_cons]

theorem writeEntries_eq (order : List (String × Bytes) → List (String × Bytes))
    (entries : List (String × Value)) :
    writeEntries order entries = entries.map fun e => (e.1, write order e.2) := by
  induction entries with
  | nil => rfl
  | cons e entries ih =>
    obtain ⟨key, item⟩ := e
    rw [writeEntries, ih, List.map_cons]

def canonicalEntry (e : String × Value) : Bytes := quote e.1 ++ 0x3a :: canonicalJson e.2

theorem canonicalJson_array (items : List Value) :
    canonicalJson (.array items) = 0x5b :: (separated 0x2c canonicalJson items ++ [0x5d]) := by
  show write sortByKey _ = _
  rw [write, writeItems_eq, separated_map]
  rfl

theorem canonicalJson_object (entries : List (String × Value)) :
    canonicalJson (.object entries) =
      0x7b :: (separated 0x2c canonicalEntry (sortByKey entries) ++ [0x7d]) := by
  show write sortByKey _ = _
  rw [write, writeEntries_eq, sortByKey_map, separated_map]
  rfl

theorem canonicalJson_kind (v : Value) : ∃ b r, canonicalJson v = b :: r ∧ kindOf b = v.kind := by
  cases v with
  | null => exact ⟨_, _, rfl, rfl⟩
  | bool x => cases x <;> exact ⟨_, _, rfl, rfl⟩
  | number n =>
    show ∃ b r, n.text = b :: r ∧ kindOf b = .number
    cases htext : n.text with
    | nil => exact absurd htext n.text_ne_nil
    | cons b r =>
      have hb : Numeric b := n.text_numeric b (by rw [htext]; exact List.mem_cons_self)
      exact ⟨b, r, rfl, hb.kindOf⟩
  | string s => exact ⟨_, _, rfl, rfl⟩
  | array items => exact ⟨_, _, canonicalJson_array items, rfl⟩
  | object entries => exact ⟨_, _, canonicalJson_object entries, rfl⟩

theorem kind_eq_of_append {v w : Value} {r s : Bytes}
    (h : canonicalJson v ++ r = canonicalJson w ++ s) : v.kind = w.kind := by
  obtain ⟨b, t, hv, hb⟩ := canonicalJson_kind v
  obtain ⟨c, u, hw, hc⟩ := canonicalJson_kind w
  rw [hv, hw] at h
  rw [← hb, ← hc, (List.cons.inj h).1]

theorem canonicalJson_ne_close (v : Value) (r s : Bytes) : canonicalJson v ++ r ≠ 0x5d :: s := by
  obtain ⟨b, t, hv, hb⟩ := canonicalJson_kind v
  intro h
  rw [hv] at h
  cases (List.cons.inj h).1
  -- a closing bracket would be read as a number, and it is not in one
  cases v with
  | number n =>
    have := n.text_numeric 0x5d (by rw [show n.text = _ from hv]; exact List.mem_cons_self)
    exact absurd this (by decide)
  | bool x => cases x <;> cases hb
  | _ => cases hb

theorem canonicalEntry_ne_close (e : String × Value) (r s : Bytes) :
    canonicalEntry e ++ r ≠ 0x7d :: s := by
  intro h
  cases (List.cons.inj h).1

theorem canonicalEntry_reads {e : String × Value}
    (value : Reads Stops canonicalJson Same e.2) : Reads Stops canonicalEntry SameEntry e := by
  rintro ⟨key, w⟩ r s hr hs h
  simp only [canonicalEntry, List.append_assoc, List.cons_append] at h
  obtain ⟨hkey, h⟩ := quote_append_inj h
  obtain ⟨hvalue, hrs⟩ := value w r s hr hs (List.cons.inj h).2
  obtain ⟨key', v⟩ := e
  cases hkey
  exact ⟨.mk key' hvalue, hrs⟩

theorem canonicalJson_reads (v : Value) : Reads Stops canonicalJson Same v := by
  induction v using Value.induct with
  | null =>
    intro w r s hr hs h
    have hk := kind_eq_of_append h
    cases w with
    | null => exact ⟨.null, List.append_cancel_left h⟩
    | bool x => cases x <;> cases hk
    | _ => cases hk
  | bool x =>
    intro w r s hr hs h
    have hk := kind_eq_of_append h
    cases w with
    | bool y =>
      have hxy : x = y := by cases x <;> cases y <;> first | rfl | cases hk
      subst hxy
      exact ⟨.bool x, List.append_cancel_left h⟩
    | _ => cases x <;> cases hk
  | number n =>
    intro w r s hr hs h
    have hk := kind_eq_of_append h
    cases w with
    | number m =>
      obtain ⟨htext, hrs⟩ := span_inj n.text_numeric m.text_numeric hr hs h
      rw [Number.text_inj htext]
      exact ⟨.number m, hrs⟩
    | bool x => cases x <;> cases hk
    | _ => cases hk
  | string a =>
    intro w r s hr hs h
    have hk := kind_eq_of_append h
    cases w with
    | string b =>
      obtain ⟨rfl, hrs⟩ := quote_append_inj h
      exact ⟨.string a, hrs⟩
    | bool x => cases x <;> cases hk
    | _ => cases hk
  | array xs ih =>
    intro w r s hr hs h
    have hk := kind_eq_of_append h
    cases w with
    | array ys =>
      rw [canonicalJson_array, canonicalJson_array] at h
      simp only [List.cons_append, List.append_assoc, List.nil_append, List.cons.injEq,
        true_and] at h
      obtain ⟨hitems, hrs⟩ := separated_reads (stops_cons (by decide)) (stops_cons (by decide))
        (by decide) canonicalJson_ne_close ih h
      exact ⟨.array hitems, hrs⟩
    | bool x => cases x <;> cases hk
    | _ => cases hk
  | object xs ih =>
    intro w r s hr hs h
    have hk := kind_eq_of_append h
    cases w with
    | object ys =>
      rw [canonicalJson_object, canonicalJson_object] at h
      simp only [List.cons_append, List.append_assoc, List.nil_append, List.cons.injEq,
        true_and] at h
      have items : ∀ e ∈ sortByKey xs, Reads Stops canonicalEntry SameEntry e := by
        intro e he
        exact canonicalEntry_reads (ih e ((List.perm_insertionSort keyOrder xs).mem_iff.mp he))
      obtain ⟨hentries, hrs⟩ := separated_reads (stops_cons (by decide)) (stops_cons (by decide))
        (by decide) canonicalEntry_ne_close items h
      exact ⟨.object_of_sorted hentries, hrs⟩
    | bool x => cases x <;> cases hk
    | _ => cases hk

theorem canonicalJson_inj {v w : Value} (h : canonicalJson v = canonicalJson w) : Same v w := by
  have hstop : Stops [] := fun b hb => by cases hb
  exact (canonicalJson_reads v w [] [] hstop hstop (by rw [h])).1

/-! ## A library that meets the contract -/

def unitsBytes (d : Double) : Bytes :=
  (if d.negative then [0x2d] else []) ++ (decimal d.scaled ++ [0x65])

omit [FloatText] in
theorem decimal_append_ne_minus (n : Nat) (r s : Bytes) : decimal n ++ r ≠ 0x2d :: s := by
  intro h
  cases hdigits : decimal n with
  | nil => exact decimal_ne_nil n hdigits
  | cons b t =>
    rw [hdigits] at h
    cases (List.cons.inj h).1
    exact decimal_ne_minus n t hdigits

omit [FloatText] in
theorem unitsBytes_injective : Function.Injective unitsBytes := by
  rintro ⟨negative, scaled, fits⟩ ⟨negative', scaled', fits'⟩ h
  unfold unitsBytes at h
  cases negative <;> cases negative'
  · have := decimal_inj (List.append_cancel_right h)
    subst this
    rfl
  · exact absurd h (decimal_append_ne_minus _ _ _)
  · exact absurd h.symm (decimal_append_ne_minus _ _ _)
  · have := decimal_inj (List.append_cancel_right (List.cons.inj h).2)
    subst this
    rfl

omit [FloatText] in
theorem unitsBytes_numeric (d : Double) : ∀ b ∈ unitsBytes d, Numeric b := by
  intro b hb
  unfold unitsBytes at hb
  rcases List.mem_append.mp hb with hb | hb
  · cases hneg : d.negative with
    | false => rw [hneg] at hb; cases hb
    | true =>
      rw [hneg] at hb
      exact .inr (.inl (List.mem_singleton.mp hb))
  · rcases List.mem_append.mp hb with hb | hb
    · exact .inl (decimal_digits _ b hb)
    · exact .inr (.inr (.inr (.inr (.inl (List.mem_singleton.mp hb)))))

@[reducible] def unitsText : FloatText where
  text := unitsBytes
  text_injective := unitsBytes_injective
  text_numeric := unitsBytes_numeric
  text_marked _ := .inr (List.mem_append_right _ (List.mem_append_right _ List.mem_cons_self))

end Lorepia.Tools
