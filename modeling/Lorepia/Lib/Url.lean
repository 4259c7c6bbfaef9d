import Mathlib
import Lorepia.Lib.Code

/-!
# URLs of the scheme `https`

The parser of the URL standard for absolute URLs of a special scheme with one default port. It
drops tabs and line breaks, takes back slashes for slashes, resolves dot segments and encodes
what may not stand in a path or a query.

The host parser (percent decoding, internationalised names, addresses) and the parser of the
other schemes are parameters. What is assumed about them is in `Parser`: a name of plain
characters is kept as it is if it is accepted, and it is accepted if no label of it is encoded.

`parse_plain` is the rule for texts of plain characters: nothing in them moves.
-/

namespace Lorepia.Https

inductive Host where
  | domain (name : String)
  /-- An address, in its text form. -/
  | address (text : String)
  deriving DecidableEq

structure Url where
  scheme : String
  username : String
  password : Option String
  host : Option Host
  port : Option Nat
  path : String
  query : Option String
  fragment : Option String
  deriving DecidableEq

def Host.text : Host → String
  | domain name => name
  | address text => text

def defaultPort (scheme : String) : Option Nat :=
  if scheme = "https" ∨ scheme = "wss" then some 443
  else if scheme = "http" ∨ scheme = "ws" then some 80
  else if scheme = "ftp" then some 21
  else none

def Url.portOrKnownDefault (url : Url) : Option Nat := url.port.or (defaultPort url.scheme)

/-! ## Characters -/

/-- Letters and digits of ASCII, `-`, `_` and `.`. -/
def isPlain (c : Char) : Bool := c.isAlphanum || c = '-' || c = '_' || c = '.'

def isPlainLower (c : Char) : Bool := c.isLower || c.isDigit || c = '-' || c = '_' || c = '.'

def labels (name : List Char) : List (List Char) := name.splitOn '.'

def IsName (name : List Char) : Prop :=
  name.all isPlainLower = true ∧ ((labels name).getLast?.bind List.head?).any Char.isLower = true

instance (name : List Char) : Decidable (IsName name) := inferInstanceAs (Decidable (_ ∧ _))

def isEncodedLabel (label : List Char) : Bool := label.take 4 = ['x', 'n', '-', '-']

structure Parser where
  host : List Char → Option Host
  host_kept : ∀ name h, IsName name → host name = some h → h = .domain (String.ofList name)
  host_accepted : ∀ name, IsName name → (∀ label ∈ labels name, isEncodedLabel label = false) →
    host name = some (.domain (String.ofList name))
  /-- The URLs of other schemes. -/
  other : List Char → Option Url
  other_scheme : ∀ text url, other text = some url → url.scheme ≠ "https"

def hexDigit (n : Nat) : Char := Char.ofNat (if n < 10 then 48 + n else 55 + n)

def percentByte (b : UInt8) : List Char := ['%', hexDigit (b.toNat / 16), hexDigit (b.toNat % 16)]

def percentEncode (set : Char → Bool) (text : List Char) : List Char :=
  text.flatMap fun c => if set c then (String.utf8EncodeChar c).flatMap percentByte else [c]

def isControl (c : Char) : Bool := c.toNat < 0x20 || 0x7e < c.toNat

def fragmentSet (c : Char) : Bool := isControl c || [' ', '"', '<', '>', '\x60'].contains c

def querySet (c : Char) : Bool := isControl c || [' ', '"', '#', '<', '>', '\x27'].contains c

def pathSet (c : Char) : Bool :=
  isControl c || [' ', '"', '#', '<', '>', '?', '^', '\x60', '\x7b', '\x7d'].contains c

def userinfoSet (c : Char) : Bool :=
  pathSet c || ['/', ':', ';', '=', '@', '[', '\\', ']', '|'].contains c

/-! ## Parts -/

def isSlash (c : Char) : Bool := c = '/' || c = '\\'

def endsAuthority (c : Char) : Bool := isSlash c || c = '?' || c = '#'

/-- The text without blanks around it and without tabs and line breaks. -/
def clean (text : List Char) : List Char :=
  let blank (c : Char) : Bool := c.toNat ≤ 0x20
  ((text.dropWhile blank).reverse.dropWhile blank).reverse.filter fun c =>
    !(['\t', '\n', '\r'].contains c)

def isSchemeChar (c : Char) : Bool := c.isAlphanum || c = '+' || c = '-' || c = '.'

def splitScheme (text : List Char) : Option (List Char × List Char) :=
  let name := text.takeWhile isSchemeChar
  match text.head?, text.drop name.length with
  | some first, ':' :: rest => if first.isAlpha then some (name.map Char.toLower, rest) else none
  | _, _ => none

/-- The host and the port; a colon between brackets belongs to the host. -/
def splitPort : Bool → List Char → List Char × Option (List Char)
  | _, [] => ([], none)
  | inside, c :: rest =>
    if c = ':' ∧ inside = false then ([], some rest)
    else
      let (host, port) := splitPort (c = '[' ∨ (inside ∧ c ≠ ']')) rest
      (c :: host, port)

def parsePort (default : Nat) : Option (List Char) → Option (Option Nat)
  | none => some none
  | some digits =>
    let value := digits.foldl (fun n c => n * 10 + (c.toNat - 48)) 0
    if digits.all Char.isDigit = false ∨ 65535 < value then none
    else if digits = [] ∨ value = default then some none
    else some (some value)

/-- User name and password, before the last `@` of the authority. -/
def parseUserinfo (userinfo : List Char) : List Char × Option (List Char) :=
  let password := (userinfo.dropWhile (· ≠ ':')).tail
  (percentEncode userinfoSet (userinfo.takeWhile (· ≠ ':')),
    if password = [] then none else some (percentEncode userinfoSet password))

def splitAuthority (authority : List Char) : List Char × List Char :=
  let host := (authority.reverse.takeWhile (· ≠ '@')).reverse
  (authority.take (authority.length - host.length - 1), host)

def isSingleDot (segment : List Char) : Bool :=
  [['.'], ['%', '2', 'e']].contains (segment.map Char.toLower)

def isDoubleDot (segment : List Char) : Bool :=
  [['.', '.'], ['.', '%', '2', 'e'], ['%', '2', 'e', '.'],
    ['%', '2', 'e', '%', '2', 'e']].contains (segment.map Char.toLower)

/-- The path state: dot segments are resolved against the segments before them. -/
def resolve : List (List Char) → List (List Char) → List (List Char)
  | done, [] => done
  | done, segment :: rest =>
    if isDoubleDot segment then resolve (done.dropLast ++ if rest = [] then [[]] else []) rest
    else if isSingleDot segment then resolve (done ++ if rest = [] then [[]] else []) rest
    else resolve (done ++ [percentEncode pathSet segment]) rest

def pathText (segments : List (List Char)) : List Char := segments.flatMap ('/' :: ·)

def parsePath (text : List Char) : List Char :=
  pathText (resolve [] (text.tail.splitOnP isSlash))

/-! ## The parser -/

/-- The text after the scheme `https`. -/
def Parser.parseHttps (P : Parser) (text : List Char) : Option Url :=
  let text := text.dropWhile isSlash
  let authority := text.takeWhile fun c => !endsAuthority c
  let rest := text.dropWhile fun c => !endsAuthority c
  let (userinfo, hostPort) := splitAuthority authority
  let (username, password) := parseUserinfo userinfo
  let (host, port) := splitPort false hostPort
  let query := (rest.dropWhile fun c => c ≠ '?' && c ≠ '#').takeWhile (· ≠ '#')
  let fragment := rest.dropWhile (· ≠ '#')
  if host = [] then none
  else do
    let host ← P.host host
    let port ← parsePort 443 port
    some
      { scheme := "https"
        username := String.ofList username
        password := password.map String.ofList
        host := some host
        port
        path := String.ofList (parsePath (rest.takeWhile fun c => c ≠ '?' && c ≠ '#'))
        query := if query = [] then none else some (String.ofList (percentEncode querySet query.tail))
        fragment :=
          if fragment = [] then none else some (String.ofList (percentEncode fragmentSet fragment.tail)) }

def Parser.parse (P : Parser) (text : String) : Option Url := do
  let (scheme, rest) ← splitScheme (clean text.toList)
  if scheme = ['h', 't', 't', 'p', 's'] then P.parseHttps rest else P.other (clean text.toList)

/-! ## Keys of a query -/

def hexValue (c : Char) : Option Nat :=
  if c.isDigit then some (c.toNat - 48)
  else if 'a' ≤ c ∧ c ≤ 'f' then some (c.toNat - 87)
  else if 'A' ≤ c ∧ c ≤ 'F' then some (c.toNat - 55)
  else none

/-- The bytes of an ASCII text, of which `%XX` is one. -/
def percentDecode : List Char → List UInt8
  | [] => []
  | [c] => [UInt8.ofNat c.toNat]
  | [c, d] => [UInt8.ofNat c.toNat, UInt8.ofNat d.toNat]
  | c :: d :: e :: rest =>
    match c, hexValue d, hexValue e with
    | '%', some high, some low => UInt8.ofNat (high * 16 + low) :: percentDecode rest
    | _, _, _ => UInt8.ofNat c.toNat :: percentDecode (d :: e :: rest)

def queryKeys (query : List Char) : List (List UInt8) :=
  ((query.splitOn '&').filter (· ≠ [])).map fun pair =>
    percentDecode ((pair.takeWhile (· ≠ '=')).map fun c => if c = '+' then ' ' else c)

/-! ## Texts of plain characters -/

def isTextChar (c : Char) : Bool := isPlain c || c = ':' || c = '='

/-- A segment that is kept: its characters stand for themselves, and it is not a dot segment. -/
structure IsSegment (segment : List Char) : Prop where
  chars : ∀ c ∈ segment, isTextChar c = true
  single : segment ≠ ['.']
  double : segment ≠ ['.', '.']

instance (segment : List Char) : Decidable (IsSegment segment) :=
  decidable_of_iff (segment.all isTextChar = true ∧ segment ≠ ['.'] ∧ segment ≠ ['.', '.'])
    ⟨fun h => ⟨List.all_eq_true.mp h.1, h.2.1, h.2.2⟩,
      fun h => ⟨List.all_eq_true.mpr h.chars, h.single, h.double⟩⟩

/-- What the parser looks for is not in a plain text. -/
structure Inert (c : Char) : Prop where
  visible : 0x20 < c.toNat
  noSlash : isSlash c = false
  noQuery : c ≠ '?'
  noFragment : c ≠ '#'
  noAt : c ≠ '@'
  path : pathSet c = false
  query : querySet c = false
  noPercent : c.toLower ≠ '%'
  dot : c.toLower = '.' → c = '.'

theorem isName_append {front label : List Char} (hall : ∀ c ∈ front ++ '.' :: label, isPlainLower c = true)
    (hdot : '.' ∉ label) (hhead : label.head?.any Char.isLower = true) :
    IsName (front ++ '.' :: label) := by
  refine ⟨List.all_eq_true.mpr hall, ?_⟩
  rw [labels, List.splitOn_append_cons_self, List.splitOn_eq_singleton hdot]
  simpa using hhead

theorem toNat_of_isTextChar {c : Char} (h : isTextChar c = true) : c.toNat < 128 := by
  have hle : ∀ d : Char, d.toNat < 128 → c.val ≤ d.val → c.toNat < 128 := fun d hd hcd =>
    lt_of_le_of_lt (UInt32.le_iff_toNat_le.mp hcd) hd
  simp only [isTextChar, isPlain, Char.isAlphanum, Char.isAlpha, Char.isUpper, Char.isLower,
    Char.isDigit, Bool.or_eq_true, Bool.and_eq_true, decide_eq_true_eq] at h
  rcases h with ((((((h | h) | h) | rfl) | rfl) | rfl) | rfl) | rfl
  · exact hle 'Z' (by decide) h.2
  · exact hle 'z' (by decide) h.2
  · exact hle '9' (by decide) h.2
  all_goals decide

theorem inert_of_isTextChar {c : Char} (h : isTextChar c = true) : Inert c := by
  have hcodes : ∀ n < 128, isTextChar (Char.ofNat n) = true →
      0x20 < (Char.ofNat n).toNat ∧ isSlash (Char.ofNat n) = false ∧ Char.ofNat n ≠ '?' ∧
        Char.ofNat n ≠ '#' ∧ Char.ofNat n ≠ '@' ∧ pathSet (Char.ofNat n) = false ∧
        querySet (Char.ofNat n) = false ∧ (Char.ofNat n).toLower ≠ '%' ∧
        ((Char.ofNat n).toLower = '.' → Char.ofNat n = '.') := by
    decide
  have hc := hcodes c.toNat (toNat_of_isTextChar h)
  rw [Char.ofNat_toNat] at hc
  obtain ⟨h1, h2, h3, h4, h5, h6, h7, h8, h9⟩ := hc h
  exact ⟨h1, h2, h3, h4, h5, h6, h7, h8, h9⟩

theorem percentEncode_eq {set : Char → Bool} {text : List Char} (h : ∀ c ∈ text, set c = false) :
    percentEncode set text = text := by
  induction text with
  | nil => rfl
  | cons c rest ih =>
    rw [percentEncode, List.flatMap_cons, if_neg (by simp [h c List.mem_cons_self])]
    exact congrArg (c :: ·) (ih fun x hx => h x (List.mem_cons_of_mem _ hx))

theorem clean_eq {text : List Char} (h : ∀ c ∈ text, 0x20 < c.toNat) : clean text = text := by
  have hkeep : ∀ l : List Char, (∀ c ∈ l, 0x20 < c.toNat) →
      l.dropWhile (fun c => decide (c.toNat ≤ 0x20)) = l := by
    intro l hl
    cases l with
    | nil => rfl
    | cons c rest =>
      have hc := hl c List.mem_cons_self
      rw [List.dropWhile_cons_of_neg (by simpa using hc)]
  rw [clean, hkeep text h, hkeep text.reverse fun c hc => h c (List.mem_reverse.mp hc),
    List.reverse_reverse, List.filter_eq_self]
  intro c hc
  have hc := h c hc
  simp only [List.contains_cons, List.contains_nil, Bool.or_false, Bool.not_eq_true', Bool.or_eq_false_iff,
    beq_eq_false_iff_ne]
  refine ⟨?_, ?_, ?_⟩ <;> rintro rfl <;> revert hc <;> decide

theorem IsSegment.notDots {segment : List Char} (h : IsSegment segment) :
    isSingleDot segment = false ∧ isDoubleDot segment = false := by
  have hinert : ∀ c ∈ segment, Inert c := fun c hc => inert_of_isTextChar (h.chars c hc)
  have hlower : '%' ∉ segment.map Char.toLower := by
    intro hmem
    obtain ⟨c, hc, heq⟩ := List.mem_map.mp hmem
    exact (hinert c hc).noPercent heq
  constructor
  · rw [Bool.eq_false_iff]
    intro hdot
    simp only [isSingleDot, List.contains_iff_mem, List.mem_cons, List.not_mem_nil, or_false] at hdot
    rcases hdot with hdot | hdot
    · obtain ⟨c, rfl, hc⟩ := List.map_eq_singleton_iff.mp hdot
      exact h.single (by rw [(hinert c (by simp)).dot hc])
    · exact hlower (hdot ▸ by decide)
  · rw [Bool.eq_false_iff]
    intro hdot
    simp only [isDoubleDot, List.contains_iff_mem, List.mem_cons, List.not_mem_nil, or_false] at hdot
    rcases hdot with hdot | hdot | hdot | hdot
    · obtain ⟨c, rest, rfl, hc, hrest⟩ := List.map_eq_cons_iff.mp hdot
      obtain ⟨d, rfl, hd⟩ := List.map_eq_singleton_iff.mp hrest
      exact h.double (by rw [(hinert c (by simp)).dot hc, (hinert d (by simp)).dot hd])
    all_goals exact hlower (hdot ▸ by decide)

theorem resolve_eq {segments : List (List Char)} (h : ∀ s ∈ segments, IsSegment s)
    (done : List (List Char)) : resolve done segments = done ++ segments := by
  induction segments generalizing done with
  | nil => simp [resolve]
  | cons segment rest ih =>
    have hsegment := h segment List.mem_cons_self
    obtain ⟨hsingle, hdouble⟩ := hsegment.notDots
    rw [resolve, hsingle, hdouble, if_neg (by simp), if_neg (by simp),
      ih fun s hs => h s (List.mem_cons_of_mem _ hs),
      percentEncode_eq fun c hc => (inert_of_isTextChar (hsegment.chars c hc)).path]
    simp

theorem splitOnP_pathText {segment : List Char} {rest : List (List Char)}
    (h : ∀ s ∈ segment :: rest, IsSegment s) :
    (segment ++ pathText rest).splitOnP isSlash = segment :: rest := by
  have hsegment : ∀ c ∈ segment, isSlash c = false := fun c hc =>
    (inert_of_isTextChar ((h segment List.mem_cons_self).chars c hc)).noSlash
  induction rest generalizing segment with
  | nil =>
    rw [pathText, List.flatMap_nil, List.append_nil]
    exact List.splitOnP_eq_singleton hsegment
  | cons next rest ih =>
    have hnext := fun s hs => h s (List.mem_cons_of_mem _ hs)
    rw [pathText, List.flatMap_cons, List.cons_append,
      List.splitOnP_append_cons_of_forall_mem hsegment '/' rfl]
    exact congrArg (segment :: ·) (ih hnext fun c hc =>
      (inert_of_isTextChar ((hnext next List.mem_cons_self).chars c hc)).noSlash)

theorem parsePath_pathText {segments : List (List Char)} (h : ∀ s ∈ segments, IsSegment s)
    (hne : segments ≠ []) : parsePath (pathText segments) = pathText segments := by
  cases segments with
  | nil => exact absurd rfl hne
  | cons segment rest =>
    have htail : (pathText (segment :: rest)).tail = segment ++ pathText rest := by
      rw [pathText, List.flatMap_cons]
      rfl
    rw [parsePath, htail, splitOnP_pathText h, resolve_eq h, List.nil_append]

theorem mem_pathText {segments : List (List Char)} (h : ∀ s ∈ segments, IsSegment s) :
    ∀ c ∈ pathText segments, c = '/' ∨ isTextChar c = true := by
  intro c hc
  obtain ⟨segment, hs, hc⟩ := List.mem_flatMap.mp hc
  rcases List.mem_cons.mp hc with rfl | hc
  · exact .inl rfl
  · exact .inr ((h segment hs).chars c hc)

theorem splitPort_eq {host : List Char} (h : ∀ c ∈ host, isPlainLower c = true) :
    splitPort false host = (host, none) := by
  induction host with
  | nil => rfl
  | cons c rest ih =>
    have hc := h c List.mem_cons_self
    have hcolon : c ≠ ':' := by
      rintro rfl
      exact absurd hc (by decide)
    have hbracket : c ≠ '[' := by
      rintro rfl
      exact absurd hc (by decide)
    rw [splitPort, if_neg (by simp [hcolon])]
    simp only [hbracket, Bool.false_eq_true, false_and, or_self, decide_false]
    rw [ih fun x hx => h x (List.mem_cons_of_mem _ hx)]

theorem splitAuthority_eq {host : List Char} (h : '@' ∉ host) : splitAuthority host = ([], host) := by
  have hall : host.reverse.takeWhile (· ≠ '@') = host.reverse := by
    rw [List.takeWhile_eq_self_iff]
    intro c hc
    have : c ≠ '@' := fun heq => h (heq ▸ List.mem_reverse.mp hc)
    simpa using this
  rw [splitAuthority, hall, List.reverse_reverse]
  simp

theorem isTextChar_of_isPlainLower {c : Char} (h : isPlainLower c = true) : isTextChar c = true := by
  simp only [isPlainLower, Bool.or_eq_true, decide_eq_true_eq] at h
  simp only [isTextChar, isPlain, Char.isAlphanum, Char.isAlpha, Bool.or_eq_true, decide_eq_true_eq]
  tauto

def queryText : Option (List Char) → List Char
  | none => []
  | some query => '?' :: query

theorem mem_queryText {query : Option (List Char)} (h : ∀ q ∈ query, ∀ c ∈ q, isTextChar c = true) :
    ∀ c ∈ queryText query, c = '?' ∨ isTextChar c = true := by
  intro c hc
  cases query with
  | none => cases hc
  | some query => exact (List.mem_cons.mp hc).imp_right (h query rfl c)

theorem takeWhile_dropWhile_append {α : Type} (p : α → Bool) (before after : List α)
    (hbefore : ∀ a ∈ before, p a = true) (hafter : ∀ a ∈ after.head?, p a = false) :
    (before ++ after).takeWhile p = before ∧ (before ++ after).dropWhile p = after := by
  rw [List.takeWhile_append_of_pos hbefore, List.dropWhile_append_of_pos hbefore]
  cases after with
  | nil => simp
  | cons a rest =>
    have ha := hafter a rfl
    rw [List.takeWhile_cons_of_neg (by simp [ha]), List.dropWhile_cons_of_neg (by simp [ha])]
    simp

theorem Parser.parse_plain (P : Parser) {host : List Char} {segments : List (List Char)}
    {query : Option (List Char)} (hhost : IsName host) (hsegments : ∀ s ∈ segments, IsSegment s)
    (hne : segments ≠ []) (hquery : ∀ q ∈ query, ∀ c ∈ q, isTextChar c = true) :
    P.parse (String.ofList ("https://".toList ++ (host ++ (pathText segments ++ queryText query)))) =
      (P.host host).map fun h =>
        { scheme := "https", username := "", password := none, host := some h, port := none,
          path := String.ofList (pathText segments), query := query.map String.ofList,
          fragment := none } := by
  have hhostText : ∀ c ∈ host, isTextChar c = true := fun c hc =>
    isTextChar_of_isPlainLower (List.all_eq_true.mp hhost.1 c hc)
  have hinert : ∀ c ∈ host, Inert c := fun c hc => inert_of_isTextChar (hhostText c hc)
  have hhostne : host ≠ [] := by
    rintro rfl
    exact absurd hhost.2 (by decide)
  have htext : ∀ c ∈ pathText segments ++ queryText query, c = '/' ∨ c = '?' ∨ isTextChar c = true :=
    fun c hc => by
      rcases List.mem_append.mp hc with hc | hc
      · exact (mem_pathText hsegments c hc).imp_right .inr
      · exact .inr (mem_queryText hquery c hc)
  have hclean : clean ("https://".toList ++ (host ++ (pathText segments ++ queryText query))) =
      "https://".toList ++ (host ++ (pathText segments ++ queryText query)) := by
    refine clean_eq fun c hc => ?_
    rcases List.mem_append.mp hc with hc | hc
    · have hall : ∀ c ∈ "https://".toList, 0x20 < c.toNat := by simp
      exact hall c hc
    · rcases List.mem_append.mp hc with hc | hc
      · exact (hinert c hc).visible
      · rcases htext c hc with rfl | rfl | hc
        · decide
        · decide
        · exact (inert_of_isTextChar hc).visible
  have hscheme : splitScheme ("https://".toList ++ (host ++ (pathText segments ++ queryText query))) =
      some (['h', 't', 't', 'p', 's'], '/' :: '/' :: (host ++ (pathText segments ++ queryText query))) :=
    rfl
  rw [Parser.parse, String.toList_ofList, hclean, hscheme]
  show P.parseHttps _ = _
  -- the text is cut at the first slash, at the question mark, and nowhere else
  have hstart : (pathText segments ++ queryText query).head? = some '/' := by
    cases segments with
    | nil => exact absurd rfl hne
    | cons segment rest => rfl
  have hslashes : ('/' :: '/' :: (host ++ (pathText segments ++ queryText query))).dropWhile isSlash =
      host ++ (pathText segments ++ queryText query) := by
    refine (takeWhile_dropWhile_append isSlash ['/', '/'] (host ++ _) (by simp [isSlash]) fun c hc => ?_).2
    rw [List.head?_append_of_ne_nil _ hhostne] at hc
    exact (hinert c (List.mem_of_mem_head? hc)).noSlash
  obtain ⟨hauthority, hrest⟩ := takeWhile_dropWhile_append (fun c => !endsAuthority c) host
    (pathText segments ++ queryText query)
    (fun c hc => by
      have := hinert c hc
      simp [endsAuthority, this.noSlash, this.noQuery, this.noFragment])
    (fun c hc => by
      obtain rfl := Option.some.inj (hstart.symm.trans hc)
      rfl)
  obtain ⟨hpath, hquestion⟩ := takeWhile_dropWhile_append (fun c => c ≠ '?' && c ≠ '#')
    (pathText segments) (queryText query)
    (fun c hc => by
      rcases mem_pathText hsegments c hc with rfl | hc
      · rfl
      · have := inert_of_isTextChar hc
        simp [this.noQuery, this.noFragment])
    (fun c hc => by
      cases query with
      | none => cases hc
      | some query =>
        obtain rfl := Option.some.inj hc
        rfl)
  have hnoFragment : ∀ c ∈ pathText segments ++ queryText query, decide (c ≠ '#') = true := fun c hc => by
    rcases htext c hc with rfl | rfl | hc
    · rfl
    · rfl
    · simpa using (inert_of_isTextChar hc).noFragment
  have hfragment := List.dropWhile_eq_nil_iff.mpr hnoFragment
  have hqueryText := List.takeWhile_eq_self_iff.mpr fun c hc =>
    hnoFragment c (List.mem_append_right (pathText segments) hc)
  have hnoAt : '@' ∉ host := fun hmem => (hinert '@' hmem).noAt rfl
  rw [Parser.parseHttps]
  simp only [hslashes, hauthority, hrest, hpath, hquestion, hfragment, hqueryText,
    splitAuthority_eq hnoAt, splitPort_eq (List.all_eq_true.mp hhost.1), if_neg hhostne,
    parsePath_pathText hsegments hne]
  cases hparsed : P.host host with
  | none => rfl
  | some h =>
    cases query with
    | none => rfl
    | some query =>
      have hencode : percentEncode querySet query = query := percentEncode_eq fun c hc =>
        (inert_of_isTextChar (hquery query rfl c hc)).query
      simp only [queryText, List.tail_cons, hencode]
      rfl

def urlText (scheme host : String) (segments : List String) (query : Option String) : String :=
  scheme ++ host ++ String.join (segments.map ("/" ++ ·)) ++ (query.map ("?" ++ ·)).getD ""

theorem toList_urlText (scheme host : String) (segments : List String) (query : Option String) :
    (urlText scheme host segments query).toList =
      scheme.toList ++ (host.toList ++ (pathText (segments.map String.toList) ++
        queryText (query.map String.toList))) := by
  have hpath : (String.join (segments.map ("/" ++ ·))).toList = pathText (segments.map String.toList) := by
    induction segments with
    | nil => rfl
    | cons segment rest ih => simp [String.join_cons, ih, pathText]
  have hquery : ((query.map ("?" ++ ·)).getD "").toList = queryText (query.map String.toList) := by
    cases query <;> simp [queryText]
  simp only [urlText, String.toList_append, hpath, hquery, List.append_assoc]

theorem Parser.parse_urlText (P : Parser) {host : String} {segments : List String} {query : Option String}
    (hhost : IsName host.toList) (hsegments : ∀ s ∈ segments, IsSegment s.toList) (hne : segments ≠ [])
    (hquery : ∀ q ∈ query, ∀ c ∈ q.toList, isTextChar c = true) :
    P.parse (urlText "https://" host segments query) =
      (P.host host.toList).map fun h =>
        { scheme := "https", username := "", password := none, host := some h, port := none,
          path := String.ofList (pathText (segments.map String.toList)), query, fragment := none } := by
  have hplain := @Parser.parse_plain P _ _ (query.map String.toList) hhost
    (List.forall_mem_map.mpr hsegments) (by simpa using hne) (by simpa using hquery)
  rw [← toList_urlText, String.ofList_toList] at hplain
  rw [hplain]
  simp [Option.map_map, Function.comp_def]

/-! ## A parser of plain names -/

def plainParser : Parser where
  host name := if IsName name then some (.domain (String.ofList name)) else none
  host_kept name h hname hhost := by
    rw [if_pos hname] at hhost
    exact (Option.some.inj hhost).symm
  host_accepted name hname _ := if_pos hname
  other _ := none
  other_scheme _ _ h := by cases h

end Lorepia.Https
