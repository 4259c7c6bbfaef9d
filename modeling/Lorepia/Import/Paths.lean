import Lorepia.Import.Model

/-!
# Portable paths (`path_policy.rs`)

The path of an archive entry is accepted if it means the same on every file system: relative,
normalised, without names that some system treats specially. Two accepted paths collide if
their case keys are equal, or if one is a file where the other needs a directory.

Unicode's tables (canonical composition and the case mappings) are parameters. Texts are
lists of characters; a path's logical name is a `String`, since it goes into the receipt.
-/

namespace Lorepia.Import

open Assets

/-- `nfc`, `char::to_uppercase` and `char::to_lowercase`. -/
structure Unicode where
  nfc : List Char → List Char
  toUppercase : Char → List Char
  toLowercase : Char → List Char

structure PortablePath where
  logical : String
  collisionKey : List Char
  components : List (List Char)
  isDirectory : Bool
  deriving DecidableEq

def portableCaseKey (u : Unicode) (value : List Char) : List Char :=
  u.nfc ((value.flatMap u.toUppercase).flatMap u.toLowercase)

/-- `char::is_control`: the category Cc. -/
def isControl (c : Char) : Bool := c.toNat ≤ 0x1f || (0x7f ≤ c.toNat && c.toNat ≤ 0x9f)

def plainDigit : Char → Char
  | '¹' => '1'
  | '²' => '2'
  | '³' => '3'
  | c => c

def windowsDevices : List String := ["CON", "PRN", "AUX", "NUL", "CLOCK$", "CONIN$", "CONOUT$"]

def numberedDevice (family : String) (name : List Char) : Bool :=
  family.toList.isPrefixOf name &&
    match name.drop family.toList.length with
    | [d] => '1' ≤ d && d ≤ '9'
    | _ => false

def isWindowsDevice (component : List Char) : Bool :=
  let stem := component.takeWhile (· ≠ '.')
  let upper := (stem.map plainDigit).map Char.toUpper
  windowsDevices.any (fun d => d.toList = upper) || numberedDevice "COM" upper ||
    numberedDevice "LPT" upper

def utf8Length (text : List Char) : Nat := (String.ofList text).utf8ByteSize

/-- What `validate_path` asks of each component. -/
def safeComponent (limits : ImportLimits) (component : List Char) : Bool :=
  component ≠ [] && component ≠ ['.'] && component ≠ ['.', '.'] &&
    utf8Length component ≤ limits.maxComponentBytes &&
    !component.getLast?.any (fun c => c = '.' || c = ' ') &&
    !component.any (fun c => isControl c || c ∈ ['<', '>', '"', '|', '?', '*']) &&
    !isWindowsDevice component

/-- `str::from_utf8`. -/
def decodeUtf8 (raw : Bytes) : Option (List Char) :=
  (String.fromUTF8? ⟨raw.toArray⟩).map String.toList

/-- `trim_end_matches('/')`. -/
def trimSlashes (text : List Char) : List Char := (text.reverse.dropWhile (· = '/')).reverse

def validatePath (u : Unicode) (limits : ImportLimits) (raw : Bytes) (directoryHint : Bool) :
    Except ImportError PortablePath := do
  let raw ← required (.new .unsafePath) (decodeUtf8 raw)
  check (raw ≠ [] ∧ '\x00' ∉ raw ∧ raw.head? ≠ some '/' ∧ '\\' ∉ raw ∧ ':' ∉ raw ∧
    utf8Length raw ≤ limits.maxPathBytes ∧ u.nfc raw = raw) .unsafePath
  check (decide (raw.getLast? = some '/') = directoryHint) .unsafePath
  let logical := trimSlashes raw
  check (logical ≠ []) .unsafePath
  let components := logical.splitOn '/'
  check (components.all (safeComponent limits) = true) .unsafePath
  check (components.length ≤ limits.maxPathDepth) .unsafePath
  pure ⟨String.ofList logical, portableCaseKey u logical, components, directoryHint⟩

/-- The keys of the files and directories accepted so far. -/
structure PathSets where
  files : List (List Char)
  directories : List (List Char)
  deriving DecidableEq

def PathSets.empty : PathSets := ⟨[], []⟩

def insertParents : List (List Char) → PathSets → Except ImportError PathSets
  | [], sets => .ok sets
  | parent :: rest, sets => do
    check (parent ∉ sets.files) .duplicatePath
    insertParents rest { sets with directories := sets.directories.insert parent }

def parentKeys (u : Unicode) (path : PortablePath) : List (List Char) :=
  (List.range' 1 (path.components.length - 1)).map fun depth =>
    portableCaseKey u (['/'].intercalate (path.components.take depth))

def insertUnique (u : Unicode) (path : PortablePath) (sets : PathSets) :
    Except ImportError PathSets :=
  let key := path.collisionKey
  if path.isDirectory then do
    check (key ∉ sets.files ∧ key ∉ sets.directories) .duplicatePath
    pure { sets with directories := key :: sets.directories }
  else do
    check (key ∉ sets.files ∧ key ∉ sets.directories) .duplicatePath
    let sets ← insertParents (parentKeys u path) sets
    let inside : List Char → Bool := fun existing => (key ++ ['/']).isPrefixOf existing
    check (sets.files.any inside = false ∧ sets.directories.any inside = false) .duplicatePath
    pure { sets with files := key :: sets.files }

end Lorepia.Import
