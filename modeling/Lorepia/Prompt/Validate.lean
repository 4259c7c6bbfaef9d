import Lorepia.Prompt.Regex
import Lorepia.Prompt.Template

/-!
# Validation of presets (`validate.rs`)
-/

namespace Lorepia.Prompt

open Providers (Float64 isBlank)

def maxBlocks : Nat := 256
def maxFieldTextBytes : Nat := 256 * 1024
def maxAuthoredTextBytes : Nat := 2 * 1024 * 1024
def maxVariables : Nat := 256
def maxVariableValueBytes : Nat := 256 * 1024
def maxReferences : Nat := 32
def maxRegexRules : Nat := 128
def maxActiveRegexRules : Nat := 64
def maxRegexPatternBytes : Nat := 16 * 1024
def maxRegexReplacementBytes : Nat := 64 * 1024

variable {ρ : Type}

/-- `blocks[{index}].{field}`. -/
def blockField (index : Nat) (field : String) : String := "blocks[" ++ toString index ++ "]." ++ field

def validateLabel (field value : String) : Result Unit :=
  ensure (¬ (isBlank value = true ∨ 128 < value.utf8ByteSize ∨ '\x00' ∈ value.toList))
    (.invalidField field "must be 1-128 bytes after trimming and contain no NUL")

def addAuthored (total value : Nat) : Result Nat := do
  ensure (total + value ≤ maxAuthoredTextBytes)
    (.payloadTooLarge "authored prompt text" maxAuthoredTextBytes)
  .ok (total + value)

/-- Every caller passes `false` for `allow_empty`. -/
def validateAuthoredText (field value : String) (authored : Nat) : Result Nat := do
  ensure (¬ (isBlank value = true ∨ '\x00' ∈ value.toList))
    (.invalidField field "must be non-empty and contain no NUL")
  ensure (value.utf8ByteSize ≤ maxFieldTextBytes) (.payloadTooLarge field maxFieldTextBytes)
  addAuthored authored value.utf8ByteSize

def validateContentFormat (format : ContentFormat) (index authored : Nat) : Result Nat :=
  match format with
  | .plain => .ok authored
  | .custom template => do
    let field := blockField index "format.template"
    let authored ← validateAuthoredText field template authored
    let names ← validateTemplateSyntax template field
    ensure ((names.filter (· = "value")).length = 1)
      (.invalidField field "custom content format must contain $\x7bvalue\x7d exactly once")
    .ok authored

/-! ## Blocks -/

/-- What the loop over the blocks counts. -/
structure BlockScan where
  authoredBytes : Nat
  activeChatBlocks : Nat
  cacheBlocks : Nat
  /-- The specials of enabled blocks. -/
  specials : List RawPromptSpecial

def validateBlockText (field value : String) (scan : BlockScan) : Result BlockScan := do
  let authored ← validateAuthoredText field value scan.authoredBytes
  let _ ← validateTemplateSyntax value field
  .ok { scan with authoredBytes := authored }

def validateSpecial (index : Nat) (enabled : Bool) (role : PromptRole) (special : RawPromptSpecial)
    (scan : BlockScan) : Result BlockScan := do
  ensure (role = .system)
    (.invalidField (blockField index "role") "special raw prompts must use the system role")
  if enabled then do
    ensure (special ∉ scan.specials)
      (.invalidField (blockField index "special") "an enabled raw special may appear only once")
    .ok { scan with specials := special :: scan.specials }
  else .ok scan

def validateFormatOf (format : ContentFormat) (index : Nat) (scan : BlockScan) : Result BlockScan := do
  let authored ← validateContentFormat format index scan.authoredBytes
  .ok { scan with authoredBytes := authored }

def validateBlockBody (index : Nat) (block : PromptBlock) (scan : BlockScan) : Result BlockScan :=
  match block with
  | .raw _ enabled role special prompt => do
    let scan ← validateBlockText (blockField index "prompt") prompt scan
    match special with
    | some special => validateSpecial index enabled role special scan
    | none => .ok scan
  | .finalInsertion _ _ _ prompt | .chatMl _ _ _ prompt =>
    validateBlockText (blockField index "prompt") prompt scan
  | .chat _ _ selection =>
    match selection.stop with
    | .index stop => do
      ensure (selection.start < stop)
        (.invalidField (blockField index "selection")
          "chat range must be a non-empty half-open interval [start, end)")
      .ok scan
    | .endOfChat => .ok scan
  | .persona _ _ _ format | .characterDescription _ _ _ format | .lorebook _ _ _ format
  | .longTermMemory _ _ _ format => validateFormatOf format index scan
  | .authorNote _ _ _ (some prompt) format => do
    let scan ← validateBlockText (blockField index "defaultPrompt") prompt scan
    validateFormatOf format index scan
  | .authorNote _ _ _ none format => validateFormatOf format index scan
  | .cachePoint _ _ depth _ => do
    ensure (¬ (depth = 0 ∨ 16 < depth))
      (.invalidField (blockField index "depth") "cache depth must be in 1..=16")
    .ok { scan with cacheBlocks := scan.cacheBlocks + 1 }

def validateBlock (index : Nat) (block : PromptBlock) (scan : BlockScan) : Result BlockScan := do
  validateLabel (blockField index "name") block.name
  let active := if block.enabled = true ∧ block.kind = .chat then 1 else 0
  validateBlockBody index block { scan with activeChatBlocks := scan.activeChatBlocks + active }

def validateBlocks : List PromptBlock → Nat → BlockScan → Result BlockScan
  | [], _, scan => .ok scan
  | block :: rest, index, scan => do
    let scan ← validateBlock index block scan
    validateBlocks rest (index + 1) scan

/-! ## Settings -/

def validateFloat (field : String) (value : Option Float64) (min max : Int) (exclusiveMin : Bool) :
    Result Unit :=
  checkSome (fun value : Float64 =>
    ensure (value.within min max = true ∧ (exclusiveMin = true → value.within min min = false))
      (.invalidField field
        ("must be a finite value in the supported range " ++ toString min ++ "..=" ++ toString max)))
    value

def validateStopSequences : List String → Result Unit
  | [] => .ok ()
  | entry :: rest => do
    ensure (¬ (entry = "" ∨ 256 < entry.utf8ByteSize ∨ '\x00' ∈ entry.toList))
      (.invalidField "stopSequences" "entries must be 1-256 bytes and contain no NUL")
    validateStopSequences rest

def validateSampling (sampling : PromptSampling) : Result Unit := do
  validateFloat "temperature" sampling.temperature 0 10 false
  ensure (sampling.topK ≠ some 0) (.invalidField "topK" "must be greater than zero")
  validateFloat "minP" sampling.minP 0 1 false
  validateFloat "topA" sampling.topA 0 1 false
  validateFloat "repetitionPenalty" sampling.repetitionPenalty 0 2 true
  validateFloat "topP" sampling.topP 0 1 false
  validateFloat "presencePenalty" sampling.presencePenalty (-2) 2 false
  validateFloat "frequencyPenalty" sampling.frequencyPenalty (-2) 2 false
  ensure (sampling.stopSequences.length ≤ 16) (.tooManyItems "stopSequences" 16)
  validateStopSequences sampling.stopSequences

/-- The checks of one variable, of the preset's defaults or of the runtime input. -/
def validateVariable (field : String) (entry : String × String) : Result Unit := do
  ensure (validateVariableName entry.1.toList = true ∧ entry.1 ≠ "value")
    (.invalidField field "invalid or reserved variable name")
  ensure ('\x00' ∉ entry.2.toList) (.invalidField (field ++ "." ++ entry.1) "must contain no NUL")
  ensure (entry.2.utf8ByteSize ≤ maxVariableValueBytes)
    (.payloadTooLarge (field ++ "." ++ entry.1) maxVariableValueBytes)

def validateDefaultVariables : List (String × String) → Nat → Result Nat
  | [], authored => .ok authored
  | entry :: rest, authored => do
    validateVariable "defaultVariables" entry
    let authored ← addAuthored authored entry.2.utf8ByteSize
    validateDefaultVariables rest authored

def variableBytes (vars : List (String × String)) : Nat :=
  (vars.map fun entry => entry.2.utf8ByteSize).sum

def validateSynthetic (field : String) (message : Option SyntheticMessage) (authored : Nat) : Result Nat :=
  match message with
  | none => .ok authored
  | some message => do
    let authored ← validateAuthoredText field message.template authored
    let _ ← validateTemplateSyntax message.template field
    .ok authored

def validateTemplateSettings (settings : PromptTemplateSettings) (authored : Nat) : Result Nat := do
  let authored ← validateSynthetic "advanced.template.preamble" settings.preamble authored
  let authored ← validateSynthetic "advanced.template.epilogue" settings.epilogue authored
  ensure (settings.defaultVariables.length ≤ maxVariables) (.tooManyItems "defaultVariables" maxVariables)
  let authored ← validateDefaultVariables settings.defaultVariables authored
  ensure (variableBytes settings.defaultVariables ≤ maxAuthoredTextBytes)
    (.payloadTooLarge "defaultVariables" maxAuthoredTextBytes)
  .ok authored

def validateReferenceId (field value : String) (requireLetterFirst : Bool) : Result Unit :=
  ensure (value.utf8ByteSize ≤ 64 ∧
      value.toList.head?.any (fun c => if requireLetterFirst then c.isAlpha else c.isAlphanum) = true ∧
      ¬ ['.', '.'] <:+: value.toList ∧ value.toList.all isNameChar = true)
    (.invalidField field "must be a safe 1-64 byte ASCII identifier without '..'")

def validateTools : List ToolReference → List String → Result Unit
  | [], _ => .ok ()
  | reference :: rest, toolIds => do
    validateReferenceId "toolId" reference.toolId true
    ensure (reference.toolId ∉ toolIds) (.invalidField "tools" "duplicate tool reference")
    validateTools rest (reference.toolId :: toolIds)

def isLowerHex (c : Char) : Bool := c.isDigit || ('a' ≤ c && c ≤ 'f')

def validateModules : List ModuleReference → List (String × String) → Result Unit
  | [], _ => .ok ()
  | reference :: rest, moduleIds => do
    validateReferenceId "moduleId" reference.moduleId true
    validateReferenceId "module.version" reference.version false
    ensure (reference.digestSha256.utf8ByteSize = 64 ∧ reference.digestSha256.toList.all isLowerHex = true)
      (.invalidField "module.digestSha256" "must be 64 lowercase hexadecimal characters")
    ensure ((reference.moduleId, reference.version) ∉ moduleIds)
      (.invalidField "modules" "duplicate module reference")
    validateModules rest ((reference.moduleId, reference.version) :: moduleIds)

def validateReferences (advanced : AdvancedSettings) : Result Unit := do
  ensure (advanced.tools.length ≤ maxReferences) (.tooManyItems "tools" maxReferences)
  ensure (advanced.modules.length ≤ maxReferences) (.tooManyItems "modules" maxReferences)
  validateTools advanced.tools []
  validateModules advanced.modules []

def scanRegexRules : List RegexRule → Nat → List String → Nat → Result Nat
  | [], _, _, authored => .ok authored
  | rule :: rest, index, names, authored => do
    validateLabel ("regex[" ++ toString index ++ "].name") rule.name
    ensure (rule.name ∉ names) (.invalidField "regex" "duplicate rule name")
    ensure (¬ (rule.pattern = "" ∨ maxRegexPatternBytes < rule.pattern.utf8ByteSize))
      (.invalidField ("regex[" ++ toString index ++ "].pattern")
        ("must be 1-" ++ toString maxRegexPatternBytes ++ " bytes"))
    ensure (rule.replacement.utf8ByteSize ≤ maxRegexReplacementBytes)
      (.payloadTooLarge ("regex[" ++ toString index ++ "].replacement") maxRegexReplacementBytes)
    let authored ← addAuthored authored rule.pattern.utf8ByteSize
    let authored ← addAuthored authored rule.replacement.utf8ByteSize
    scanRegexRules rest (index + 1) (rule.name :: names) authored

def validateRegexRules (R : RegexEngine ρ) (rules : List RegexRule) (authored : Nat) : Result Nat := do
  ensure (rules.length ≤ maxRegexRules) (.tooManyItems "regex" maxRegexRules)
  ensure ((rules.filter (·.enabled)).length ≤ maxActiveRegexRules)
    (.tooManyItems "active regex rules" maxActiveRegexRules)
  let authored ← scanRegexRules rules 0 [] authored
  validateRegexContract R rules
  .ok authored

def validatePreset (R : RegexEngine ρ) (preset : PromptPreset) : Result Unit := do
  validateLabel "name" preset.name
  ensure (preset.blocks.length ≤ maxBlocks) (.tooManyItems "blocks" maxBlocks)
  ensure (preset.blocks ≠ []) (.invalidField "blocks" "at least one block is required")
  let scan ← validateBlocks preset.blocks 0 ⟨0, 0, 0, []⟩
  ensure (scan.activeChatBlocks ≤ 1) (.tooManyItems "active chat blocks" 1)
  ensure (scan.cacheBlocks ≤ 16) (.tooManyItems "cache-point blocks" 16)
  validateSampling preset.sampling
  let authored ← validateTemplateSettings preset.advanced.template scan.authoredBytes
  validateReferences preset.advanced
  let authored ← validateRegexRules R preset.advanced.regex authored
  ensure (authored ≤ maxAuthoredTextBytes) (.payloadTooLarge "authored prompt text" maxAuthoredTextBytes)

end Lorepia.Prompt
