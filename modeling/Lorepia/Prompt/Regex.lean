import Lorepia.Prompt.Schema

/-!
# Regex transforms (`regex_pipeline.rs`)

The enabled rules of a target are compiled once and applied one after the other to every
text, with one budget for all of them. The regex engine is a parameter: it builds a program
from a pattern within the source's size limits, and lists the captures of all matches of a
text as positions in its characters.
-/

namespace Lorepia.Prompt

def maxPatternBytes : Nat := 16 * 1024
def maxReplacementBytes : Nat := 64 * 1024
def maxRules : Nat := 128
def maxActiveRules : Nat := 64
def maxTextBytes : Nat := 4 * 1024 * 1024
def maxCumulativeScanBytes : Nat := 128 * 1024 * 1024
def maxMatchesPerRule : Nat := 100000
def maxCumulativeMatches : Nat := 100000

structure Span where
  start : Nat
  stop : Nat
  deriving DecidableEq

/-- The whole match and the groups; a group that takes no part has no span. -/
abbrev Captures := List (Option Span)

structure RegexEngine (ρ : Type) where
  build : String → RegexFlags → Option ρ
  capturesLen : ρ → Nat
  capturesIter : ρ → String → List Captures

def Captures.get (captures : Captures) (i : Nat) : Option Span := (captures[i]?).join

def slice (text : String) (start stop : Nat) : String :=
  String.ofList ((text.toList.drop start).take (stop - start))

inductive ReplacementPart where
  | literal (value : String)
  | dollar
  | capture (i : Nat)
  deriving DecidableEq

structure TransformBudget where
  scannedBytes : Nat := 0
  matchCount : Nat := 0
  deriving DecidableEq

structure CompiledRule (ρ : Type) where
  label : String
  regex : ρ
  replacement : List ReplacementPart
  global : Bool
  matchCount : Nat

structure CompiledTransformPipeline (ρ : Type) where
  rules : List (CompiledRule ρ)
  budget : TransformBudget

variable {ρ : Type}

/-! ## Rules -/

def replacementError {α : Type} (label reason : String) : Result α :=
  .error (.regex label ("replacement rejected: " ++ reason))

/-- The number of a capture reference. A `usize` is less than `2 ^ 64`. -/
def parseCapture (label : String) (digits : List Char) : Result Nat := do
  ensure (¬ (digits = [] ∨ digits.all Char.isDigit = false ∨ (1 < digits.length ∧ digits.head? = some '0')))
    (.regex label ("replacement rejected: " ++
      "capture references must use canonical `$\x7b0\x7d` through `$\x7b63\x7d` syntax"))
  let capture := digits.foldl (fun n c => 10 * n + (c.toNat - '0'.toNat)) 0
  ensure (capture < 2 ^ 64)
    (.regex label "capture reference is outside `$\x7b0\x7d` through `$\x7b63\x7d`")
  ensure (capture ≤ 63)
    (.regex label ("replacement rejected: " ++
      "capture reference is outside `$\x7b0\x7d` through `$\x7b63\x7d`"))
  .ok capture

def literalPart (literal : List Char) : List ReplacementPart :=
  if literal = [] then [] else [.literal (String.ofList literal)]

/-- The loop of `parse_replacement`: inside a reference with its digits so far, or outside
with the literal so far. -/
def parseParts (label : String) : List Char → Option (List Char) → List Char → Result (List ReplacementPart)
  | [], none, literal => .ok (literalPart literal)
  | [], some _, _ => replacementError label "unterminated capture reference"
  | '}' :: rest, some digits, _ => do
    let capture ← parseCapture label digits
    let parts ← parseParts label rest none []
    .ok (.capture capture :: parts)
  | c :: rest, some digits, literal => parseParts label rest (some (digits ++ [c])) literal
  | '$' :: '$' :: rest, none, literal => do
    let parts ← parseParts label rest none []
    .ok (literalPart literal ++ .dollar :: parts)
  | '$' :: '{' :: rest, none, literal => do
    let parts ← parseParts label rest (some []) []
    .ok (literalPart literal ++ parts)
  | '$' :: _, none, _ =>
    replacementError label "only `$$` and `$\x7b0\x7d` through `$\x7b63\x7d` are allowed after `$`"
  | c :: rest, none, literal => parseParts label rest none (literal ++ [c])

def parseReplacement (label replacement : String) : Result (List ReplacementPart) :=
  parseParts label replacement.toList none []

def compileRegex (R : RegexEngine ρ) (label pattern : String) (flags : RegexFlags) : Result ρ :=
  match R.build pattern flags with
  | none => .error (.regex label "pattern rejected by the bounded Rust regex contract")
  | some regex => do
    ensure (R.capturesLen regex ≤ 64)
      (.regex label "pattern exceeds 63 capture groups plus the whole match")
    .ok regex

def ruleLabel (index : Nat) (name : String) : String :=
  if name ≠ "" ∧ name.utf8ByteSize ≤ 256 then name else "rule[" ++ toString index ++ "]"

def checkRuleSizes : List RegexRule → Nat → Result Unit
  | [], _ => .ok ()
  | rule :: rest, index => do
    ensure (rule.pattern.utf8ByteSize ≤ maxPatternBytes)
      (.payloadTooLarge ("advanced.regex[" ++ toString index ++ "].pattern") maxPatternBytes)
    ensure (rule.replacement.utf8ByteSize ≤ maxReplacementBytes)
      (.payloadTooLarge ("advanced.regex[" ++ toString index ++ "].replacement") maxReplacementBytes)
    checkRuleSizes rest (index + 1)

def validateRuleTable (rules : List RegexRule) : Result Unit := do
  ensure (rules.length ≤ maxRules) (.tooManyItems "advanced.regex" maxRules)
  ensure ((rules.filter (·.enabled)).length ≤ maxActiveRules)
    (.tooManyItems "advanced.regex.enabled" maxActiveRules)
  checkRuleSizes rules 0

def compileRule (R : RegexEngine ρ) (index : Nat) (rule : RegexRule) : Result (CompiledRule ρ) := do
  let label := ruleLabel index rule.name
  let regex ← compileRegex R label rule.pattern rule.flags
  let replacement ← parseReplacement label rule.replacement
  .ok ⟨label, regex, replacement, rule.flags.global, 0⟩

/-- The loop of `CompiledTransformPipeline::new`. -/
def compileRules (R : RegexEngine ρ) (target : TransformTarget) :
    List RegexRule → Nat → Result (List (CompiledRule ρ))
  | [], _ => .ok []
  | rule :: rest, index =>
    if rule.enabled = false ∨ rule.target ≠ target then compileRules R target rest (index + 1)
    else do
      let compiled ← compileRule R index rule
      let others ← compileRules R target rest (index + 1)
      .ok (compiled :: others)

def CompiledTransformPipeline.new (R : RegexEngine ρ) (rules : List RegexRule) (target : TransformTarget) :
    Result (CompiledTransformPipeline ρ) := do
  validateRuleTable rules
  let compiled ← compileRules R target rules 0
  .ok ⟨compiled, {}⟩

def checkRules (R : RegexEngine ρ) : List RegexRule → Nat → Result Unit
  | [], _ => .ok ()
  | rule :: rest, index => do
    let _ ← compileRule R index rule
    checkRules R rest (index + 1)

def validateRegexContract (R : RegexEngine ρ) (rules : List RegexRule) : Result Unit := do
  validateRuleTable rules
  checkRules R rules 0

/-! ## Application -/

def appendOutput (output value : String) : Result String := do
  ensure (output.utf8ByteSize + value.utf8ByteSize ≤ maxTextBytes)
    (.payloadTooLarge "regex.output" maxTextBytes)
  .ok (output ++ value)

def TransformBudget.charge (budget : TransformBudget) (bytes : Nat) : Result TransformBudget := do
  ensure (budget.scannedBytes + bytes ≤ maxCumulativeScanBytes)
    (.payloadTooLarge "regex.cumulativeScan" maxCumulativeScanBytes)
  .ok { budget with scannedBytes := budget.scannedBytes + bytes }

def TransformBudget.chargeMatch (budget : TransformBudget) : Result TransformBudget := do
  ensure (budget.matchCount + 1 ≤ maxCumulativeMatches)
    (.tooManyItems "regex.cumulativeMatches" maxCumulativeMatches)
  .ok { budget with matchCount := budget.matchCount + 1 }

def expandReplacement (input : String) (captures : Captures) :
    List ReplacementPart → String → Result String
  | [], output => .ok output
  | .literal value :: rest, output => do
    let output ← appendOutput output value
    expandReplacement input captures rest output
  | .dollar :: rest, output => do
    let output ← appendOutput output "$"
    expandReplacement input captures rest output
  | .capture i :: rest, output =>
    match captures.get i with
    | some span => do
      let output ← appendOutput output (slice input span.start span.stop)
      expandReplacement input captures rest output
    | none => expandReplacement input captures rest output

/-- What the loop of `apply_rule` carries. -/
structure RuleScan where
  output : String
  copiedUntil : Nat
  matchCount : Nat
  ruleMatchCount : Nat
  budget : TransformBudget

def applyMatches (rule : CompiledRule ρ) (input : String) : List Captures → RuleScan → Result RuleScan
  | [], scan => .ok scan
  | captures :: rest, scan => do
    let budget ← scan.budget.chargeMatch
    ensure (scan.matchCount + 1 ≤ maxMatchesPerRule)
      (.tooManyItems ("regex." ++ rule.label ++ ".matches") maxMatchesPerRule)
    ensure (scan.ruleMatchCount + 1 ≤ maxMatchesPerRule)
      (.tooManyItems ("regex." ++ rule.label ++ ".matches") maxMatchesPerRule)
    match captures.get 0 with
    | none =>
      .error (.regex rule.label "regex engine returned a capture without the whole match")
    | some whole => do
      let output ← appendOutput scan.output (slice input scan.copiedUntil whole.start)
      let output ← expandReplacement input captures rule.replacement output
      let next : RuleScan :=
        ⟨output, whole.stop, scan.matchCount + 1, scan.ruleMatchCount + 1, budget⟩
      if rule.global then applyMatches rule input rest next else .ok next

def applyRule (R : RegexEngine ρ) (rule : CompiledRule ρ) (input : String) (budget : TransformBudget) :
    Result (String × CompiledRule ρ × TransformBudget) := do
  let scan ← applyMatches rule input (R.capturesIter rule.regex input) ⟨"", 0, 0, rule.matchCount, budget⟩
  let output ← appendOutput scan.output (slice input scan.copiedUntil input.toList.length)
  .ok (output, { rule with matchCount := scan.ruleMatchCount }, scan.budget)

def applyRules (R : RegexEngine ρ) : List (CompiledRule ρ) → TransformBudget → String →
    Result (String × List (CompiledRule ρ) × TransformBudget)
  | [], budget, current => .ok (current, [], budget)
  | rule :: rest, budget, current => do
    let budget ← budget.charge current.utf8ByteSize
    let (current, rule, budget) ← applyRule R rule current budget
    let (current, rest, budget) ← applyRules R rest budget current
    .ok (current, rule :: rest, budget)

/-- One text, with what is left of the budget for the next. -/
def CompiledTransformPipeline.apply (R : RegexEngine ρ) (pipeline : CompiledTransformPipeline ρ)
    (input : String) : Result (String × CompiledTransformPipeline ρ) := do
  ensure (input.utf8ByteSize ≤ maxTextBytes) (.payloadTooLarge "regex.input" maxTextBytes)
  let (output, rules, budget) ← applyRules R pipeline.rules pipeline.budget input
  .ok (output, ⟨rules, budget⟩)

end Lorepia.Prompt
