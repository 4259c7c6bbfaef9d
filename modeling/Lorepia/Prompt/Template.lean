import Lorepia.Prompt.Schema

/-!
# Templates (`template.rs`)

A template is text with variables in `${..}`. The source goes over bytes; the
delimiters and the names are ASCII, so going over characters finds the same places. Both
loops are one pass with a state: outside a variable with the literal read so far, or inside
one with its name so far.
-/

namespace Lorepia.Prompt

def maxRenderedTextBytes : Nat := 4 * 1024 * 1024

def isNameStart (c : Char) : Bool := c.isAlpha || c = '_'

def isNameChar (c : Char) : Bool := c.isAlphanum || c = '_' || c = '.' || c = '-'

/-- Names are ASCII, so their length in bytes is their length. -/
def validateVariableName (name : List Char) : Bool :=
  match name with
  | [] => false
  | first :: rest => isNameStart first && decide (name.length ≤ 64) && rest.all isNameChar

/-- `validate_template_syntax`, with the name being read. -/
def scanTemplate (field : String) : List Char → Option (List Char) → Result (List String)
  | [], none => .ok []
  | [], some _ => .error (.invalidField field "unterminated $\x7bname\x7d variable")
  | '}' :: rest, some name => do
    ensure (validateVariableName name = true)
      (.invalidField field
        "variable names must be 1-64 ASCII letters, digits, '_', '.' or '-' and cannot start with a digit")
    let names ← scanTemplate field rest none
    .ok (String.ofList name :: names)
  | c :: rest, some name => scanTemplate field rest (some (name ++ [c]))
  | '$' :: '{' :: rest, none => scanTemplate field rest (some [])
  | _ :: rest, none => scanTemplate field rest none

def validateTemplateSyntax (template field : String) : Result (List String) :=
  scanTemplate field template.toList none

def appendBounded (output value : String) : Result String := do
  ensure (output.utf8ByteSize + value.utf8ByteSize ≤ maxRenderedTextBytes)
    (.payloadTooLarge "rendered content" maxRenderedTextBytes)
  .ok (output ++ value)

def lookupVariable (vars : List (String × String)) (reserved : Option (String × String))
    (name : String) : Result String :=
  match reserved.filter fun entry => decide (entry.1 = name) with
  | some (_, value) => .ok value
  | none =>
    match vars.lookup name with
    | some value => .ok value
    | none => .error (.unknownVariable name)

/-- The loop of `render_with_reserved`. -/
def renderFrom (vars : List (String × String)) (reserved : Option (String × String)) :
    List Char → Option (List Char) → List Char → String → Result String
  | [], none, literal, output => appendBounded output (String.ofList literal)
  | [], some _, _, _ => .error (.invalidField "template" "unterminated $\x7bname\x7d variable")
  | '}' :: rest, some name, _, output => do
    ensure (validateVariableName name = true) (.invalidField "template" "invalid variable name")
    let value ← lookupVariable vars reserved (String.ofList name)
    let output ← appendBounded output value
    renderFrom vars reserved rest none [] output
  | c :: rest, some name, literal, output =>
    renderFrom vars reserved rest (some (name ++ [c])) literal output
  | '$' :: '{' :: rest, none, literal, output => do
    let output ← appendBounded output (String.ofList literal)
    renderFrom vars reserved rest (some []) [] output
  | c :: rest, none, literal, output => renderFrom vars reserved rest none (literal ++ [c]) output

def renderWithReserved (template : String) (vars : List (String × String))
    (reserved : Option (String × String)) : Result String :=
  renderFrom vars reserved template.toList none [] ""

def renderTemplate (template : String) (vars : List (String × String)) : Result String :=
  renderWithReserved template vars none

def renderContent (format : ContentFormat) (source : String) (vars : List (String × String)) :
    Result String :=
  match format with
  | .plain => do
    ensure (source.utf8ByteSize ≤ maxRenderedTextBytes)
      (.payloadTooLarge "rendered content" maxRenderedTextBytes)
    .ok source
  | .custom template => renderWithReserved template vars (some ("value", source))

end Lorepia.Prompt
