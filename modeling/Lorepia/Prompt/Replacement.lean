import Lorepia.Prompt.Regex

/-!
# The grammar of replacements

A replacement is a sequence of pieces: text without dollars, doubled dollars and references to
the groups 0 to 63 in decimal. `parse_replacement` scans it once and looks ahead behind a dollar.
-/

namespace Lorepia.Prompt

/-! ## Pieces and parts -/

def reference (i : Nat) : List Char := '$' :: '{' :: (Nat.toDigits 10 i ++ ['}'])

variable {label : String} {literal digits chars rest : List Char} {parts : List ReplacementPart}

/-! ## References -/

/-- What the scan has read and not yet turned into a part. -/
def unread (mode : Option (List Char)) (literal : List Char) : List Char :=
  match mode with
  | none => literal
  | some digits => '$' :: '{' :: digits

end Lorepia.Prompt
