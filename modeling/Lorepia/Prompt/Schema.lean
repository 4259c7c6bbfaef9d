import Lorepia.Lib.Tx
import Lorepia.Providers.Validate

/-!
# Prompt presets (`schema.rs`, `error.rs`)

A preset is a list of blocks with sampling parameters and advanced settings: synthetic
messages around the blocks, default variables, references to tools and modules, and regex
rules. Maps are lists of entries in the order of their keys.
-/

namespace Lorepia.Prompt

open Providers (MessageRole ChatMessage Float64)

inductive PromptError where
  | invalidField (field reason : String)
  | tooManyItems (field : String) (max : Nat)
  | payloadTooLarge (field : String) (maxBytes : Nat)
  | unknownVariable (name : String)
  | regex (rule reason : String)
  deriving DecidableEq

abbrev Result := Except PromptError

inductive PromptRole where
  | system
  | user
  | assistant
  deriving DecidableEq

def PromptRole.toMessageRole : PromptRole → MessageRole
  | system => .system
  | user => .user
  | assistant => .assistant

inductive PromptBlockKind where
  | raw
  | chat
  | persona
  | characterDescription
  | authorNote
  | lorebook
  | longTermMemory
  | finalInsertion
  | chatMl
  | cachePoint
  deriving DecidableEq

inductive RawPromptSpecial where
  | main
  | globalNote
  deriving DecidableEq

inductive ContentFormat where
  | plain
  | custom (template : String)
  deriving DecidableEq

inductive ChatEnd where
  | index (i : Nat)
  | endOfChat
  deriving DecidableEq

structure ChatSelection where
  start : Nat
  stop : ChatEnd
  deriving DecidableEq

inductive PromptBlock where
  | raw (name : String) (enabled : Bool) (role : PromptRole) (special : Option RawPromptSpecial)
      (prompt : String)
  | chat (name : String) (enabled : Bool) (selection : ChatSelection)
  | persona (name : String) (enabled : Bool) (role : PromptRole) (format : ContentFormat)
  | characterDescription (name : String) (enabled : Bool) (role : PromptRole) (format : ContentFormat)
  | authorNote (name : String) (enabled : Bool) (role : PromptRole) (defaultPrompt : Option String)
      (format : ContentFormat)
  | lorebook (name : String) (enabled : Bool) (role : PromptRole) (format : ContentFormat)
  | longTermMemory (name : String) (enabled : Bool) (role : PromptRole) (format : ContentFormat)
  | finalInsertion (name : String) (enabled : Bool) (role : PromptRole) (prompt : String)
  | chatMl (name : String) (enabled : Bool) (role : PromptRole) (prompt : String)
  | cachePoint (name : String) (enabled : Bool) (depth : Nat) (role : PromptRole)
  deriving DecidableEq

namespace PromptBlock

def name : PromptBlock → String
  | raw name .. | chat name .. | persona name .. | characterDescription name .. | authorNote name ..
  | lorebook name .. | longTermMemory name .. | finalInsertion name .. | chatMl name ..
  | cachePoint name .. => name

def enabled : PromptBlock → Bool
  | raw _ enabled .. | chat _ enabled .. | persona _ enabled .. | characterDescription _ enabled ..
  | authorNote _ enabled .. | lorebook _ enabled .. | longTermMemory _ enabled ..
  | finalInsertion _ enabled .. | chatMl _ enabled .. | cachePoint _ enabled .. => enabled

def kind : PromptBlock → PromptBlockKind
  | raw .. => .raw
  | chat .. => .chat
  | persona .. => .persona
  | characterDescription .. => .characterDescription
  | authorNote .. => .authorNote
  | lorebook .. => .lorebook
  | longTermMemory .. => .longTermMemory
  | finalInsertion .. => .finalInsertion
  | chatMl .. => .chatMl
  | cachePoint .. => .cachePoint

end PromptBlock

structure PromptSampling where
  temperature : Option Float64 := none
  topK : Option UInt32 := none
  minP : Option Float64 := none
  topA : Option Float64 := none
  repetitionPenalty : Option Float64 := none
  topP : Option Float64 := none
  presencePenalty : Option Float64 := none
  frequencyPenalty : Option Float64 := none
  stopSequences : List String := []
  seed : Option Int64 := none
  deriving DecidableEq

structure SyntheticMessage where
  role : PromptRole
  template : String
  deriving DecidableEq

structure PromptTemplateSettings where
  preamble : Option SyntheticMessage := none
  epilogue : Option SyntheticMessage := none
  defaultVariables : List (String × String) := []
  deriving DecidableEq

structure ToolReference where
  toolId : String
  enabled : Bool
  deriving DecidableEq

structure ModuleReference where
  moduleId : String
  version : String
  digestSha256 : String
  enabled : Bool
  deriving DecidableEq

inductive TransformTarget where
  | input
  | request
  | response
  | display
  | translation
  deriving DecidableEq

structure RegexFlags where
  global : Bool := true
  caseInsensitive : Bool := false
  multiLine : Bool := false
  unicode : Bool := true
  dotMatchesNewLine : Bool := false
  deriving DecidableEq

structure RegexRule where
  name : String
  enabled : Bool
  target : TransformTarget
  pattern : String
  replacement : String
  flags : RegexFlags := {}
  deriving DecidableEq

structure AdvancedSettings where
  template : PromptTemplateSettings := {}
  tools : List ToolReference := []
  regex : List RegexRule := []
  modules : List ModuleReference := []
  deriving DecidableEq

structure PromptPreset where
  name : String
  blocks : List PromptBlock
  sampling : PromptSampling := {}
  advanced : AdvancedSettings := {}
  deriving DecidableEq

end Lorepia.Prompt
