import Lorepia.Tools.Json
import Lorepia.Lib.Tx

/-!
# Tool definitions, calls and argument schemas (`schema.rs`, `json.rs`)

What a registered tool and a requested call must look like: names, the limits on JSON
documents, the subset of JSON Schema a definition may use and the check of a call's
arguments against it. Every check returns the error of the source, so its order of
checks is the source's.

The walk over a schema or a value follows the value's own structure; `object.get(key)`
is a lookup in the entries. Where the recursion goes through such a lookup the function
looks for the key itself.
-/

namespace Lorepia.Tools

/-- `ToolRuntimeError`, without the errors of the MCP endpoint checks. -/
inductive ToolRuntimeError where
  | emptyField (field : String)
  | fieldTooLong (field : String) (maxBytes : Nat)
  | invalidName (field : String)
  | jsonTooLarge (field : String) (maxBytes : Nat)
  | jsonTooDeep (field : String) (maxDepth : Nat)
  | jsonTooManyNodes (field : String) (maxNodes : Nat)
  | jsonMustBeObject (field : String)
  | invalidInputSchema (reason : String)
  | invalidToolArguments (reason : String)
  | policyDenied (toolName : String)
  | approvalRequired
  | invalidApprovalLifetime
  | invalidApprovalToken
  | approvalExpired
  | approvalReplay
  | approvalLedgerFull
  | internalState
  | toolNotRegistered (toolName : String)
  | duplicateTool (toolName : String)
  | tooManyTools (max : Nat)
  | invalidExecutorCode
  | executorFailed (code : String)
  deriving DecidableEq

abbrev Result := Except ToolRuntimeError

/-! ## Limits (schema.rs:9–19) -/

def maxToolNameBytes : Nat := 64
def maxCallIdBytes : Nat := 128
def maxDescriptionBytes : Nat := 4 * 1024
def maxInputSchemaBytes : Nat := 32 * 1024
def maxToolArgumentBytes : Nat := 64 * 1024
def maxToolOutputBytes : Nat := 64 * 1024
def maxJsonDepth : Nat := 16
def maxJsonNodes : Nat := 4096

/-! ## Identifiers -/

def isAsciiAlphabetic (b : UInt8) : Bool :=
  (0x41 ≤ b && b ≤ 0x5a) || (0x61 ≤ b && b ≤ 0x7a)

def isAsciiDigit (b : UInt8) : Bool := 0x30 ≤ b && b ≤ 0x39

def isAsciiUppercase (b : UInt8) : Bool := 0x41 ≤ b && b ≤ 0x5a

def isAsciiAlphanumeric (b : UInt8) : Bool := isAsciiAlphabetic b || isAsciiDigit b

/-- `value.contains("..")`. -/
def containsDotDot : Bytes → Bool
  | [] => false
  | [_] => false
  | b :: c :: rest => (b = 0x2e && c = 0x2e) || containsDotDot (c :: rest)

def validateAsciiIdentifier (value field : String) (maxBytes : Nat) (allowColon : Bool) :
    Result Unit :=
  match utf8 value with
  | [] => .error (.emptyField field)
  | first :: rest =>
    if rest.length + 1 > maxBytes then .error (.fieldTooLong field maxBytes)
    else
      let firstIsValid :=
        if field = "tool_name" then isAsciiAlphabetic first else isAsciiAlphanumeric first
      let restIsValid := rest.all fun b =>
        isAsciiAlphanumeric b || b = 0x5f || b = 0x2e || b = 0x2d || (allowColon && b = 0x3a)
      if !firstIsValid || !restIsValid || containsDotDot (first :: rest) then
        .error (.invalidName field)
      else .ok ()

def validateToolName (name : String) : Result Unit :=
  validateAsciiIdentifier name "tool_name" maxToolNameBytes false

def validateCallId (id : String) : Result Unit :=
  validateAsciiIdentifier id "call_id" maxCallIdBytes true

theorem length_le_of_validateAsciiIdentifier {value field : String} {maxBytes : Nat}
    {allowColon : Bool} {u : Unit}
    (h : validateAsciiIdentifier value field maxBytes allowColon = .ok u) :
    (utf8 value).length ≤ maxBytes := by
  unfold validateAsciiIdentifier at h
  cases hbytes : utf8 value with
  | nil =>
    rw [hbytes] at h
    cases h
  | cons first rest =>
    rw [hbytes] at h
    dsimp only at h
    split at h
    · cases h
    · rw [List.length_cons]
      omega

/-! ## Limits on documents (`validate_json_limits`) -/

def Value.children : Value → List Value
  | .array items => items
  | .object entries => entries.map (·.2)
  | _ => []

/-- The loop over the stack of nodes still to visit, its top first. `budget` is how many
more nodes may be visited. -/
def walkNodes (field : String) (maxDepth maxNodes : Nat) :
    Nat → List (Value × Nat) → Result Unit
  | _, [] => .ok ()
  | 0, _ :: _ => .error (.jsonTooManyNodes field maxNodes)
  | budget + 1, (node, depth) :: stack =>
    if depth > maxDepth then .error (.jsonTooDeep field maxDepth)
    else
      walkNodes field maxDepth maxNodes budget
        (node.children.reverse.map (fun child => (child, depth + 1)) ++ stack)

section Documents

variable [FloatText]

def validateJsonLimits (value : Value) (field : String) (maxBytes maxDepth maxNodes : Nat) :
    Result Unit := do
  walkNodes field maxDepth maxNodes maxNodes [(value, 1)]
  if (toVec value).length > maxBytes then .error (.jsonTooLarge field maxBytes) else .ok ()

end Documents

/-! ## Reading a schema node -/

namespace Value

def asStr : Value → Option String
  | .string s => some s
  | _ => none

def asArray : Value → Option (List Value)
  | .array items => some items
  | _ => none

def asObject : Value → Option (List (String × Value))
  | .object entries => some entries
  | _ => none

def asU64 : Value → Option Nat
  | .number n => n.asU64
  | _ => none

def asI64 : Value → Option Int
  | .number n => n.asI64
  | _ => none

def isBoolean : Value → Bool
  | .bool _ => true
  | _ => false

def isNull : Value → Bool
  | .null => true
  | _ => false

def asF64 : Value → Option Double
  | .number n => some n.asF64
  | _ => none

/-- `value_matches_type`. -/
def matchesType (value : Value) (kind : String) : Bool :=
  match kind with
  | "object" => value.asObject.isSome
  | "array" => value.asArray.isSome
  | "string" => value.asStr.isSome
  | "number" => value.asF64.isSome
  | "integer" => value.asI64.isSome || value.asU64.isSome
  | "boolean" => value.isBoolean
  | "null" => value.isNull
  | _ => false

end Value

abbrev Entries := List (String × Value)

/-! ## The check of a definition's schema -/

def validateIrrelevantKeywords (object : Entries) (relevant : List String) : Result Unit :=
  ensure (∀ e ∈ object, e.1 ∈ relevant)
    (.invalidInputSchema "keyword is not valid for this schema type")

def validateSchemaText (value : Value) : Result Unit :=
  match value.asStr with
  | none => .error (.invalidInputSchema "schema text metadata must be a string")
  | some text =>
    ensure ((utf8 text).length ≤ maxDescriptionBytes)
      (.invalidInputSchema "schema text metadata is too long")

def validateArgumentName (name : String) : Result Unit :=
  match utf8 name with
  | [] => .error (.invalidInputSchema "property name length is invalid")
  | first :: rest => do
    ensure (rest.length + 1 ≤ maxToolNameBytes)
      (.invalidInputSchema "property name length is invalid")
    ensure (isAsciiAlphabetic first ∧ ∀ b ∈ rest, isAsciiAlphanumeric b ∨ b = 0x5f)
      (.invalidInputSchema "property name is not a safe identifier")

def jsonU64 (value : Value) : Result Nat :=
  match value.asU64 with
  | some n => .ok n
  | none => .error (.invalidInputSchema "schema bound must be an unsigned integer")

/-- `number_as_f64`. A `Number` has no float that is not finite. -/
def numberAsF64 (value : Value) : Result Double :=
  match value.asF64 with
  | some d => .ok d
  | none => .error (.invalidInputSchema "numeric bound must be finite")

/-- `object.get(key).map(read).transpose()`. -/
def optional {α : Type} (object : Entries) (key : String) (read : Value → Result α) :
    Result (Option α) :=
  match object.lookup key with
  | some value => some <$> read value
  | none => .ok none

def validateU64Bounds (object : Entries) (minimumKey maximumKey : String) (hardMax : Nat) :
    Result Unit := do
  let minimum := (← optional object minimumKey jsonU64).getD 0
  let maximum := (← optional object maximumKey jsonU64).getD hardMax
  ensure (minimum ≤ maximum ∧ maximum ≤ hardMax) (.invalidInputSchema "schema bounds are invalid")

def validateStringSchema (object : Entries) : Result Unit := do
  validateIrrelevantKeywords object
    ["type", "title", "description", "minLength", "maxLength", "enum", "const"]
  validateU64Bounds object "minLength" "maxLength" maxToolArgumentBytes

def validateNumberSchema (object : Entries) : Result Unit := do
  validateIrrelevantKeywords object
    ["type", "title", "description", "minimum", "maximum", "enum", "const"]
  let minimum ← optional object "minimum" numberAsF64
  let maximum ← optional object "maximum" numberAsF64
  match minimum, maximum with
  | some min, some max =>
    ensure (¬ max.lt min) (.invalidInputSchema "minimum exceeds maximum")
  | _, _ => pure ()

def allowedKeys : List String :=
  ["type", "title", "description", "properties", "required", "additionalProperties", "items",
    "enum", "const", "minLength", "maxLength", "minimum", "maximum", "minItems", "maxItems"]

/-- The `enum` of a schema node. -/
def validateEnum (kind : String) (values : Value) : Result Unit :=
  match values.asArray with
  | none => .error (.invalidInputSchema "enum must be an array")
  | some values => do
    ensure (values ≠ [] ∧ values.length ≤ 128) (.invalidInputSchema "enum size is invalid")
    ensure (∀ value ∈ values, value.matchesType kind)
      (.invalidInputSchema "enum value has the wrong type")

/-- `validate_schema` up to the part that depends on the type, which is returned. -/
def validateSchemaHead (object : Entries) (root : Bool) : Result String := do
  ensure (∀ e ∈ object, e.1 ∈ allowedKeys)
    (.invalidInputSchema "unsupported or reference-based schema keyword")
  match (object.lookup "type").bind Value.asStr with
  | none => .error (.invalidInputSchema "every schema node requires one string type")
  | some kind =>
    ensure (root → kind = "object")
      (.invalidInputSchema "root input schema must have object type")
    ensure (kind ∈ ["object", "array", "string", "number", "integer", "boolean", "null"])
      (.invalidInputSchema "unsupported JSON type")
    checkSome validateSchemaText (object.lookup "title")
    checkSome validateSchemaText (object.lookup "description")
    checkSome (validateEnum kind) (object.lookup "enum")
    checkSome (fun value => ensure (value.matchesType kind)
      (.invalidInputSchema "const value has the wrong type")) (object.lookup "const")
    pure kind

/-- The `required` names, in order, with those seen so far. -/
def validateRequired (properties : List String) : List Value → List String → Result Unit
  | [], _ => .ok ()
  | value :: rest, unique =>
    match value.asStr with
    | none => .error (.invalidInputSchema "required entries must be strings")
    | some name => do
      ensure (name ∈ properties ∧ name ∉ unique)
        (.invalidInputSchema "required entries must be unique declared properties")
      validateRequired properties rest (name :: unique)

/-- `validate_object_schema` after the properties. -/
def validateObjectTail (object properties : Entries) : Result Unit :=
  match (object.lookup "required").bind Value.asArray with
  | none => .error (.invalidInputSchema "object schema requires a required array")
  | some required => do
    validateRequired (properties.map (·.1)) required []
    match object.lookup "additionalProperties" with
    | some (.bool false) => pure ()
    | _ => .error (.invalidInputSchema "additionalProperties must be false")

mutual

def validateSchema : Value → Bool → Result Unit
  | .object object, root => do
    let kind ← validateSchemaHead object root
    match kind with
    | "object" => do
      validateIrrelevantKeywords object
        ["type", "title", "description", "properties", "required", "additionalProperties", "enum",
          "const"]
      let properties ← validateProperties object
      validateObjectTail object properties
    | "array" => do
      validateIrrelevantKeywords object
        ["type", "title", "description", "items", "minItems", "maxItems", "enum", "const"]
      validateItems object
      validateU64Bounds object "minItems" "maxItems" maxJsonNodes
    | "string" => validateStringSchema object
    | "number" => validateNumberSchema object
    | "integer" => validateNumberSchema object
    | "boolean" =>
      validateIrrelevantKeywords object ["type", "title", "description", "enum", "const"]
    | "null" =>
      validateIrrelevantKeywords object ["type", "title", "description", "enum", "const"]
    | _ => .error (.invalidInputSchema "unsupported JSON type")
  | _, _ => .error (.invalidInputSchema "schema nodes must be objects")

/-- `object.get("properties")` with each property checked. -/
def validateProperties : Entries → Result Entries
  | [] => .error (.invalidInputSchema "object schema requires properties")
  | (key, value) :: rest =>
    if key = "properties" then
      match value with
      | .object properties => do
        ensure (properties.length ≤ 128) (.invalidInputSchema "too many object properties")
        validateEach properties
        pure properties
      | _ => .error (.invalidInputSchema "object schema requires properties")
    else validateProperties rest

def validateEach : Entries → Result Unit
  | [] => .ok ()
  | (name, child) :: rest => do
    validateArgumentName name
    validateSchema child false
    validateEach rest

/-- `object.get("items")` with its schema checked. -/
def validateItems : Entries → Result Unit
  | [] => .error (.invalidInputSchema "array schema requires items")
  | (key, value) :: rest =>
    if key = "items" then validateSchema value false else validateItems rest

end

/-! ## The check of a call's arguments -/

/-- `validate_value_against_schema` up to the part that depends on the type, which is
returned. -/
def validateValueHead (value : Value) (object : Entries) : Result String :=
  match (object.lookup "type").bind Value.asStr with
  | none => .error (.invalidInputSchema "schema node has no type")
  | some kind => do
    ensure (value.matchesType kind) (.invalidToolArguments "value has the wrong type")
    ensure (∀ expected ∈ object.lookup "const", expected.eq value)
      (.invalidToolArguments "const value does not match")
    ensure (∀ values ∈ (object.lookup "enum").bind Value.asArray, values.any (·.eq value))
      (.invalidToolArguments "value is not in enum")
    pure kind

def validateStringValue (value : Value) (schema : Entries) : Result Unit :=
  match value.asStr with
  | none => .error (.invalidToolArguments "expected string")
  | some text =>
    let minimum := ((schema.lookup "minLength").bind Value.asU64).getD 0
    let maximum := ((schema.lookup "maxLength").bind Value.asU64).getD maxToolArgumentBytes
    ensure (minimum ≤ text.length ∧ text.length ≤ maximum)
      (.invalidToolArguments "string length is outside schema bounds")

def validateNumberValue (value : Value) (schema : Entries) : Result Unit :=
  match value.asF64 with
  | none => .error (.invalidToolArguments "expected number")
  | some number =>
    ensure ((∀ minimum ∈ (schema.lookup "minimum").bind Value.asF64, ¬ number.lt minimum) ∧
        ∀ maximum ∈ (schema.lookup "maximum").bind Value.asF64, ¬ maximum.lt number)
      (.invalidToolArguments "number is outside schema bounds")

/-- `validate_array_value` before the items; the items' schema is returned. -/
def validateArrayHead (length : Nat) (schema : Entries) : Result Value := do
  let minimum := ((schema.lookup "minItems").bind Value.asU64).getD 0
  let maximum := ((schema.lookup "maxItems").bind Value.asU64).getD maxJsonNodes
  ensure (minimum ≤ length ∧ length ≤ maximum)
    (.invalidToolArguments "array length is outside schema bounds")
  match schema.lookup "items" with
  | some items => pure items
  | none => .error (.invalidInputSchema "items missing")

/-- `validate_object_value` before the children; the declared properties are returned. -/
def validateObjectHead (fields schema : Entries) : Result Entries :=
  match (schema.lookup "properties").bind Value.asObject with
  | none => .error (.invalidInputSchema "properties missing")
  | some properties =>
    match (schema.lookup "required").bind Value.asArray with
    | none => .error (.invalidInputSchema "required missing")
    | some required => do
      ensure (∀ name ∈ required.filterMap Value.asStr, (fields.lookup name).isSome)
        (.invalidToolArguments "required property is missing")
      pure properties

mutual

def validateValueAgainstSchema : Value → Value → Result Unit
  | value, .object object => do
    let kind ← validateValueHead value object
    match kind with
    | "object" =>
      match value with
      | .object fields => do
        let properties ← validateObjectHead fields object
        validateFields properties fields
      | _ => .error (.invalidToolArguments "expected object")
    | "array" =>
      match value with
      | .array values => do
        let items ← validateArrayHead values.length object
        validateValues items values
      | _ => .error (.invalidToolArguments "expected array")
    | "string" => validateStringValue value object
    | "number" => validateNumberValue value object
    | "integer" => validateNumberValue value object
    | "boolean" => pure ()
    | "null" => pure ()
    | _ => .error (.invalidInputSchema "unsupported JSON type")
  | _, _ => .error (.invalidInputSchema "schema node must be an object")

def validateFields (properties : Entries) : Entries → Result Unit
  | [] => .ok ()
  | (name, child) :: rest =>
    match properties.lookup name with
    | none => .error (.invalidToolArguments "additional property is forbidden")
    | some schema => do
      validateValueAgainstSchema child schema
      validateFields properties rest

def validateValues (schema : Value) : List Value → Result Unit
  | [] => .ok ()
  | value :: rest => do
    validateValueAgainstSchema value schema
    validateValues schema rest

end

/-! ## Definitions and calls -/

/-- `char::is_whitespace`. -/
def isWhitespace (c : Char) : Bool :=
  (0x09 ≤ c.val && c.val ≤ 0x0d) || c.val = 0x20 || c.val = 0x85 || c.val = 0xa0 ||
  c.val = 0x1680 || (0x2000 ≤ c.val && c.val ≤ 0x200a) || c.val = 0x2028 || c.val = 0x2029 ||
  c.val = 0x202f || c.val = 0x205f || c.val = 0x3000

structure ToolDefinition where
  name : String
  description : String
  inputSchema : Value

structure ToolCall where
  id : String
  name : String
  arguments : Value

structure ToolResult where
  callId : String
  isError : Bool
  content : Value

section Validation

variable [FloatText]

def validateArgumentDocument (arguments : Value) : Result Unit := do
  validateJsonLimits arguments "arguments" maxToolArgumentBytes maxJsonDepth maxJsonNodes
  ensure arguments.asObject.isSome (.jsonMustBeObject "arguments")

def ToolDefinition.validate (definition : ToolDefinition) : Result Unit := do
  validateToolName definition.name
  ensure (¬ ∀ c ∈ definition.description.toList, isWhitespace c) (.emptyField "description")
  ensure ((utf8 definition.description).length ≤ maxDescriptionBytes)
    (.fieldTooLong "description" maxDescriptionBytes)
  validateJsonLimits definition.inputSchema "input_schema" maxInputSchemaBytes maxJsonDepth
    maxJsonNodes
  validateSchema definition.inputSchema true

def ToolDefinition.validateArguments (definition : ToolDefinition) (arguments : Value) :
    Result Unit := do
  validateArgumentDocument arguments
  validateValueAgainstSchema arguments definition.inputSchema

def ToolCall.validate (call : ToolCall) : Result Unit := do
  validateCallId call.id
  validateToolName call.name
  validateArgumentDocument call.arguments

def ToolResult.new (callId : String) (isError : Bool) (content : Value) : Result ToolResult := do
  validateCallId callId
  validateJsonLimits content "tool_output" maxToolOutputBytes maxJsonDepth maxJsonNodes
  pure ⟨callId, isError, content⟩

theorem ToolCall.length_le_of_validate {call : ToolCall} {u : Unit} (h : call.validate = .ok u) :
    (utf8 call.id).length ≤ maxCallIdBytes ∧ (utf8 call.name).length ≤ maxToolNameBytes := by
  unfold ToolCall.validate at h
  obtain ⟨_, hid, h⟩ := except_bind_ok.mp h
  obtain ⟨_, hname, -⟩ := except_bind_ok.mp h
  exact ⟨length_le_of_validateAsciiIdentifier hid, length_le_of_validateAsciiIdentifier hname⟩

end Validation

end Lorepia.Tools
