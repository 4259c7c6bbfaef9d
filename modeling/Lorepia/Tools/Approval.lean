import Lorepia.Tools.Schema
import Lorepia.Lib.Runs

/-!
# Approvals and dispatch (`policy.rs`, `registry.rs`)

A tool runs only on a call the user approved: the host asks the authority for a token
bound to the call, and `ToolRegistry::execute` checks the registration, the arguments,
the allowlist and the token before it hands the call to the executor. The authority
keeps the nonces it has accepted until their tokens expire.

The runtime is a server whose calls are `issue_token` and `execute`; the registry, the policy
and the time are arguments of each call. The mutex and the atomic counter make each call one
step; what an executor does happens after the step and does not touch the authority.

Of the tag, HMAC-SHA-256, only the length is used here; what a theorem assumes of it is said in
the theorem.
-/

namespace Lorepia.Tools

open Code

def approvalVersion : UInt8 := 1
def maxApprovalTtlMs : UInt64 := 2 * 60 * 1000
def maxConsumedApprovals : Nat := 4096
def maxRegisteredTools : Nat := 64

/-- HMAC-SHA-256 of a message under a key. -/
class HmacSha256 where
  tag : Bytes → Bytes → Bytes
  tag_length : ∀ key message, (tag key message).length = 32

/-! ## Hexadecimal text -/

def hexEncode (bytes : Bytes) : Bytes :=
  bytes.flatMap fun (b : UInt8) => [hexDigit (b >>> 4), hexDigit (b &&& 0x0f)]

def hexNibble (b : UInt8) : Option UInt8 :=
  if 0x30 ≤ b ∧ b ≤ 0x39 then some (b - 0x30)
  else if 0x61 ≤ b ∧ b ≤ 0x66 then some (b - 0x61 + 10)
  else none

def hexPairs : Bytes → Option Bytes
  | high :: low :: rest => do
    let h ← hexNibble high
    let l ← hexNibble low
    let bytes ← hexPairs rest
    pure ((h <<< 4 ||| l) :: bytes)
  | _ => some []

def hexDecode32 (input : Bytes) : Option Bytes :=
  if input.length ≠ 64 then none else hexPairs input

/-! ## Tokens and the authority -/

/-- `ApprovalToken`; the signature is the bytes of its text. -/
structure ApprovalToken where
  version : UInt8
  nonce : UInt64
  expiresAtUnixMs : UInt64
  signature : Bytes
  deriving DecidableEq

/-- `ApprovalAuthority`; `consumed` maps the accepted nonces to the expiry of their
tokens. -/
structure ApprovalAuthority where
  key : Bytes
  nextNonce : UInt64
  consumed : List (UInt64 × UInt64)

/-- `u64::checked_add`. -/
def checkedAdd (a b : UInt64) : Option UInt64 :=
  if a.toNat + b.toNat < 2 ^ 64 then some (a + b) else none

section Message

variable [FloatText]

/-- What `mac` feeds to the tag. -/
def approvalMessage (call : ToolCall) (nonce expiresAtUnixMs : UInt64) : Bytes :=
  utf8 "lorepia-tool-approval-v1" ++ (bigEndian 8 nonce.toNat ++
    (bigEndian 8 expiresAtUnixMs.toNat ++
      (field 8 (utf8 call.id) ++ (field 8 (utf8 call.name) ++
        field 8 (canonicalJson call.arguments)))))

theorem approvalMessage_inj {call call' : ToolCall} {nonce nonce' expires expires' : UInt64}
    {u u' : Unit} (hcall : call.validate = .ok u) (hcall' : call'.validate = .ok u')
    (h : approvalMessage call nonce expires = approvalMessage call' nonce' expires') :
    nonce = nonce' ∧ expires = expires' ∧ call.id = call'.id ∧ call.name = call'.name ∧
      Same call.arguments call'.arguments := by
  have bytes8 : ∀ n : UInt64, n.toNat < 256 ^ 8 := fun n => n.toNat_lt
  obtain ⟨hid, hname⟩ := ToolCall.length_le_of_validate hcall
  obtain ⟨hid', hname'⟩ := ToolCall.length_le_of_validate hcall'
  have short : ∀ {n m : Nat}, n ≤ m → m ≤ 128 → n < 256 ^ 8 := by
    intro n m hn hm
    omega
  unfold approvalMessage at h
  have h := List.append_cancel_left h
  obtain ⟨hnonce, h⟩ := List.append_inj h (by simp)
  obtain ⟨hexpires, h⟩ := List.append_inj h (by simp)
  obtain ⟨hids, h⟩ := field_append_inj (short hid (by decide)) (short hid' (by decide)) h
  obtain ⟨hnames, h⟩ := field_append_inj (short hname (by decide)) (short hname' (by decide)) h
  -- the last field is closed by the end of the message, whatever its length
  obtain ⟨-, harguments⟩ := List.append_inj h (by simp)
  refine ⟨?_, ?_, utf8_inj hids, utf8_inj hnames, canonicalJson_inj harguments⟩
  · exact UInt64.toNat_inj.mp (bigEndian_inj (bytes8 _) (bytes8 _) hnonce)
  · exact UInt64.toNat_inj.mp (bigEndian_inj (bytes8 _) (bytes8 _) hexpires)

end Message

section Authority

variable [FloatText] [HmacSha256]

namespace ApprovalAuthority

/-- `ApprovalAuthority::new`. -/
def new (key : Bytes) : Result ApprovalAuthority :=
  if ∀ b ∈ key, b = 0 then .error .invalidApprovalToken
  else .ok { key := key, nextNonce := 1, consumed := [] }

def signature (authority : ApprovalAuthority) (call : ToolCall) (nonce expires : UInt64) : Bytes :=
  HmacSha256.tag authority.key (approvalMessage call nonce expires)

def issueToken (authority : ApprovalAuthority) (call : ToolCall) (nowUnixMs ttlMs : UInt64) :
    Result ApprovalToken × ApprovalAuthority :=
  match call.validate with
  | .error e => (.error e, authority)
  | .ok () =>
    if ttlMs = 0 ∨ ttlMs > maxApprovalTtlMs then (.error .invalidApprovalLifetime, authority)
    else
      match checkedAdd nowUnixMs ttlMs with
      | none => (.error .invalidApprovalLifetime, authority)
      | some expires =>
        match checkedAdd authority.nextNonce 1 with
        | none => (.error .internalState, authority)
        | some next =>
          let nonce := authority.nextNonce
          let token :=
            { version := approvalVersion, nonce := nonce, expiresAtUnixMs := expires
              signature := hexEncode (authority.signature call nonce expires) }
          (.ok token, { authority with nextNonce := next })

/-- `verify_and_consume` up to the lock: the token is for this call and in force. -/
def verify (authority : ApprovalAuthority) (call : ToolCall) (token : ApprovalToken)
    (nowUnixMs : UInt64) : Result Unit :=
  if token.version ≠ approvalVersion ∨ token.expiresAtUnixMs < nowUnixMs then
    if token.expiresAtUnixMs < nowUnixMs then .error .approvalExpired
    else .error .invalidApprovalToken
  else if token.expiresAtUnixMs.toNat - nowUnixMs.toNat > maxApprovalTtlMs.toNat then
    .error .invalidApprovalToken
  else
    match hexDecode32 token.signature with
    | none => .error .invalidApprovalToken
    | some supplied =>
      if supplied = authority.signature call token.nonce token.expiresAtUnixMs then .ok ()
      else .error .invalidApprovalToken

/-- The ledger after `consumed.retain(..)`. -/
def retained (authority : ApprovalAuthority) (nowUnixMs : UInt64) : List (UInt64 × UInt64) :=
  authority.consumed.filter fun entry => nowUnixMs ≤ entry.2

/-- `verify_and_consume` under the lock. The expired entries are dropped first, also
when the token is then refused. -/
def consume (authority : ApprovalAuthority) (token : ApprovalToken) (nowUnixMs : UInt64) :
    Result Unit × ApprovalAuthority :=
  let consumed := authority.retained nowUnixMs
  if token.nonce ∈ consumed.map (·.1) then
    (.error .approvalReplay, { authority with consumed := consumed })
  else if consumed.length ≥ maxConsumedApprovals then
    (.error .approvalLedgerFull, { authority with consumed := consumed })
  else
    (.ok (), { authority with consumed := consumed ++ [(token.nonce, token.expiresAtUnixMs)] })

def verifyAndConsume (authority : ApprovalAuthority) (call : ToolCall) (token : ApprovalToken)
    (nowUnixMs : UInt64) : Result Unit × ApprovalAuthority :=
  match authority.verify call token nowUnixMs with
  | .error e => (.error e, authority)
  | .ok () => authority.consume token nowUnixMs

end ApprovalAuthority

/-! ## The policy and the registry -/

structure ToolPolicy where
  allowlist : List String

def ToolPolicy.allowOnly : List String → Result ToolPolicy
  | [] => .ok ⟨[]⟩
  | name :: names => do
    validateToolName name
    let policy ← allowOnly names
    pure ⟨name :: policy.allowlist⟩

def ToolPolicy.isAllowlisted (policy : ToolPolicy) (name : String) : Bool :=
  name ∈ policy.allowlist

def ToolPolicy.authorize (policy : ToolPolicy) (authority : ApprovalAuthority) (call : ToolCall)
    (token : Option ApprovalToken) (nowUnixMs : UInt64) : Result Unit × ApprovalAuthority :=
  if ¬ policy.isAllowlisted call.name then (.error (.policyDenied call.name), authority)
  else
    match token with
    | none => (.error .approvalRequired, authority)
    | some token => authority.verifyAndConsume call token nowUnixMs

/-- `ExecutorError`: its code. -/
structure ExecutorError where
  code : String

structure ExecutorOutput where
  isError : Bool
  content : Value

/-- A registered tool. An executor sees the call and returns or fails; a stateful one is
a different function at each call. -/
structure RegisteredTool where
  definition : ToolDefinition
  executor : ToolCall → Except ExecutorError ExecutorOutput

structure ToolRegistry where
  tools : List (String × RegisteredTool)

namespace ToolRegistry

def register (registry : ToolRegistry) (definition : ToolDefinition)
    (executor : ToolCall → Except ExecutorError ExecutorOutput) : Result ToolRegistry := do
  definition.validate
  ensure ((registry.tools.lookup definition.name).isNone) (.duplicateTool definition.name)
  ensure (registry.tools.length < maxRegisteredTools) (.tooManyTools maxRegisteredTools)
  pure ⟨registry.tools ++ [(definition.name, ⟨definition, executor⟩)]⟩

/-- `execute` up to the authorisation. -/
def checkedTool (registry : ToolRegistry) (call : ToolCall) : Result RegisteredTool := do
  call.validate
  match registry.tools.lookup call.name with
  | none => .error (.toolNotRegistered call.name)
  | some registered =>
    registered.definition.validateArguments call.arguments
    pure registered

/-- What a call of `execute` comes to: its reply, the authority it leaves, and whether the
executor was invoked. -/
structure Outcome where
  reply : Result ToolResult
  authority : ApprovalAuthority
  invoked : Bool

/-- The executor's part of `execute`. -/
def invoke (registered : RegisteredTool) (call : ToolCall) : Result ToolResult :=
  match registered.executor call with
  | .error e => .error (.executorFailed e.code)
  | .ok output => ToolResult.new call.id output.isError output.content

def execute (registry : ToolRegistry) (policy : ToolPolicy) (authority : ApprovalAuthority)
    (call : ToolCall) (approval : Option ApprovalToken) (nowUnixMs : UInt64) : Outcome :=
  match registry.checkedTool call with
  | .error e => ⟨.error e, authority, false⟩
  | .ok registered =>
    match policy.authorize authority call approval nowUnixMs with
    | (.error e, authority) => ⟨.error e, authority, false⟩
    | (.ok (), authority) => ⟨invoke registered call, authority, true⟩

end ToolRegistry

/-! ## What the steps do -/

namespace ApprovalAuthority

variable {authority : ApprovalAuthority} {call : ToolCall} {token : ApprovalToken}
  {now ttl : UInt64}

theorem verify_ok {u : Unit} : authority.verify call token now = .ok u ↔
    token.version = approvalVersion ∧ now ≤ token.expiresAtUnixMs ∧
      token.expiresAtUnixMs.toNat - now.toNat ≤ maxApprovalTtlMs.toNat ∧
      hexDecode32 token.signature =
        some (authority.signature call token.nonce token.expiresAtUnixMs) := by
  unfold verify
  by_cases hversion : token.version = approvalVersion
  case neg => by_cases hexpired : token.expiresAtUnixMs < now <;> simp [hversion, hexpired]
  by_cases hexpired : token.expiresAtUnixMs < now
  case pos => simp [hversion, hexpired, UInt64.not_le.mpr hexpired]
  have hlive : now ≤ token.expiresAtUnixMs := UInt64.not_lt.mp hexpired
  by_cases hlong : token.expiresAtUnixMs.toNat - now.toNat ≤ maxApprovalTtlMs.toNat
  case neg => simp only [hversion, hexpired, hlive, hlong]; simp [Nat.not_le.mp hlong]
  simp only [hversion, hexpired, hlive, hlong, Nat.not_lt.mpr hlong, true_and, ne_eq,
    not_true_eq_false, or_self, if_false]
  cases hexDecode32 token.signature with
  | none => simp
  | some supplied => simp

end ApprovalAuthority

namespace ToolRegistry

/-- Either the call stops before the executor and the ledger is at most pruned, or everything is
in order and the token is recorded behind the entries that are still in force. -/
theorem execute_cases (registry : ToolRegistry) (policy : ToolPolicy) (authority : ApprovalAuthority)
    (call : ToolCall) (approval : Option ApprovalToken) (now : UInt64) :
    (registry.execute policy authority call approval now).invoked = false ∧
        ((registry.execute policy authority call approval now).authority = authority ∨
          (registry.execute policy authority call approval now).authority =
            { authority with consumed := authority.retained now }) ∨
      (registry.execute policy authority call approval now).invoked = true ∧
        ∃ registered token, registry.checkedTool call = .ok registered ∧
          policy.isAllowlisted call.name = true ∧ approval = some token ∧
          authority.verify call token now = .ok () ∧
          token.nonce ∉ (authority.retained now).map (·.1) ∧
          (registry.execute policy authority call approval now).authority =
            { authority with
              consumed := authority.retained now ++ [(token.nonce, token.expiresAtUnixMs)] } := by
  unfold execute
  cases hchecked : registry.checkedTool call with
  | error e => exact .inl ⟨rfl, .inl rfl⟩
  | ok registered =>
    unfold ToolPolicy.authorize
    by_cases hallow : policy.isAllowlisted call.name = true
    case neg =>
      rw [if_pos hallow]
      exact .inl ⟨rfl, .inl rfl⟩
    rw [if_neg (not_not.mpr hallow)]
    cases approval with
    | none => exact .inl ⟨rfl, .inl rfl⟩
    | some token =>
      dsimp only
      unfold ApprovalAuthority.verifyAndConsume
      cases hverify : authority.verify call token now with
      | error e => exact .inl ⟨rfl, .inl rfl⟩
      | ok u =>
        unfold ApprovalAuthority.consume
        dsimp only
        split_ifs with hseen hfull
        · exact .inl ⟨rfl, .inr rfl⟩
        · exact .inl ⟨rfl, .inr rfl⟩
        · exact .inr ⟨rfl, registered, token, rfl, hallow, rfl, hverify, hseen, rfl⟩

end ToolRegistry

end Authority

end Lorepia.Tools
