import Lorepia.Tools.Approval

/-!
# Runs of the tool runtime

One authority over its lifetime, as a server that issues tokens and executes calls. An executor
is invoked only on a call for which a token in force was issued (`executed_only_if_approved`),
and at most once for a token (`executed_at_most_once`), as long as the clock does not return to
before the expiry of a token that an earlier call's clock had passed. Without that condition it
may be twice: the ledger is pruned by the clock of each call, so a call with a late clock makes
the authority forget a token that is in force again for a later call with an early one
(`executed_twice`).
-/

namespace Lorepia.Tools

/-- The calls of the runtime. -/
inductive RuntimeCall where
  | issue (call : ToolCall) (nowUnixMs ttlMs : UInt64)
  | execute (registry : ToolRegistry) (policy : ToolPolicy) (call : ToolCall)
      (approval : Option ApprovalToken) (nowUnixMs : UInt64)

/-- Their replies; a reply of `execute` says whether the executor was invoked. -/
inductive RuntimeReply where
  | issued (reply : Result ApprovalToken)
  | executed (reply : Result ToolResult) (invoked : Bool)

/-- The time an `execute` is given. -/
def RuntimeCall.clock : RuntimeCall → Option UInt64
  | .issue _ _ _ => none
  | .execute _ _ _ _ now => some now

/-- The token an `execute` is given. -/
def RuntimeCall.presented : RuntimeCall → Option ApprovalToken
  | .issue _ _ _ => none
  | .execute _ _ _ approval _ => approval

/-- The executor was invoked on the strength of `token`. -/
def invokes (token : ApprovalToken) : RuntimeCall × RuntimeReply → Bool
  | (.execute _ _ _ (some presented) _, .executed _ true) => presented = token
  | _ => false

section Runs

variable [FloatText] [HmacSha256]

def runtime : Server ApprovalAuthority RuntimeCall RuntimeReply where
  exec
    | .issue call now ttl, authority =>
      let outcome := authority.issueToken call now ttl
      (.issued outcome.1, outcome.2)
    | .execute registry policy call approval now, authority =>
      let outcome := registry.execute policy authority call approval now
      (.executed outcome.reply outcome.invoked, outcome.authority)

theorem issueToken_consumed (authority : ApprovalAuthority) (call : ToolCall)
    (now ttl : UInt64) :
    (authority.issueToken call now ttl).2.consumed = authority.consumed ∧
      (authority.issueToken call now ttl).2.key = authority.key := by
  unfold ApprovalAuthority.issueToken
  split
  · exact ⟨rfl, rfl⟩
  · split_ifs
    · exact ⟨rfl, rfl⟩
    · split
      · exact ⟨rfl, rfl⟩
      · split <;> exact ⟨rfl, rfl⟩

/-! ## At most one execution -/

/-- A token that had expired by the clock of the earlier call has also expired by the clock
of the later call it is presented to. -/
def ClockKept (earlier later : RuntimeCall) : Prop :=
  ∀ before ∈ earlier.clock, ∀ token ∈ later.presented, ∀ now ∈ later.clock,
    token.expiresAtUnixMs < before → token.expiresAtUnixMs < now

/-- The token can lead to no invocation among `calls`: it is in the ledger, or it has
expired whenever it is presented. -/
def Spent (authority : ApprovalAuthority) (token : ApprovalToken) (calls : List RuntimeCall) :
    Prop :=
  (token.nonce, token.expiresAtUnixMs) ∈ authority.consumed ∨
    ∀ call ∈ calls, token ∈ call.presented → ∀ now ∈ call.clock, token.expiresAtUnixMs < now

variable {authority : ApprovalAuthority} {token : ApprovalToken} {c : RuntimeCall}
  {calls : List RuntimeCall}

omit [FloatText] [HmacSha256] in
theorem Spent.retained {now : UInt64} (hclock : ∀ d ∈ calls, ClockKept c d)
    (hnow : now ∈ c.clock) (h : Spent authority token (c :: calls)) :
    Spent { authority with consumed := authority.retained now } token calls := by
  rcases h with h | h
  · by_cases hlive : now ≤ token.expiresAtUnixMs
    · exact .inl (List.mem_filter.mpr ⟨h, by simpa using hlive⟩)
    · -- dropped as expired, and the clock does not come back before its expiry
      refine .inr fun d hd hpresented later hlater => ?_
      exact hclock d hd now hnow token hpresented later hlater (UInt64.not_le.mp hlive)
  · exact .inr fun d hd => h d (List.mem_cons_of_mem _ hd)

omit [FloatText] [HmacSha256] in
theorem Spent.tail (h : Spent authority token (c :: calls)) : Spent authority token calls :=
  h.imp_right fun h d hd => h d (List.mem_cons_of_mem _ hd)

theorem Spent.step (hclock : ∀ d ∈ calls, ClockKept c d) (h : Spent authority token (c :: calls)) :
    invokes token (c, (runtime.exec c authority).1) = false ∧
      Spent (runtime.exec c authority).2 token calls := by
  cases c with
  | issue call now ttl =>
    refine ⟨rfl, ?_⟩
    show Spent (authority.issueToken call now ttl).2 token calls
    unfold Spent
    rw [(issueToken_consumed authority call now ttl).1]
    exact h.tail
  | execute registry policy call approval now =>
    show invokes token (_, .executed _ (registry.execute policy authority call approval now).invoked)
        = false ∧ Spent (registry.execute policy authority call approval now).authority token calls
    rcases ToolRegistry.execute_cases registry policy authority call approval now with
      ⟨hinvoked, hsame | hpruned⟩ |
      ⟨hinvoked, registered, presented, -, -, rfl, hverify, hfresh, hafter⟩
    · rw [hinvoked, hsame]
      exact ⟨by cases approval <;> rfl, h.tail⟩
    · rw [hinvoked, hpruned]
      exact ⟨by cases approval <;> rfl, h.retained hclock rfl⟩
    · have hlive : now ≤ presented.expiresAtUnixMs := (ApprovalAuthority.verify_ok.mp hverify).2.1
      constructor
      · -- the presented token is another one: this one would be in the ledger or expired
        have hne : presented ≠ token := by
          rintro rfl
          rcases h with h | h
          · apply hfresh
            exact List.mem_map.mpr
              ⟨_, List.mem_filter.mpr ⟨h, by simpa using hlive⟩, rfl⟩
          · have := h _ List.mem_cons_self rfl now rfl
            exact UInt64.not_le.mpr this hlive
        simp [invokes, hinvoked, hne]
      · rw [hafter]
        have hkept : Spent { authority with consumed := authority.retained now } token calls :=
          h.retained hclock rfl
        exact hkept.imp_left fun hmem => List.mem_append_left _ hmem

theorem Spent.run (hclock : calls.Pairwise ClockKept) (h : Spent authority token calls) :
    (runtime.run calls authority).1.countP (invokes token) = 0 := by
  induction calls generalizing authority with
  | nil => rfl
  | cons c calls ih =>
    obtain ⟨hfirst, hrest⟩ := List.pairwise_cons.mp hclock
    obtain ⟨hrefused, hspent⟩ := h.step hfirst
    rw [Server.run_cons, List.countP_cons_of_neg (by simp [hrefused])]
    exact ih hrest hspent

theorem spent_of_invokes (h : invokes token (c, (runtime.exec c authority).1) = true) :
    Spent (runtime.exec c authority).2 token calls := by
  cases c with
  | issue call now ttl => cases h
  | execute registry policy call approval now =>
    change invokes token (_, .executed _ (registry.execute policy authority call approval now).invoked)
      = true at h
    rcases ToolRegistry.execute_cases registry policy authority call approval now with
      ⟨hinvoked, -⟩ | ⟨hinvoked, registered, presented, -, -, rfl, -, -, hafter⟩
    · rw [hinvoked] at h
      cases approval <;> cases h
    · rw [hinvoked] at h
      obtain rfl : presented = token := by simpa [invokes] using h
      refine .inl ?_
      show _ ∈ (registry.execute policy authority call (some presented) now).authority.consumed
      rw [hafter]
      exact List.mem_append_right _ List.mem_cons_self

/-- In a run whose clock keeps expired tokens expired, each token leads to at most one
invocation of an executor. -/
theorem executed_at_most_once (authority : ApprovalAuthority) (calls : List RuntimeCall)
    (hclock : calls.Pairwise ClockKept) (token : ApprovalToken) :
    (runtime.run calls authority).1.countP (invokes token) ≤ 1 := by
  induction calls generalizing authority with
  | nil => exact Nat.zero_le 1
  | cons c calls ih =>
    obtain ⟨-, hrest⟩ := List.pairwise_cons.mp hclock
    rw [Server.run_cons]
    by_cases hinvokes : invokes token (c, (runtime.exec c authority).1) = true
    · rw [List.countP_cons_of_pos hinvokes, (spent_of_invokes hinvokes).run hrest]
    · rw [List.countP_cons_of_neg hinvokes]
      exact ih _ hrest

/-! ## Only with approval -/

def signedMessage : RuntimeCall × RuntimeReply → Option Bytes
  | (.issue call _ _, .issued (.ok token)) =>
    some (approvalMessage call token.nonce token.expiresAtUnixMs)
  | _ => none

/-- The message whose tag a presented token carries, if it is the one it is presented for. -/
def acceptedMessage (key : Bytes) : RuntimeCall × RuntimeReply → Option Bytes
  | (.execute _ _ call (some token) _, _) =>
    let message := approvalMessage call token.nonce token.expiresAtUnixMs
    if hexDecode32 token.signature = some (HmacSha256.tag key message) then some message else none
  | _ => none

/-- Nobody but the authority makes tags: where a presented token carries the tag of a
message, the authority has made a tag for that same message before. -/
def Unforgeable (key : Bytes) (log : List (RuntimeCall × RuntimeReply)) : Prop :=
  ∀ i < log.length, ∀ message ∈ log[i]?.bind (acceptedMessage key),
    ∃ j < i, log[j]?.bind signedMessage = some message

/-- What each call and its reply show on their own. -/
inductive Shows (key : Bytes) : RuntimeCall × RuntimeReply → Prop
  | issued {call : ToolCall} {now ttl : UInt64} {token : ApprovalToken}
      (valid : call.validate = .ok ()) : Shows key (.issue call now ttl, .issued (.ok token))
  | refused {call : ToolCall} {now ttl : UInt64} {e : ToolRuntimeError} :
      Shows key (.issue call now ttl, .issued (.error e))
  | invoked {registry : ToolRegistry} {policy : ToolPolicy} {call : ToolCall}
      {token : ApprovalToken} {now : UInt64} {result : Result ToolResult}
      {registered : RegisteredTool} (checked : registry.checkedTool call = .ok registered)
      (allowed : policy.isAllowlisted call.name = true) (live : now ≤ token.expiresAtUnixMs)
      (tagged : hexDecode32 token.signature =
        some (HmacSha256.tag key (approvalMessage call token.nonce token.expiresAtUnixMs))) :
      Shows key (.execute registry policy call (some token) now, .executed result true)
  | stopped {registry : ToolRegistry} {policy : ToolPolicy} {call : ToolCall}
      {approval : Option ApprovalToken} {now : UInt64} {result : Result ToolResult} :
      Shows key (.execute registry policy call approval now, .executed result false)

theorem issueToken_shows (authority : ApprovalAuthority) (call : ToolCall) (now ttl : UInt64) :
    Shows authority.key
      (.issue call now ttl, .issued (authority.issueToken call now ttl).1) := by
  unfold ApprovalAuthority.issueToken
  cases hvalid : call.validate with
  | error e => exact .refused
  | ok u =>
    dsimp only
    split_ifs
    · exact .refused
    · split
      · exact .refused
      · split
        · exact .refused
        · exact .issued hvalid

theorem execute_key (registry : ToolRegistry) (policy : ToolPolicy) (call : ToolCall)
    (approval : Option ApprovalToken) (now : UInt64) :
    (registry.execute policy authority call approval now).authority.key = authority.key := by
  rcases ToolRegistry.execute_cases registry policy authority call approval now with
    ⟨-, h | h⟩ | ⟨-, _, _, -, -, -, -, -, h⟩ <;> rw [h]

theorem execute_shows (registry : ToolRegistry) (policy : ToolPolicy) (call : ToolCall)
    (approval : Option ApprovalToken) (now : UInt64) :
    Shows authority.key (.execute registry policy call approval now,
      .executed (registry.execute policy authority call approval now).reply
        (registry.execute policy authority call approval now).invoked) := by
  rcases ToolRegistry.execute_cases registry policy authority call approval now with
    ⟨hinvoked, -⟩ | ⟨hinvoked, registered, token, hchecked, hallow, rfl, hverify, -⟩
  · rw [hinvoked]
    exact .stopped
  · rw [hinvoked]
    obtain ⟨-, hlive, -, htag⟩ := ApprovalAuthority.verify_ok.mp hverify
    exact .invoked hchecked hallow hlive htag

theorem run_shows (authority : ApprovalAuthority) (calls : List RuntimeCall) :
    ∀ entry ∈ (runtime.run calls authority).1, Shows authority.key entry := by
  let P (log : List (RuntimeCall × RuntimeReply)) (state : ApprovalAuthority) : Prop :=
    state.key = authority.key ∧ ∀ entry ∈ log, Shows authority.key entry
  have step : ∀ log state call, True → P log state →
      P (log ++ [(call, (runtime.exec call state).1)]) (runtime.exec call state).2 := by
    rintro log state call - ⟨hkey, hlog⟩
    have hentry : Shows authority.key (call, (runtime.exec call state).1) ∧
        (runtime.exec call state).2.key = authority.key := by
      rw [← hkey]
      cases call with
      | issue call now ttl =>
        exact ⟨issueToken_shows state call now ttl, (issueToken_consumed state call now ttl).2⟩
      | execute registry policy call approval now =>
        exact ⟨execute_shows registry policy call approval now,
          execute_key registry policy call approval now⟩
    refine ⟨hentry.2, fun entry hmem => ?_⟩
    rcases List.mem_append.mp hmem with hmem | hmem
    · exact hlog entry hmem
    · rw [List.mem_singleton.mp hmem]
      exact hentry.1
  exact (Server.run_history step (fun _ _ => trivial) ⟨rfl, by simp⟩).2

/-- An executor is invoked only on a registered, allowlisted call whose arguments fit the
tool's schema, and only after the authority issued a token, still in force, for a call
with the same id, name and arguments. -/
theorem executed_only_if_approved (authority : ApprovalAuthority) (calls : List RuntimeCall)
    (unforgeable : Unforgeable authority.key (runtime.run calls authority).1) (i : Nat)
    (registry : ToolRegistry) (policy : ToolPolicy) (call : ToolCall)
    (approval : Option ApprovalToken) (now : UInt64) (result : Result ToolResult)
    (hentry : (runtime.run calls authority).1[i]? =
      some (.execute registry policy call approval now, .executed result true)) :
    (∃ registered, registry.tools.lookup call.name = some registered ∧
      registered.definition.validateArguments call.arguments = .ok ()) ∧
    policy.isAllowlisted call.name = true ∧
    ∃ j < i, ∃ approved issuedAt ttl token,
      (runtime.run calls authority).1[j]? =
        some (.issue approved issuedAt ttl, .issued (.ok token)) ∧
      now ≤ token.expiresAtUnixMs ∧ approved.id = call.id ∧ approved.name = call.name ∧
      Same approved.arguments call.arguments := by
  have hshows := run_shows authority calls
  cases hshows _ (List.mem_of_getElem? hentry) with
  | invoked hchecked hallow hlive htag =>
    rename_i token registered
    unfold ToolRegistry.checkedTool at hchecked
    obtain ⟨_, hvalid, hchecked⟩ := except_bind_ok.mp hchecked
    refine ⟨?_, hallow, ?_⟩
    · cases hlookup : registry.tools.lookup call.name with
      | none =>
        rw [hlookup] at hchecked
        cases hchecked
      | some found =>
        rw [hlookup] at hchecked
        obtain ⟨_, harguments, -⟩ := except_bind_ok.mp hchecked
        exact ⟨found, rfl, harguments⟩
    · -- the message of the token was signed before, and it binds the call
      have haccepted : approvalMessage call token.nonce token.expiresAtUnixMs ∈
          (runtime.run calls authority).1[i]?.bind (acceptedMessage authority.key) := by
        rw [hentry, Option.bind_some, acceptedMessage]
        simp [htag]
      have hi : i < (runtime.run calls authority).1.length :=
        (List.getElem?_eq_some_iff.mp hentry).1
      obtain ⟨j, hj, hsigned⟩ := unforgeable i hi _ haccepted
      obtain ⟨entry, hat, hmessage⟩ := Option.bind_eq_some_iff.mp hsigned
      refine ⟨j, hj, ?_⟩
      cases hshows _ (List.mem_of_getElem? hat) with
      | issued hissued =>
        rename_i approved issuedAt ttl signed
        obtain ⟨-, hexpires, hid, hname, hsame⟩ :=
          approvalMessage_inj hissued hvalid (Option.some.inj hmessage)
        exact ⟨approved, issuedAt, ttl, signed, hat, hexpires ▸ hlive, hid, hname, hsame⟩
      | refused => cases hmessage
      | invoked => cases hmessage
      | stopped => cases hmessage

end Runs

/-! ## Runs on concrete calls -/

namespace Rollback

def key : Bytes := List.replicate 32 1

def schema : Value :=
  .object [("type", .string "object"), ("properties", .object []), ("required", .array []),
    ("additionalProperties", .bool false)]

def definition : ToolDefinition := ⟨"echo", "Echo.", schema⟩

def tool : RegisteredTool := ⟨definition, fun _ => .ok ⟨false, .null⟩⟩

def registry : ToolRegistry := ⟨[("echo", tool)]⟩

def policy : ToolPolicy := ⟨["echo"]⟩

def call : ToolCall := ⟨"call-1", "echo", .object []⟩

def authority : ApprovalAuthority := { key := key, nextNonce := 1, consumed := [] }

section

variable [FloatText] [HmacSha256]

def token (nonce expires : UInt64) : ApprovalToken :=
  ⟨approvalVersion, nonce, expires, hexEncode (authority.signature call nonce expires)⟩

/-- A token is used, a later call with a late clock drops it from the ledger, and a call
with the first clock uses it again. -/
def calls : List RuntimeCall :=
  [.issue call 0 100, .issue call 200 100,
    .execute registry policy call (some (token 1 100)) 50,
    .execute registry policy call (some (token 2 300)) 200,
    .execute registry policy call (some (token 1 100)) 50]

end

end Rollback

/-- A tag that says nothing, which is enough for a run with honest tokens only. -/
@[reducible] def zeroTag : HmacSha256 where
  tag _ _ := List.replicate 32 0
  tag_length _ _ := List.length_replicate

theorem executed_twice :
    ApprovalAuthority.new Rollback.key = .ok Rollback.authority ∧
    ((@runtime unitsText zeroTag).run (@Rollback.calls unitsText zeroTag) Rollback.authority).1[0]? =
      some (.issue Rollback.call 0 100, .issued (.ok (@Rollback.token unitsText zeroTag 1 100))) ∧
    ((@runtime unitsText zeroTag).run (@Rollback.calls unitsText zeroTag) Rollback.authority).1.countP
      (invokes (@Rollback.token unitsText zeroTag 1 100)) = 2 :=
  ⟨rfl, rfl, by decide⟩

/-- A run on honest tokens: one is issued, and presented twice. -/
def sampleCalls : List RuntimeCall :=
  [.issue Rollback.call 0 100,
    .execute Rollback.registry Rollback.policy Rollback.call
      (some (@Rollback.token unitsText zeroTag 1 100)) 50,
    .execute Rollback.registry Rollback.policy Rollback.call
      (some (@Rollback.token unitsText zeroTag 1 100)) 60]

instance (earlier later : RuntimeCall) : Decidable (ClockKept earlier later) :=
  inferInstanceAs (Decidable (∀ before ∈ earlier.clock, ∀ token ∈ later.presented,
    ∀ now ∈ later.clock, token.expiresAtUnixMs < before → token.expiresAtUnixMs < now))

theorem executed_at_most_once_sample :
    ((@runtime unitsText zeroTag).run sampleCalls Rollback.authority).1.countP
      (invokes (@Rollback.token unitsText zeroTag 1 100)) ≤ 1 :=
  @executed_at_most_once unitsText zeroTag Rollback.authority sampleCalls (by decide)
    (@Rollback.token unitsText zeroTag 1 100)

theorem executed_only_if_approved_sample :
    ∃ j < 1, ∃ approved issuedAt ttl token,
      ((@runtime unitsText zeroTag).run sampleCalls Rollback.authority).1[j]? =
        some (.issue approved issuedAt ttl, .issued (.ok token)) ∧
      50 ≤ token.expiresAtUnixMs ∧ approved.id = Rollback.call.id ∧
      approved.name = Rollback.call.name ∧ Same approved.arguments Rollback.call.arguments := by
  have unforgeable : @Unforgeable unitsText zeroTag Rollback.key
      ((@runtime unitsText zeroTag).run sampleCalls Rollback.authority).1 := by
    unfold Unforgeable
    decide
  exact (@executed_only_if_approved unitsText zeroTag Rollback.authority sampleCalls unforgeable 1
    Rollback.registry Rollback.policy Rollback.call _ 50 _ rfl).2.2

end Lorepia.Tools
