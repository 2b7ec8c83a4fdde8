import GoogleCloudRust.Library.Text
import Mathlib.Data.UInt

/-! # Request ids

Model of `request_id.rs` and `request_id_interceptor.rs`, with the attempts that send the ids:
`attach_request_id` in `client.rs`, the retry loop of a unary call in `gax-internal/grpc.rs`, and the
restarts of a stream in `result_set.rs`. Texts are lists of characters. -/

namespace GoogleCloudRust.RequestId

open Text (decimal)

def version : List Char := ['1']

/-- The format `{:016x}`. -/
def randProcessId (process : UInt64) : List Char := Decimal.pad 16 (Nat.toDigits 16 process.toNat)

structure RequestIdCreator where
  clientPrefix : List Char
  nextRequestId : ℕ
deriving DecidableEq, Repr

namespace RequestIdCreator

def new (process : UInt64) (clientId : ℕ) : RequestIdCreator where
  clientPrefix := version ++ '.' :: (randProcessId process ++ '.' :: (decimal clientId ++ ['.']))
  nextRequestId := 1

def nextIdPrefix (creator : RequestIdCreator) (channelId : UInt64) :
    List Char × RequestIdCreator :=
  (creator.clientPrefix ++ (decimal channelId.toNat ++ '.' ::
      (decimal creator.nextRequestId ++ ['.'])),
    { creator with nextRequestId := (creator.nextRequestId + 1) % 2 ^ 64 })

/-- `attach_request_id`, on the value of the header among the options. -/
def attachRequestId (creator : RequestIdCreator) (header : Option (List Char))
    (channelId : UInt64) : List Char × RequestIdCreator :=
  match header with
  | some value => (value, creator)
  | none => creator.nextIdPrefix channelId

end RequestIdCreator

/-! ## The interceptor -/

/-- `rposition` of the dot: the bytes up to the last dot, and those behind it. -/
def splitLastDot (value : List Char) : Option (List Char × List Char) :=
  (Text.splitOnce '.' value.reverse).map fun (back, front) =>
    (front.reverse ++ ['.'], back.reverse)

/-- `parse::<u32>`, or `0`. -/
def existingAttempt (text : List Char) : ℕ :=
  match Text.parseU64 text with
  | .ok n => if n < 2 ^ 32 then n else 0
  | .error _ => 0

/-- The number always fits into the rest of the buffer. -/
def intercept (value : List Char) (attempt : ℕ) : List Char :=
  if value.any fun c => 128 ≤ c.toNat then value
  else
    match splitLastDot value with
    | none => value
    | some (basePrefix, attemptText) =>
        let effectiveAttempt := max (existingAttempt attemptText) attempt
        if basePrefix.length + 10 > 128 then value else basePrefix ++ decimal effectiveAttempt

def updateRequestIdAttempt (header : Option (List Char)) (attempt : ℕ) : Option (List Char) :=
  if attempt ≤ 1 then header else header.map fun value => intercept value attempt

/-! ## Calls -/

inductive CallKind
  | unary
  | streaming
deriving DecidableEq, Repr

structure Call where
  client : ℕ
  kind : CallKind
  /-- The header among the options. -/
  header : Option (List Char) := none
  /-- `prior_attempt_count` of a unary call, and `retry_count` of a stream. -/
  attempts : ℕ := 0
deriving DecidableEq, Repr

/-- An id that was sent, for a call. -/
structure Sent where
  call : ℕ
  value : List Char
deriving DecidableEq, Repr

structure Process where
  /-- The random number of the process. -/
  random : UInt64
  /-- `NEXT_CLIENT_ID`. -/
  nextClientId : ℕ := 1
  clients : List RequestIdCreator := []
  calls : List Call := []
  sent : List Sent := []

/-- The options of a stream before it is restarted. -/
def Call.restarted (call : Call) : Option (List Char) :=
  match call.kind with
  | .unary => call.header
  | .streaming =>
      if call.attempts > 0 then
        updateRequestIdAttempt call.header ((call.attempts + 1) % 2 ^ 32)
      else call.header

/-- The number that an attempt has for the interceptor. -/
def Call.attemptNumber (call : Call) : ℕ :=
  match call.kind with
  | .unary => call.attempts % 2 ^ 32 + 1
  | .streaming => 1

inductive Event
  | newClient
  | call (client : ℕ) (kind : CallKind)
  /-- The next attempt of a call, on some channel. It may fail before its request is sent. -/
  | attempt (index : ℕ) (channelId : UInt64) (sends : Bool)

namespace Process

def newClient (process : Process) : Process :=
  { process with
    clients := process.clients ++ [.new process.random process.nextClientId]
    nextClientId := (process.nextClientId + 1) % 2 ^ 64 }

def attempt (process : Process) (index : ℕ) (call : Call) (creator : RequestIdCreator)
    (channelId : UInt64) (sends : Bool) : Process :=
  let attached := creator.attachRequestId call.restarted channelId
  { process with
    clients := process.clients.set call.client attached.2
    calls := process.calls.set index
      { call with header := some attached.1, attempts := call.attempts + 1 }
    sent :=
      if sends then process.sent ++ [⟨index, intercept attached.1 call.attemptNumber⟩]
      else process.sent }

def step (process : Process) : Event → Process
  | .newClient => process.newClient
  | .call client kind => { process with calls := process.calls ++ [{ client, kind }] }
  | .attempt index channelId sends =>
      match process.calls[index]? with
      | none => process
      | some call =>
          match process.clients[call.client]? with
          | none => process
          | some creator => process.attempt index call creator channelId sends

def run (process : Process) (events : List Event) : Process := events.foldl step process

end Process

end GoogleCloudRust.RequestId
