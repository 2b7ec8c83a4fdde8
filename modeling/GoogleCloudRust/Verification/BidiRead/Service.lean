import GoogleCloudRust.Verification.BidiRead.Steps

/-! # A service that answers bidi reads

The service has an object and answers each range it is asked for with the bytes of the range, in
order. It may end a message, or the stream, at any byte. -/

namespace GoogleCloudRust.Bidi

/-- The service holds the size of an object in an `i64`. -/
structure Object where
  content : Bytes
  size_lt : content.length < 2 ^ 63

/-- The bytes from a position, all of them or a number of them. -/
def slice (content : Bytes) (start : ℕ) : Option ℕ → Bytes
  | none => content.drop start
  | some count => (content.drop start).take count

namespace RequestedRange

/-- The values are at most `i64::MAX`. -/
def Representable : RequestedRange → Prop
  | .offset o => o.toNat < 2 ^ 63
  | .tail count => count.toNat < 2 ^ 63
  | .segment o limit => o.toNat < 2 ^ 63 ∧ limit.toNat < 2 ^ 63

/-- Where a range starts. The last zero bytes are the whole object. -/
def start (object : Object) : RequestedRange → ℕ
  | .offset o => o.toNat
  | .tail count => if count = 0 then 0 else object.content.length - count.toNat
  | .segment o _ => o.toNat

/-- A limit of zero is no limit. -/
def count : RequestedRange → Option ℕ
  | .segment _ limit => if limit = 0 then none else some limit.toNat
  | _ => none

end RequestedRange

namespace ProtoRange

/-- A negative offset is one from the end. -/
def start (object : Object) (range : ProtoRange) : ℕ :=
  if range.readOffset < 0 then object.content.length - range.readOffset.toInt.natAbs
  else range.readOffset.toInt.toNat

/-- A length of zero is no limit. -/
def count (range : ProtoRange) : Option ℕ :=
  if range.readLength = 0 then none else some range.readLength.toInt.toNat

end ProtoRange

namespace Object

/-- The bytes that a read asks for. -/
def requested (object : Object) (range : RequestedRange) : Bytes :=
  slice object.content (range.start object) range.count

/-- The bytes that the service is asked for. -/
def denoted (object : Object) (range : ProtoRange) : Bytes :=
  slice object.content (range.start object) range.count

end Object

/-! ## Answers -/

/-- What remains to be sent for a range. -/
structure Answer where
  position : ℕ
  rest : Bytes
deriving DecidableEq

def Object.answer (object : Object) (range : ProtoRange) : Answer where
  position := range.start object
  rest := object.denoted range

def ObjectRangeData.content (response : ObjectRangeData) : Bytes :=
  match response.checksummedData with
  | none => []
  | some data => data.content

/-- The response has the next bytes of the answer, and the last one has all that remain. -/
structure Answer.Sends (crc32c : Bytes → UInt32) (answer : Answer) (range : ProtoRange)
    (response : ObjectRangeData) : Prop where
  offset : range.readOffset.toInt = answer.position
  length : range.readLength.toInt = response.content.length
  content : response.content <+: answer.rest
  checksum : ∀ data ∈ response.checksummedData, ∀ want ∈ data.crc32c, want = crc32c data.content
  last : response.rangeEnd = true → response.content = answer.rest

instance (crc32c : Bytes → UInt32) (answer : Answer) (range : ProtoRange)
    (response : ObjectRangeData) : Decidable (answer.Sends crc32c range response) :=
  -- Without it the checksum may be decided by going over every `u32`.
  have : ∀ data : ChecksummedData,
      Decidable (∀ want ∈ data.crc32c, want = crc32c data.content) :=
    fun data => Option.decidableForallMem data.crc32c
  decidable_of_iff
    (range.readOffset.toInt = answer.position ∧
      range.readLength.toInt = response.content.length ∧ response.content <+: answer.rest ∧
      (∀ data ∈ response.checksummedData, ∀ want ∈ data.crc32c, want = crc32c data.content) ∧
      (response.rangeEnd = true → response.content = answer.rest))
    ⟨fun ⟨hoffset, hlength, hcontent, hchecksum, hlast⟩ =>
      ⟨hoffset, hlength, hcontent, hchecksum, hlast⟩,
      fun h => ⟨h.offset, h.length, h.content, h.checksum, h.last⟩⟩

/-- What remains to be sent for each range of the stream. -/
abbrev Server := AList fun _ : ℤ => Answer

namespace Server

variable (crc32c : Bytes → UInt32)

def request (object : Object) (server : Server) (ranges : List ProtoRange) : Server :=
  ranges.foldl (fun s range => s.insert range.readId (object.answer range)) server

/-- The service sends a response, if it is one that it could send. -/
def reply (server : Server) (response : ObjectRangeData) : Option Server :=
  match response.readRange with
  | none => none
  | some range =>
      match server.lookup range.readId with
      | none => none
      | some answer =>
          if answer.Sends crc32c range response then
            if response.rangeEnd then some (server.erase range.readId)
            else
              some (server.insert range.readId
                { position := answer.position + response.content.length
                  rest := answer.rest.drop response.content.length })
          else none

def replies (server : Server) (data : List ObjectRangeData) : Option Server :=
  data.foldlM (reply crc32c) server

end Server

/-! ## Sessions with a service -/

structure Exchange where
  session : Session
  server : Server

namespace Exchange

variable (crc32c : Bytes → UInt32) (object : Object)

/-- The ranges that the worker asks for when it takes requests. -/
def sent (session : Session) : List ProtoRange :=
  ({ session with requests := session.requests.drop 16 }.insertRanges session.received).2

/-- The part of the service in an event; a new stream begins with the ranges of the request. -/
def serve (exchange : Exchange) (event : Session.Event) : Option Server :=
  match event, exchange.session.phase with
  | .message (.response data), .running => exchange.server.replies crc32c data
  | .message (.failed (.ok data)), .running =>
      (Server.request object ∅ exchange.session.resumed).replies crc32c data
  | .recv, .running => some (exchange.server.request object (sent exchange.session))
  | _, _ => some exchange.server

def step (exchange : Exchange) (event : Session.Event) : Option Exchange :=
  (exchange.serve crc32c object event).map fun server =>
    { session := exchange.session.step crc32c event, server := server }

def run (exchange : Exchange) (events : List Session.Event) : Option Exchange :=
  events.foldlM (step crc32c object) exchange

def new (ranges : List RequestedRange) (initial : List ObjectRangeData) : Option Exchange :=
  match (Server.request object ∅ (Session.opened ranges).2).replies crc32c initial,
    Session.new crc32c ranges initial with
  | some server, .ok session => some { session := session, server := server }
  | _, _ => none

end Exchange

end GoogleCloudRust.Bidi
