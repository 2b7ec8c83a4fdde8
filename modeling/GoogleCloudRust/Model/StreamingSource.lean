import GoogleCloudRust.Library.Bytes

/-! # Sources of bytes that can be read again

Model of `BytesSource` and `IterSource` in `streaming_source.rs`, whose operations never fail. -/

namespace GoogleCloudRust.StreamingSource

structure BytesSource where
  contents : Bytes
  current : Option Bytes
deriving DecidableEq, Repr

namespace BytesSource

def new (contents : Bytes) : BytesSource := ⟨contents, some contents⟩

def next (self : BytesSource) : BytesSource × Option Bytes :=
  ({ self with current := none }, self.current)

def seek (self : BytesSource) (offset : ℕ) : BytesSource :=
  { self with current := some (self.contents.drop (min offset self.contents.length)) }

end BytesSource

structure IterSource where
  contents : List Bytes
  current : List Bytes
deriving DecidableEq, Repr

namespace IterSource

def new (iterator : List Bytes) : IterSource := ⟨iterator, iterator⟩

def next (self : IterSource) : IterSource × Option Bytes :=
  match self.current with
  | [] => (self, none)
  | b :: current => ({ self with current }, some b)

/-- The loop of `seek`, over the contents and the offset that is left. -/
def seekFrom : ℕ → List Bytes → List Bytes
  | _, [] => []
  | offset, b :: contents =>
      if offset = 0 then b :: seekFrom 0 contents
      else if b.length ≤ offset then seekFrom (offset - b.length) contents
      else b.drop (b.length - offset) :: seekFrom 0 contents

def seek (self : IterSource) (offset : ℕ) : IterSource :=
  { self with current := seekFrom offset self.contents }

end IterSource

inductive Source
  | bytes (source : BytesSource)
  | iter (source : IterSource)
deriving DecidableEq, Repr

namespace Source

def next : Source → Source × Option Bytes
  | bytes source => (bytes source.next.1, source.next.2)
  | iter source => (iter source.next.1, source.next.2)

def seek (offset : ℕ) : Source → Source
  | bytes source => bytes (source.seek offset)
  | iter source => iter (source.seek offset)

inductive Call
  | next
  | seek (offset : ℕ)
deriving DecidableEq, Repr

def call (source : Source) : Call → Source
  | .next => source.next.1
  | .seek offset => source.seek offset

def run (source : Source) (calls : List Call) : Source := calls.foldl call source

end Source

end GoogleCloudRust.StreamingSource
