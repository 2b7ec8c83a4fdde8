import GoogleCloudRust.Library.Bytes

/-! # Checksums of objects

Model of `checksum/details.rs`. The CRC32C and MD5 functions are those of other packages: what a
hasher has consumed stands for its state. -/

namespace GoogleCloudRust

namespace Storage

structure ObjectChecksums where
  crc32c : Option UInt32 := none
  md5Hash : Bytes := []
deriving DecidableEq, Repr

/-- The checksums that are known come first. -/
def ObjectChecksums.update (known computed : ObjectChecksums) : ObjectChecksums where
  crc32c := known.crc32c.or computed.crc32c
  md5Hash := if known.md5Hash = [] then computed.md5Hash else known.md5Hash

inductive ChecksumMismatch
  | crc32c (got want : UInt32)
  | md5 (got want : Bytes)
  | both (got want : ObjectChecksums)
deriving DecidableEq, Repr

/-- The CRC32C checksums that differ, the received one first. -/
def differentCrc32c (expected received : ObjectChecksums) : Option (UInt32 × UInt32) :=
  match expected.crc32c, received.crc32c with
  | some e, some r => if e ≠ r then some (r, e) else none
  | _, _ => none

def differentMd5 (expected received : ObjectChecksums) : Option (Bytes × Bytes) :=
  if expected.md5Hash = [] ∨ received.md5Hash = [] ∨ expected.md5Hash = received.md5Hash then none
  else some (received.md5Hash, expected.md5Hash)

def validate (expected : ObjectChecksums) (received : Option ObjectChecksums) :
    Except ChecksumMismatch Unit :=
  match received with
  | none => .ok ()
  | some recv =>
      match differentCrc32c expected recv, differentMd5 expected recv with
      | none, none => .ok ()
      | some (got, want), none => .error (.crc32c got want)
      | none, some (got, want) => .error (.md5 got want)
      | some (crcGot, crcWant), some (md5Got, md5Want) =>
          .error (.both ⟨some crcGot, md5Got⟩ ⟨some crcWant, md5Want⟩)

/-- The functions of the packages `crc32c` and `md5`. -/
structure Digests where
  crc32cAppend : UInt32 → Bytes → UInt32
  append_nil : ∀ checksum, crc32cAppend checksum [] = checksum
  append_append : ∀ checksum a b,
    crc32cAppend (crc32cAppend checksum a) b = crc32cAppend checksum (a ++ b)
  md5 : Bytes → Bytes

def Digests.crc32c (digests : Digests) (data : Bytes) : UInt32 := digests.crc32cAppend 0 data

/-- What an engine counts the bytes with: numbers where no sum overflows, else words that wrap. -/
class Offset (ι : Type) where
  zero : ι
  toNat : ι → ℕ
  advance : ι → ℕ → ι

instance instOffsetNat : Offset ℕ := ⟨0, id, (· + ·)⟩

instance instOffsetUInt64 : Offset UInt64 :=
  ⟨0, UInt64.toNat, fun offset length => offset + UInt64.ofNat length⟩

variable {ι : Type} [Offset ι]

/-- The position after an update at `offset`, and what of the data is new. -/
def checkedUpdate (current offset : ι) (data : Bytes) : ι × Bytes :=
  let last := Offset.advance offset data.length
  if Offset.toNat offset ≤ Offset.toNat current ∧ Offset.toNat current < Offset.toNat last then
    (last, data.drop (Offset.toNat current - Offset.toNat offset))
  else (current, [])

structure Crc32c (ι : Type) [Offset ι] where
  checksum : UInt32 := 0
  offset : ι := Offset.zero
deriving DecidableEq, Repr

def Crc32c.update (digests : Digests) (crc : Crc32c ι) (offset : ι) (data : Bytes) : Crc32c ι where
  checksum := digests.crc32cAppend crc.checksum (checkedUpdate crc.offset offset data).2
  offset := (checkedUpdate crc.offset offset data).1

/-- The hasher is what it has consumed. -/
structure Md5 (ι : Type) [Offset ι] where
  hasher : Bytes := []
  offset : ι := Offset.zero
deriving DecidableEq, Repr

def Md5.update (md5 : Md5 ι) (offset : ι) (data : Bytes) : Md5 ι where
  hasher := md5.hasher ++ (checkedUpdate md5.offset offset data).2
  offset := (checkedUpdate md5.offset offset data).1

structure Checksum (ι : Type) [Offset ι] where
  crc32c : Option (Crc32c ι) := none
  md5Hash : Option (Md5 ι) := none
deriving DecidableEq, Repr

namespace Checksum

def update (digests : Digests) (checksum : Checksum ι) (offset : ι) (data : Bytes) :
    Checksum ι where
  crc32c := checksum.crc32c.map (·.update digests offset data)
  md5Hash := checksum.md5Hash.map (·.update offset data)

def finalize (digests : Digests) (checksum : Checksum ι) : ObjectChecksums where
  crc32c := checksum.crc32c.map (·.checksum)
  md5Hash := (checksum.md5Hash.map fun md5 => digests.md5 md5.hasher).getD []

end Checksum

end Storage

/-! ## A source that is read

`ChecksummedSource`, with offsets of the width of the code. The answers of the source are inputs. -/

namespace Checksumming

open Storage (Checksum ObjectChecksums Digests)

structure ChecksummedSource where
  offset : UInt64
  checksum : Checksum UInt64
deriving DecidableEq, Repr

namespace ChecksummedSource

def new (checksum : Checksum UInt64) : ChecksummedSource := ⟨0, checksum⟩

def finalChecksum (digests : Digests) (self : ChecksummedSource) : ObjectChecksums :=
  self.checksum.finalize digests

def resetChecksum (self : ChecksummedSource) : ChecksummedSource := { self with checksum := {} }

/-- `item` is what `next` of the source returns, and what is returned. -/
def next (digests : Digests) (self : ChecksummedSource) (item : Option (Except String Bytes)) :
    ChecksummedSource :=
  match item with
  | none => self
  | some (.ok b) =>
      { offset := self.offset + UInt64.ofNat b.length
        checksum := self.checksum.update digests self.offset b }
  | some (.error _) => self

/-- `result` is what `seek` of the source returns, and what is returned. -/
def seek (self : ChecksummedSource) (offset : UInt64) (result : Except String Unit) :
    ChecksummedSource :=
  match result with
  | .ok () => { self with offset }
  -- The position is unknown, so all further data is to be ignored for the checksums.
  | .error _ => { self with offset := UInt64.ofNat (2 ^ 64 - 1) }

end ChecksummedSource

end Checksumming

end GoogleCloudRust
