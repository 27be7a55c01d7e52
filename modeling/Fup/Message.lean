/-
# Messages and their encoding

The header, the bodies, and the encoder and decoder of each. An encoder fills a
vector of the size it computed first, field by field at a running offset. A
decoder checks sizes, then copies fields out of the data at a running offset.
Every copy is checked against the object it reads or writes: an encoder's
buffer records a copy that left it, and a decoder that would read outside the
data ends with `Failure.outOfBounds`.

A member that a constructor leaves unassigned holds no value.
-/

import Fup.Common
import Fup.Lib.Buffer

namespace Fup

/-! ### Data -/

/-- The fixed-size part of each message. -/
structure Header where
  version : Version
  connectionId : ConnectionId
  keyword : Keyword
  bodySize : BodySize
  deriving DecidableEq

/-- The response to a `LIST_FILES` request. -/
structure Files where
  elemCount : FileCountSize
  nameSizes : List NameSize
  filenames : List (List Byte)
  deriving DecidableEq

/-- The request for a file, with the port to send it to. -/
structure Download where
  udpPort : Port
  /-- Not assigned by the decoding constructor. -/
  filenameSize : Option NameSize
  filename : List Byte
  deriving DecidableEq

/-- The announcement of a file and of the packets it takes. -/
structure Upload where
  udpPort : Port
  fileSize : FileSize
  packetCount : PacketCount
  /-- Not assigned by the decoding constructor. -/
  filenameSize : Option NameSize
  filename : List Byte
  deriving DecidableEq

/-- The request to send one packet again. -/
structure Resend where
  seqId : SequenceId
  deriving DecidableEq

/-- One part of the file. -/
structure Packet where
  seqId : SequenceId
  checksum : Checksum
  payload : List Byte
  deriving DecidableEq

/-- The class `Body` and those derived from it. -/
inductive Body
  /-- The base class, the body of `LIST_FILES`, `ACK` and `ABORT`. -/
  | base
  | files (files : Files)
  | download (download : Download)
  | upload (upload : Upload)
  | resend (resend : Resend)
  | packet (packet : Packet)
  deriving DecidableEq

/-- A header and a shared pointer to a body, which may be null. -/
structure Message where
  header : Header
  body : Option Body
  deriving DecidableEq

/-! ### Reading fields -/

section Read

variable (order : ByteOrder) (data : List Byte)

/-- Copy `length` bytes out of the data. -/
def readBytes (offset length : ℕ) : Except Failure (List Byte) :=
  match Buffer.slice? data offset length with
  | some bytes => .ok bytes
  | none => .error .outOfBounds

/-- Copy from an `int` offset, which may have wrapped below zero. -/
def readBytesAt (offset : ℤ) (length : ℕ) : Except Failure (List Byte) :=
  if offset < 0 then .error .outOfBounds else readBytes data offset.toNat length

/-- Copy a field of two bytes and apply `ntohs`. -/
def readNtohs (offset : ℤ) : Except Failure UInt16 := do
  let bytes ← readBytesAt data offset 2
  return htons order (UInt16.ofNat (order.load bytes))

/-- Copy a field of four bytes and apply `ntohl`. -/
def readNtohl (offset : ℤ) : Except Failure UInt32 := do
  let bytes ← readBytesAt data offset 4
  return htonl order (UInt32.ofNat (order.load bytes))

/-- Copy a field of eight bytes and apply `ntohll`. -/
def readNtohll (offset : ℤ) : Except Failure UInt64 := do
  let bytes ← readBytesAt data offset 8
  return htonll order (UInt64.ofNat (order.load bytes))

end Read

/-! ### Header -/

namespace Header

/-- `Header::size`: keyword, body size, version and connection id. -/
def size : ℕ := 1 + 8 + 2 + 4

def serialize (order : ByteOrder) (header : Header) : Buffer Byte :=
  let buf := Buffer.fill size 0
  let v := htons order header.version
  let buf := buf.memcpy 0 (order.store 2 v.toNat)
  let cid := htonl order header.connectionId
  let buf := buf.memcpy 2 (order.store 4 cid.toNat)
  let k := header.keyword.toByte
  let buf := buf.memcpy 6 [k]
  -- `htonl` takes and returns 32 bits, on a field of 64.
  let bs : BodySize := (htonl order header.bodySize.toUInt32).toUInt64
  buf.memcpy 7 (order.store 8 bs.toNat)

def ofData (order : ByteOrder) (data : List Byte) : Except Failure Header :=
  if data.length < size then .error (.exception "fup::Header: Insufficient data")
  else do
    let version ← readNtohs order data 0
    let connectionId ← readNtohl order data 2
    let k ← readBytesAt data 6 1
    let bytes ← readBytesAt data 7 8
    let bodySize : BodySize := UInt64.ofNat (order.load bytes)
    return {
      version := version
      connectionId := connectionId
      keyword := Keyword.ofByte (k.headD 0)
      bodySize := (htonl order bodySize.toUInt32).toUInt64 }

end Header

/-! ### Bodies -/

namespace Files

/-- `Files::size`. The names are summed in an `int`; each length counts one
byte, as does the number of names. -/
def size (files : Files) : MessageSize :=
  let total := files.nameSizes.foldl (fun total s => int32 (total + s.toNat)) 0
  UInt64.ofInt (total + ((files.nameSizes.length + 1) * 1 : ℕ))

/-- One step of the loop over `nameSizes`: `temp` is one byte, and two are
copied from it. -/
def putSize (order : ByteOrder) (buf : Buffer Byte × ℕ) (s : NameSize) : Buffer Byte × ℕ :=
  let temp : Byte := (htons order s).toUInt8
  (buf.1.memcpyObject buf.2 [temp] 2, buf.2 + 2)

/-- One step of the loop over `filenames`. -/
def putName (buf : Buffer Byte × ℕ) (name : List Byte) : Buffer Byte × ℕ :=
  (buf.1.memcpy buf.2 name, buf.2 + name.length)

def serialize (order : ByteOrder) (files : Files) : Except Failure (Buffer Byte) :=
  let n := int32 files.size.toNat
  if n < 0 then .error (.exception "cannot create std::vector larger than max_size()")
  else
    let buf := Buffer.fill n.toNat 0
    -- The count is copied from the member itself, not converted.
    let buf := buf.memcpy 0 (order.store 2 files.elemCount.toNat)
    let sizes := files.nameSizes.foldl (putSize order) (buf, 2)
    .ok (files.filenames.foldl putName sizes).1

/-- The loop that reads the lengths: the lengths, their running total and the
offset behind them. -/
def readSizes (order : ByteOrder) (data : List Byte) :
    ℕ → ℤ → ℤ → Except Failure (List NameSize × ℤ × ℤ)
  | 0, totalStringLen, offset => .ok ([], totalStringLen, offset)
  | n + 1, totalStringLen, offset => do
    let s ← readNtohs order data offset
    let rest ← readSizes order data n (int32 (totalStringLen + s.toNat)) (int32 (offset + 2))
    return (s :: rest.1, rest.2)

/-- The loop that reads the names. -/
def readNames (data : List Byte) : List NameSize → ℤ → Except Failure (List (List Byte))
  | [], _ => .ok []
  | s :: nameSizes, offset => do
    let name ← readBytesAt data offset s.toNat
    let names ← readNames data nameSizes (int32 (offset + s.toNat))
    return name :: names

def ofData (order : ByteOrder) (data : List Byte) : Except Failure Files :=
  if data.length < 2 then .error (.exception "fup::Files: Insufficient data")
  else do
    let elemCount ← readNtohs order data 0
    if data.length - 2 < elemCount.toNat * 2 then
      .error (.exception "fup::Files: Insufficient data")
    else do
      let table ← readSizes order data elemCount.toNat 0 2
      if int32 (table.2.1 + table.2.2) > int32 data.length then
        .error (.exception "fup::Files: Insufficient data")
      else do
        let filenames ← readNames data table.1 table.2.2
        return { elemCount := elemCount, nameSizes := table.1, filenames := filenames }

end Files

namespace Download

def size (download : Download) : MessageSize :=
  UInt64.ofNat (2 + 2 + download.filename.length)

def serialize (order : ByteOrder) (download : Download) : Buffer Byte :=
  let buf := Buffer.fill download.size.toNat 0
  let p := htons order download.udpPort
  let buf := buf.memcpy 0 (order.store 2 p.toNat)
  let ns := htons order (UInt16.ofNat download.filename.length)
  let buf := buf.memcpy 2 (order.store 2 ns.toNat)
  buf.memcpy 4 download.filename

def ofData (order : ByteOrder) (data : List Byte) : Except Failure Download :=
  if data.length < 2 + 2 then .error (.exception "fup::Download: Insufficient data")
  else do
    let udpPort ← readNtohs order data 0
    let ns ← readNtohs order data 2
    if ns = 0 ∨ data.length - 4 < ns.toNat then
      .error (.exception "fup::Download: Insufficient data")
    else do
      let filename ← readBytes data 4 ns.toNat
      return { udpPort := udpPort, filenameSize := none, filename := filename }

end Download

namespace Upload

def size (upload : Upload) : MessageSize :=
  UInt64.ofNat (2 + 8 + 4 + 2 + upload.filename.length)

def serialize (order : ByteOrder) (upload : Upload) : Buffer Byte :=
  let buf := Buffer.fill upload.size.toNat 0
  let p := htons order upload.udpPort
  let buf := buf.memcpy 0 (order.store 2 p.toNat)
  let fs := htonll order upload.fileSize
  let buf := buf.memcpy 2 (order.store 8 fs.toNat)
  let pc := htonl order upload.packetCount
  let buf := buf.memcpy 10 (order.store 4 pc.toNat)
  let ns := htons order (UInt16.ofNat upload.filename.length)
  let buf := buf.memcpy 14 (order.store 2 ns.toNat)
  buf.memcpy 16 upload.filename

def ofData (order : ByteOrder) (data : List Byte) : Except Failure Upload :=
  if data.length < 2 + 8 + 4 + 2 then .error (.exception "fup::Upload: Insufficient data")
  else do
    let udpPort ← readNtohs order data 0
    let fileSize ← readNtohll order data 2
    let packetCount ← readNtohl order data 10
    let ns ← readNtohs order data 14
    if ns = 0 ∨ data.length - 16 < ns.toNat then
      .error (.exception "fup::Upload: Insufficient data")
    else do
      let filename ← readBytes data 16 ns.toNat
      return {
        udpPort := udpPort
        fileSize := fileSize
        packetCount := packetCount
        filenameSize := none
        filename := filename }

end Upload

namespace Resend

def size (_ : Resend) : MessageSize := 8

def serialize (order : ByteOrder) (resend : Resend) : Buffer Byte :=
  let buf := Buffer.fill resend.size.toNat 0
  let s := htonll order resend.seqId
  buf.memcpy 0 (order.store 8 s.toNat)

def ofData (order : ByteOrder) (data : List Byte) : Except Failure Resend :=
  if data.length < 8 then .error (.exception "fup::Resend: Insufficient data")
  else do
    let seqId ← readNtohll order data 0
    return { seqId := seqId }

end Resend

namespace Packet

def size (_ : Packet) : MessageSize := UInt64.ofNat packetSize

def serialize (order : ByteOrder) (packet : Packet) : Buffer Byte :=
  let buf := Buffer.fill packet.size.toNat 0
  let s := htonll order packet.seqId
  let buf := buf.memcpy 0 (order.store 8 s.toNat)
  -- `htons` takes and returns 16 bits, on a field of 32.
  let c : Checksum := (htons order packet.checksum.toUInt16).toUInt32
  let buf := buf.memcpy 8 (order.store 4 c.toNat)
  buf.memcpy 12 packet.payload

def ofData (order : ByteOrder) (data : List Byte) : Except Failure Packet :=
  if data.length < 8 + 4 then .error (.exception "fup::Packet: Insufficient data")
  else do
    let seqId ← readNtohll order data 0
    let bytes ← readBytesAt data 8 4
    let checksum : Checksum := UInt32.ofNat (order.load bytes)
    let payload ← readBytes data 12 (data.length - 12)
    return {
      seqId := seqId
      checksum := (htons order checksum.toUInt16).toUInt32
      payload := payload }

end Packet

namespace Body

/-- The virtual `size`. -/
def size : Body → MessageSize
  | base => 0
  | files f => f.size
  | download d => d.size
  | upload u => u.size
  | resend r => r.size
  | packet p => p.size

/-- The virtual `serialize`. -/
def serialize (order : ByteOrder) : Body → Except Failure (Buffer Byte)
  | base => .ok (Buffer.fill 0 0)
  | files f => f.serialize order
  | download d => .ok (d.serialize order)
  | upload u => .ok (u.serialize order)
  | resend r => .ok (r.serialize order)
  | packet p => .ok (p.serialize order)

/-- `BodyFactory::createBody`. -/
def createBody (order : ByteOrder) (keyword : Keyword) (data : List Byte) :
    Except Failure Body :=
  match keyword with
  | .listFiles => .ok base
  | .files => (Files.ofData order data).map files
  | .download => (Download.ofData order data).map download
  | .upload => (Upload.ofData order data).map upload
  | .resend => (Resend.ofData order data).map resend
  | .ack => .ok base
  | .abort => .ok base
  | .packet => (Packet.ofData order data).map packet
  | .unnamed _ _ => .error (.exception "fup::BodyFactory: Invalid keyword")

end Body

/-! ### Message -/

namespace Message

/-- `Message(Header, std::shared_ptr<Body>)`: the header announces the size of
the body. -/
def ofBody (header : Header) (body : Option Body) : Except Failure Message :=
  match body with
  | none => .error .nullPointer
  | some b => .ok { header := { header with bodySize := b.size }, body := some b }

/-- The size of the vector that `serialize` fills. -/
def size (message : Message) : Except Failure MessageSize :=
  match message.body with
  | none => .error .nullPointer
  | some b => .ok (UInt64.ofNat Header.size + b.size)

def serialize (order : ByteOrder) (message : Message) : Except Failure (Buffer Byte) := do
  let size ← message.size
  let buf := Buffer.fill size.toNat 0
  let h := message.header.serialize order
  let buf := buf.memcpy 0 h.cells
  match message.body with
  | none => .error .nullPointer
  | some body => do
    let b ← body.serialize order
    let buf := buf.memcpy h.cells.length b.cells
    return { buf with inBounds := buf.inBounds && h.inBounds && b.inBounds }

/-- The vector `(data.begin() + Header::size(), data.end())`. A range that
starts behind its end is none. -/
def bodyRange (data : List Byte) : Except Failure (List Byte) :=
  if data.length < Header.size then .error .outOfBounds else .ok (data.drop Header.size)

/-- `Message(const Header&, const std::vector<Byte>&)`. -/
def ofHeader (order : ByteOrder) (h : Header) (data : List Byte) : Except Failure Message :=
  if data.length < h.bodySize.toNat then .error (.exception "fup::Message: Insufficient data")
  else do
    let range ← bodyRange data
    let body ← Body.createBody order h.keyword range
    return { header := h, body := some body }

/-- `Message(const std::vector<Byte>&)`. -/
def ofData (order : ByteOrder) (data : List Byte) : Except Failure Message :=
  if data.length < Header.size then .error (.exception "fup::Message: Insufficient data")
  else do
    let header ← Header.ofData order data
    if data.length - Header.size < header.bodySize.toNat then
      .error (.exception "fup::Message: Insufficient data")
    else do
      let range ← bodyRange data
      let body ← Body.createBody order header.keyword range
      return { header := header, body := some body }

end Message

end Fup
