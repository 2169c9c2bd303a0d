import DocumentCodec.Codec
import DocumentCodec.Stream.Sink
import DocumentCodec.Stream.Source

namespace DocumentCodec

/-!
# Documents on a stream

Documents follow each other on a stream as frames that start with four bytes
of length, least significant first.  A BSON document begins with its own
length, so its frame is the document itself; a MessagePack document has its
length in front of it.  A length is checked before anything behind it is read.
-/

namespace Format

/-- Whether the four bytes of length belong to the document. -/
def lengthIncluded : Format → Bool
  | bson => true
  | messagePack => false

end Format

namespace Frame

/-- Number of bytes of a frame's length. -/
def headerSize : Nat := 4

/-- The largest length that a frame can declare. -/
def maximumLength : Nat := 0xffffffff

/-- What stands in front of a document in a frame. -/
def header (format : Format) (size : Nat) : ByteArray :=
  if format.lengthIncluded then
    ByteArray.empty
  else
    ⟨(FieldType.uint32.bytes size).toArray⟩

/-- The sizes that a frame's header declares. -/
structure Extent where
  /-- Size of the whole frame. -/
  frame : Nat
  /-- Number of bytes behind the header. -/
  body : Nat
  /-- Size of the document. -/
  payload : Nat
  deriving Repr, DecidableEq

/-- The sizes that a declared length stands for, if it is one. -/
def extent (format : Format) (declared : Nat) : Except Error Extent :=
  if format.lengthIncluded then
    if Bson.minimumSize ≤ declared ∧ declared ≤ Framing.maximumLength then
      .ok ⟨declared, declared - headerSize, declared⟩
    else
      .error (.corruption (.invalidFrameLength declared))
  else
    .ok ⟨headerSize + declared, declared, declared⟩

end Frame

namespace Codec

/-- Write the frame of an encoded document. -/
def writeFrame (format : Format) (payload : ByteArray) (sink : Sink) :
    Except Error Nat × Sink :=
  if format.lengthIncluded then
    match sink.writeFully payload with
    | (.ok (), sink) => (.ok payload.size, sink)
    | (.error error, sink) => (.error error, sink)
  else if payload.size ≤ Frame.maximumLength then
    match sink.writeFully (Frame.header format payload.size) with
    | (.error error, sink) => (.error error, sink)
    | (.ok (), sink) =>
        match sink.writeFully payload with
        | (.ok (), sink) => (.ok (Frame.headerSize + payload.size), sink)
        | (.error error, sink) => (.error error, sink)
  else
    (.error (.encode (.frameTooLarge payload.size)), sink)

/-- Write a document as one frame; the result is the number of bytes written. -/
def writeTo (codec : Codec) (format : Format) (document : Document)
    (sink : Sink) : Except Error Nat × Codec × Sink :=
  match codec.encodePooled format document with
  | (.error error, codec) => (.error error, codec, sink)
  | (.ok buffer, codec) =>
      let (result, sink) := writeFrame format buffer.bytes sink
      (result, codec.releaseBuffer buffer, sink)

/-- Read what stands behind a frame's header and decode the document. -/
def readBody (codec : Codec) (format : Format) (header : ByteArray)
    (extent : Frame.Extent) (source : Source) :
    Except Error Document × Codec × Source :=
  let kept := if format.lengthIncluded then header else ByteArray.empty
  let fill (target : ByteArray) : Except Error ByteArray × Source :=
    let (result, source) :=
      source.readExactly extent.frame Frame.headerSize ByteArray.empty extent.body
    (result.map fun body => target ++ kept ++ body, source)
  match codec.config.payloadMode with
  | .view =>
      match fill ByteArray.empty with
      | (.error error, source) => (.error error, codec, source)
      | (.ok bytes, source) =>
          let (result, codec) := codec.decodeShared format bytes
          (result, codec, source)
  | .owned =>
      let (scratch, pool) := codec.scratch.acquire codec.thread
      let codec := { codec with scratch := pool }
      match fill scratch with
      | (.error error, source) =>
          (.error error,
            { codec with scratch := codec.scratch.release codec.thread scratch },
            source)
      | (.ok bytes, source) =>
          let (result, codec) := codec.decode format bytes
          (result,
            { codec with scratch := codec.scratch.release codec.thread bytes },
            source)

/-- Read one frame and decode its document. -/
def readFrom (codec : Codec) (format : Format) (source : Source) :
    Except Error Document × Codec × Source :=
  match source.readExactly Frame.headerSize 0 ByteArray.empty Frame.headerSize with
  | (.error error, source) => (.error error, codec, source)
  | (.ok header, source) =>
      let declared := (FieldType.uint32.value header.data.toList).toNat
      match Frame.extent format declared with
      | .error error => (.error error, codec, source)
      | .ok extent =>
          if extent.payload ≤ codec.config.maximumDocumentSize then
            codec.readBody format header extent source
          else
            (.error (.capacity extent.payload codec.config.maximumDocumentSize),
              codec, source)

end Codec

end DocumentCodec
