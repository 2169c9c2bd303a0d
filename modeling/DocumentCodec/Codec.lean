import DocumentCodec.Bson.Reading
import DocumentCodec.Bson.Writing
import DocumentCodec.Config
import DocumentCodec.MessagePack.Reading
import DocumentCodec.MessagePack.Writing
import DocumentCodec.Pool.Bounded
import DocumentCodec.Pool.Soft

namespace DocumentCodec

/-!
# Codecs

A codec encodes and decodes documents in either format.  It draws its buffers
from a bounded pool and its frame lists and scratch bytes from soft pools, and
gives them back after every call, whether the call succeeds or fails.

Every operation takes the codec and answers with it as it is afterwards.
-/

instance : Reusable ByteBuffer :=
  ⟨ByteBuffer.clear⟩

namespace Format

/-- The rules for writing a format. -/
def writer : Format → ElementWriter
  | bson => Bson.writer
  | messagePack => MessagePack.writer

/-- The rules for reading a format. -/
def reader : Format → ElementReader
  | bson => Bson.reader
  | messagePack => MessagePack.reader

end Format

/-- A configuration with the pools that encoding and decoding draw from. -/
structure Codec where
  config : Config
  buffers : BoundedPool ByteBuffer
  writeFrames : SoftPool (List WriteFrame)
  readFrames : SoftPool (List ReadFrame)
  scratch : SoftPool ByteArray
  /-- The thread that uses the codec. -/
  thread : ThreadId

namespace Codec

/-- A codec whose buffer pool has a policy. -/
def withPolicy (config : Config) (policy : OverflowPolicy) : Codec where
  config := config
  buffers :=
    .create config.initialBuffers config.bufferCeiling policy fun _ =>
      .withCapacity config.bufferCapacity
  writeFrames := .create config.scratchCapacity fun _ => []
  readFrames := .create config.scratchCapacity fun _ => []
  scratch := .create config.scratchCapacity fun _ => ByteArray.empty
  thread := 0

/-- A codec that waits for a buffer when all are in use. -/
def blocking (config : Config) : Codec :=
  withPolicy config (.waiting config.acquireTimeout?)

/-- A codec that reports it at once when all buffers are in use. -/
def failFast (config : Config) : Codec :=
  withPolicy config .failFast

/-- The counts of the buffer pool. -/
def stats (codec : Codec) : PoolStats :=
  codec.buffers.stats

/-- Take a buffer out of the pool. -/
def acquireBuffer (codec : Codec) : Except Error ByteBuffer × Codec :=
  let (result, buffers) := codec.buffers.acquire codec.thread
  (result, { codec with buffers })

/-- Give a buffer back to the pool. -/
def releaseBuffer (codec : Codec) (buffer : ByteBuffer) : Codec :=
  { codec with buffers := codec.buffers.release codec.thread buffer }

/-- Keep a buffer that was taken; the pool gets its slot back. -/
def detachBuffer (codec : Codec) : Codec :=
  { codec with buffers := codec.buffers.forget }

/-- Append a document's encoding to a buffer. -/
def write (codec : Codec) (format : Format) (document : Document)
    (buffer : ByteBuffer) : (Except Error Unit × ByteBuffer) × Codec :=
  let (outcome, writeFrames) :=
    codec.writeFrames.borrow codec.thread fun frames =>
      let outcome := format.writer.write document buffer frames
      ((outcome.fault?, outcome.buffer), outcome.frames)
  let result :=
    match outcome.1 with
    | none => .ok ()
    | some fault => .error (.encode fault)
  ((result, outcome.2), { codec with writeFrames })

/-- Append a document's encoding to a caller's buffer, which must be in write mode. -/
def encodeInto (codec : Codec) (format : Format) (document : Document)
    (buffer : ByteBuffer) : (Except Error Unit × ByteBuffer) × Codec :=
  if buffer.readable then
    ((.error (.encode .bufferInReadMode), buffer), codec)
  else
    codec.write format document buffer

/--
Encode a document into a buffer of the pool, which is given back when that
fails.
-/
def encodeAcquired (codec : Codec) (format : Format) (document : Document) :
    Except Error ByteBuffer × Codec :=
  match codec.acquireBuffer with
  | (.error error, codec) => (.error error, codec)
  | (.ok buffer, codec) =>
      match codec.write format document buffer with
      | ((.ok (), buffer), codec) => (.ok buffer, codec)
      | ((.error error, buffer), codec) => (.error error, codec.releaseBuffer buffer)

/-- Encode a document. -/
def encode (codec : Codec) (format : Format) (document : Document) :
    Except Error ByteArray × Codec :=
  match codec.encodeAcquired format document with
  | (.error error, codec) => (.error error, codec)
  | (.ok buffer, codec) => (.ok buffer.bytes, codec.releaseBuffer buffer)

/-- Encode a document into a buffer of the pool, in read mode; the caller holds it. -/
def encodePooled (codec : Codec) (format : Format) (document : Document) :
    Except Error ByteBuffer × Codec :=
  match codec.encodeAcquired format document with
  | (.error error, codec) => (.error error, codec)
  | (.ok buffer, codec) => (.ok buffer.flip, codec)

/-- Decode bytes that must be one document from their start to their end. -/
def read (codec : Codec) (format : Format) (bytes : ByteArray)
    (shared? : Option ByteArray) (target : Document) :
    Except Error Document × Codec :=
  let options : DecodeOptions := ⟨codec.config.maximumDocumentSize, shared?⟩
  let (outcome, readFrames) :=
    codec.readFrames.borrow codec.thread fun frames =>
      let outcome := format.reader.read options bytes target frames
      (outcome.result, outcome.frames)
  let result :=
    match outcome with
    | .error error => .error error
    | .ok (consumed, document) =>
        if consumed = bytes.size then
          .ok document
        else
          .error <| .format <|
            .trailingBytes (bytes.size - consumed) format consumed
  (result, { codec with readFrames })

/-- Decode bytes; payloads are copies. -/
def decode (codec : Codec) (format : Format) (bytes : ByteArray) :
    Except Error Document × Codec :=
  codec.read format bytes none .empty

/-- Decode bytes into a document, whose entries are dropped. -/
def decodeInto (codec : Codec) (format : Format) (bytes : ByteArray)
    (target : Document) : Except Error Document × Codec :=
  codec.read format bytes none target

/-- Decode shared bytes; payloads are slices of them when the configuration says so. -/
def decodeShared (codec : Codec) (format : Format) (bytes : ByteArray) :
    Except Error Document × Codec :=
  let shared? :=
    match codec.config.payloadMode with
    | .view => some bytes
    | .owned => none
  codec.read format bytes shared? .empty

end Codec

end DocumentCodec
