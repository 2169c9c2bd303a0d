import DocumentCodec.Proofs.Bson.Sharing
import DocumentCodec.Proofs.Codec.Reachable
import DocumentCodec.Proofs.MessagePack.Sharing
import DocumentCodec.Proofs.Traversal.Encoding

namespace DocumentCodec

/-!
# What operations come to

The result of an operation on a codec is a function of its arguments and of
the codec's settings: `Format.encoding` and `Format.decoding` are what a
document and its bytes come to, and `Frame.reading` is what a source comes to.
Whatever a codec did before, its operations have these results, encoding ones
when a slot of the buffer pool is free.
-/

namespace Format

/-- The bytes of a document, or why there are none. -/
def encoding (format : Format) (document : Document) : Except Error ByteArray :=
  match format.writer.encodeDocument document with
  | .ok encoded => .ok ⟨encoded.toArray⟩
  | .error fault => .error (.encode fault)

/-- The document that bytes are from their start to their end, or what is wrong with them. -/
def decoding (format : Format) (maximum : Nat) (bytes : ByteArray) :
    Except Error Document :=
  Codec.wholeInput format bytes
    (format.reader.read ⟨maximum, none⟩ bytes .empty []).result

/-- Either format's reader finds the same with and without sharing. -/
theorem sharesInput (format : Format) : format.reader.SharesInput := by
  cases format with
  | bson => exact Bson.sharesInput
  | messagePack => exact MessagePack.sharesInput

end Format

namespace Frame

/-- The document of the next frame, or what is wrong with it, and the source behind it. -/
def reading (format : Format) (maximum : Nat) (source : Source) :
    Except Error Document × Source :=
  match source.readExactly headerSize 0 ByteArray.empty headerSize with
  | (.error error, source) => (.error error, source)
  | (.ok header, source) =>
      match extent format (FieldType.uint32.value header.data.toList).toNat with
      | .error error => (.error error, source)
      | .ok extent =>
          if extent.payload ≤ maximum then
            match
              source.readExactly extent.frame headerSize ByteArray.empty extent.body
            with
            | (.error error, source) => (.error error, source)
            | (.ok body, source) =>
                let kept := if format.lengthIncluded then header else ByteArray.empty
                (format.decoding maximum (kept ++ body), source)
          else
            (.error (.capacity extent.payload maximum), source)

end Frame

namespace Codec

variable {codec : Codec}

/-- Whatever a buffer holds, an encoding into it puts the document's bytes behind that. -/
theorem appended_of_write
    (clean : codec.Clean)
    (format : Format)
    (document : Document)
    (buffer : ByteBuffer) :
    match format.encoding document with
    | .ok encoded =>
        ∃ full, (codec.write format document buffer).1 = (.ok (), full) ∧
          buffer.Appended encoded.data.toList full
    | .error error => (codec.write format document buffer).1.1 = .error error := by
  obtain ⟨sameBuffer, result, _⟩ := clean.write format document buffer
  have written := format.writer.write_eq_encodeDocument document buffer
  unfold Format.encoding
  cases encodes : format.writer.encodeDocument document with
  | error fault =>
      rw [encodes] at written
      rw [written] at result
      exact result
  | ok encoded =>
      rw [encodes] at written
      obtain ⟨full, wrote, appended⟩ := written
      rw [wrote] at sameBuffer result
      exact ⟨full, Prod.ext result sameBuffer, appended⟩

/-- A fresh buffer gets the document's encoding, or the encoding's error. -/
theorem write_of_encoding
    {format : Format}
    {document : Document}
    {buffer : ByteBuffer}
    (clean : codec.Clean)
    (fresh : buffer.Fresh) :
    match format.encoding document with
    | .ok encoded =>
        ∃ full, (codec.write format document buffer).1 = (.ok (), full) ∧
          full.bytes = encoded
    | .error error => (codec.write format document buffer).1.1 = .error error := by
  have written := appended_of_write clean format document buffer
  cases encodes : format.encoding document with
  | error error =>
      rw [encodes] at written
      exact written
  | ok encoded =>
      rw [encodes] at written
      obtain ⟨full, wrote, appended⟩ := written
      have listed := appended.bytes_eq
      rw [fresh.bytes_eq] at listed
      exact ⟨full, wrote, ByteArray.ext (Array.toList_inj.mp listed)⟩

/-- With a slot free, the bytes in the buffer that an encoding ends with are the document's. -/
theorem encodeAcquired_eq_encoding
    (clean : codec.Clean)
    (free : codec.buffers.gate.inUse < codec.buffers.gate.ceiling)
    (format : Format)
    (document : Document) :
    (codec.encodeAcquired format document).1.map ByteBuffer.bytes =
      format.encoding document := by
  obtain ⟨buffer, acquired, _⟩ := BoundedPool.exists_acquire free codec.thread
  have fresh := clean.fresh_of_acquireBuffer acquired
  have written := @write_of_encoding _ format document buffer clean.acquireBuffer fresh
  have taken : codec.acquireBuffer = (.ok buffer, codec.acquireBuffer.2) :=
    Prod.ext acquired rfl
  generalize codec.acquireBuffer.2 = after at taken written
  rcases ran : after.write format document buffer with ⟨⟨result, full⟩, last⟩
  rw [ran] at written
  cases encodes : format.encoding document with
  | error error =>
      rw [encodes] at written
      cases written
      simp only [encodeAcquired, taken, ran]
      rfl
  | ok encoded =>
      rw [encodes] at written
      obtain ⟨_, same, rfl⟩ := written
      cases same
      simp only [encodeAcquired, taken, ran]
      rfl

/-- A clean codec with a free slot gives the document's encoding. -/
theorem encode_eq_encoding
    (clean : codec.Clean)
    (free : codec.buffers.gate.inUse < codec.buffers.gate.ceiling)
    (format : Format)
    (document : Document) :
    (codec.encode format document).1 = format.encoding document := by
  rw [← encodeAcquired_eq_encoding clean free]
  rcases ran : codec.encodeAcquired format document with ⟨_ | buffer, after⟩ <;>
    simp only [encode, ran] <;> rfl

/-- The pooled buffer of an encoding is read from its start. -/
theorem encodePooled_eq_encoding
    (clean : codec.Clean)
    (free : codec.buffers.gate.inUse < codec.buffers.gate.ceiling)
    (format : Format)
    (document : Document) :
    (codec.encodePooled format document).1.map
        (fun buffer => (buffer.bytes, buffer.cursor, buffer.readable)) =
      (format.encoding document).map fun encoded => (encoded, 0, true) := by
  rw [← encodeAcquired_eq_encoding clean free]
  rcases ran : codec.encodeAcquired format document with ⟨_ | buffer, after⟩ <;>
    simp only [encodePooled, ran] <;> rfl

/-- A clean codec with a free slot sends the document's encoding as one frame. -/
theorem writeTo_eq_encoding
    (clean : codec.Clean)
    (free : codec.buffers.gate.inUse < codec.buffers.gate.ceiling)
    (format : Format)
    (document : Document)
    (sink : Sink) :
    ((codec.writeTo format document sink).1, (codec.writeTo format document sink).2.2) =
      match format.encoding document with
      | .ok payload => writeFrame format payload sink
      | .error error => (.error error, sink) := by
  rw [← encodeAcquired_eq_encoding clean free]
  rcases ran : codec.encodeAcquired format document with ⟨_ | buffer, after⟩ <;>
    simp only [writeTo, encodePooled, ran] <;> rfl

/-- Clean codecs write alike into the same buffer. -/
theorem encodeInto_congr
    {other : Codec}
    (clean : codec.Clean)
    (cleanOther : other.Clean)
    (format : Format)
    (document : Document)
    (buffer : ByteBuffer) :
    (codec.encodeInto format document buffer).1 =
      (other.encodeInto format document buffer).1 := by
  obtain ⟨sameBuffer, result, _⟩ := clean.write format document buffer
  obtain ⟨otherBuffer, otherResult, _⟩ := cleanOther.write format document buffer
  unfold encodeInto
  cases buffer.readable with
  | true => rfl
  | false =>
      exact Prod.ext (result.trans otherResult.symm) (sameBuffer.trans otherBuffer.symm)

/-- Bytes are read the same as copies and as slices, whatever the target held. -/
theorem read_eq_decoding
    {shared? : Option ByteArray}
    (clean : codec.Clean)
    (format : Format)
    (bytes : ByteArray)
    (owned : ∀ owner ∈ shared?, owner = bytes)
    (target : Document) :
    (codec.read format bytes shared? target).1 =
      format.decoding codec.config.maximumDocumentSize bytes := by
  have same :=
    @ElementReader.read_of_sharesInput _ ⟨codec.config.maximumDocumentSize, shared?⟩
      format.sharesInput bytes owned target .empty []
  rw [(clean.read format bytes shared? target).1, same]
  rfl

/-- A clean codec decodes as the format does. -/
theorem decode_eq_decoding
    (clean : codec.Clean)
    (format : Format)
    (bytes : ByteArray) :
    (codec.decode format bytes).1 =
      format.decoding codec.config.maximumDocumentSize bytes :=
  (clean.read format bytes none .empty).1

/-- What the target held before makes no difference. -/
theorem decodeInto_eq_decoding
    (clean : codec.Clean)
    (format : Format)
    (bytes : ByteArray)
    (target : Document) :
    (codec.decodeInto format bytes target).1 =
      format.decoding codec.config.maximumDocumentSize bytes :=
  read_eq_decoding clean format bytes (fun _ => (Option.not_mem_none _).elim) target

/-- Sharing the input makes no difference. -/
theorem decodeShared_eq_decoding
    (clean : codec.Clean)
    (format : Format)
    (bytes : ByteArray) :
    (codec.decodeShared format bytes).1 =
      format.decoding codec.config.maximumDocumentSize bytes := by
  refine read_eq_decoding clean format bytes ?_ .empty
  intro owner member
  cases mode : codec.config.payloadMode with
  | view =>
      rw [mode] at member
      cases member
      rfl
  | owned =>
      rw [mode] at member
      cases member

/-- What stands behind a frame's header is read the same in either payload mode. -/
theorem readBody_eq_decoding
    (clean : codec.Clean)
    (format : Format)
    (header : ByteArray)
    (extent : Frame.Extent)
    (source : Source) :
    ((codec.readBody format header extent source).1,
        (codec.readBody format header extent source).2.2) =
      match
        source.readExactly extent.frame Frame.headerSize ByteArray.empty extent.body
      with
      | (.error error, source) => (.error error, source)
      | (.ok body, source) =>
          let kept := if format.lengthIncluded then header else ByteArray.empty
          (format.decoding codec.config.maximumDocumentSize (kept ++ body), source) := by
  rcases filled :
    source.readExactly extent.frame Frame.headerSize ByteArray.empty extent.body with
    ⟨_ | body, behind⟩
  · cases mode : codec.config.payloadMode <;>
      simp only [readBody, mode, filled, Except.map]
  · cases mode : codec.config.payloadMode with
    | view =>
        simp only [readBody, mode, filled, Except.map, decodeShared_eq_decoding clean,
          ByteArray.empty_append]
    | owned =>
        obtain ⟨empty, others⟩ := clean.scratch.acquire codec.thread
        have cleanTaken := clean.onScratch others
        simp only [readBody, mode, filled, Except.map, decode_eq_decoding cleanTaken,
          empty, ByteArray.empty_append]

/-- A clean codec receives as the format's framing does. -/
theorem readFrom_eq_reading
    (clean : codec.Clean)
    (format : Format)
    (source : Source) :
    ((codec.readFrom format source).1, (codec.readFrom format source).2.2) =
      Frame.reading format codec.config.maximumDocumentSize source := by
  unfold readFrom Frame.reading
  rcases source.readExactly Frame.headerSize 0 ByteArray.empty Frame.headerSize with
    ⟨_ | header, behind⟩
  · rfl
  · dsimp only
    cases Frame.extent format (FieldType.uint32.value header.data.toList).toNat with
    | error error => rfl
    | ok extent =>
        dsimp only
        by_cases fits : extent.payload ≤ codec.config.maximumDocumentSize
        · rw [if_pos fits, if_pos fits]
          exact readBody_eq_decoding clean format header extent behind
        · rw [if_neg fits, if_neg fits]

end Codec

end DocumentCodec
