import DocumentCodec.Proofs.Codec.Results
import DocumentCodec.Proofs.Codec.Writing

namespace DocumentCodec

/-!
# Encoding into a caller's buffer

A caller's buffer gets the bytes that encoding the same document answers with,
behind those it holds, or the same error.  So do the buffers of the pool, which
are handed out to be read from their start.  A buffer in read mode is refused
before anything is done with it.
-/

namespace Codec

variable {codec : Codec}

/-- What is appended to a buffer is the document's encoding. -/
theorem encodeInto_of_encoding
    {format : Format}
    {document : Document}
    {buffer : ByteBuffer}
    (clean : codec.Clean)
    (writable : buffer.readable = false) :
    (codec.encodeInto format document buffer).1.1 =
        (format.encoding document).map (fun _ => ()) ∧
      ∀ encoded, format.encoding document = .ok encoded →
        (codec.encodeInto format document buffer).1.2.bytes = buffer.bytes ++ encoded ∧
          (codec.encodeInto format document buffer).1.2.readable = false := by
  have written := appended_of_write clean format document buffer
  have same : codec.encodeInto format document buffer = codec.write format document buffer := by
    rw [encodeInto, writable]
    rfl
  rw [same]
  cases encodes : format.encoding document with
  | error error =>
      rw [encodes] at written
      exact ⟨written, fun encoded other => by cases other⟩
  | ok encoded =>
      rw [encodes] at written
      obtain ⟨full, wrote, appended⟩ := written
      rw [wrote]
      refine ⟨rfl, fun _ same => ?_⟩
      cases same
      refine ⟨ByteArray.ext (Array.toList_inj.mp ?_), appended.readable_eq.trans writable⟩
      rw [appended.bytes_eq, ByteArray.data_append, Array.toList_append]

/-- What a pooled buffer is read from its start on is the document's encoding. -/
theorem pooled_of_encoding
    {format : Format}
    {document : Document}
    (clean : codec.Clean)
    (free : codec.buffers.gate.inUse < codec.buffers.gate.ceiling) :
    (codec.encodePooled format document).1.map
        (fun pooled => (pooled.bytes, pooled.position, pooled.readable)) =
      (format.encoding document).map fun encoded => (encoded, 0, true) := by
  have pooled := encodePooled_eq_encoding clean free format document
  generalize (codec.encodePooled format document).1 = result at pooled ⊢
  generalize format.encoding document = encoding at pooled ⊢
  cases result with
  | error error =>
      cases encoding with
      | error same =>
          cases pooled
          rfl
      | ok encoded => cases pooled
  | ok buffer =>
      rcases buffer with ⟨bytes, capacity, cursor, readable⟩
      cases encoding with
      | error error => cases pooled
      | ok encoded =>
          cases pooled
          rfl

/--
Encoding into a buffer in write mode comes to what encoding comes to, on any
codec with a slot free: the same error, or the same bytes behind the ones that
the buffer holds, which stays in write mode.  A pooled buffer has these bytes
in read mode from its start on.  A buffer in read mode is refused as it is.
-/
theorem encodeInto_appends_encode
    {other : Codec}
    (reachable : codec.Reachable)
    (otherReachable : other.Reachable)
    (free : other.buffers.gate.inUse < other.buffers.gate.ceiling)
    (format : Format)
    (document : Document)
    (buffer : ByteBuffer) :
    (buffer.readable = false →
      (codec.encodeInto format document buffer).1.1 =
          (other.encode format document).1.map (fun _ => ()) ∧
        ∀ encoded, (other.encode format document).1 = .ok encoded →
          (codec.encodeInto format document buffer).1.2.bytes = buffer.bytes ++ encoded ∧
            (codec.encodeInto format document buffer).1.2.readable = false) ∧
    (other.encodePooled format document).1.map
        (fun pooled => (pooled.bytes, pooled.position, pooled.readable)) =
      (other.encode format document).1.map (fun encoded => (encoded, 0, true)) ∧
    (buffer.readable = true →
      codec.encodeInto format document buffer =
        ((.error (.encode .bufferInReadMode), buffer), codec)) := by
  rw [encode_eq_encoding otherReachable.clean free]
  refine ⟨encodeInto_of_encoding reachable.clean, ?_, fun readable => ?_⟩
  · exact pooled_of_encoding otherReachable.clean free
  · rw [encodeInto, readable]
    rfl

/-- A length patched behind what the buffer holds, on a codec without a free slot. -/
theorem encodeInto_behind_three_bytes :
    let document : Document := ⟨[("a", .map [])]⟩
    let encoded : ByteArray := ⟨#[13, 0, 0, 0, 3, 97, 0, 5, 0, 0, 0, 0, 0]⟩
    let buffer : ByteBuffer := ByteBuffer.empty.write ⟨#[1, 2, 3]⟩
    let full : Codec := (failFast (Config.standard.withBufferCeiling 1)).acquireBuffer.2
    ((failFast .standard).encode .bson document).1 = .ok encoded ∧
      full.buffers.gate.inUse = full.buffers.gate.ceiling ∧
      (full.encodeInto .bson document buffer).1.1 = .ok () ∧
      (full.encodeInto .bson document buffer).1.2.bytes = ⟨#[1, 2, 3]⟩ ++ encoded ∧
      full.encodeInto .bson document buffer.flip =
        ((.error (.encode .bufferInReadMode), buffer.flip), full) := by
  intro document encoded buffer full
  have reachable : full.Reachable := .acquireBuffer (.new _ .failFast)
  have idle : (failFast .standard).Reachable := .new .standard .failFast
  have free : (failFast .standard).buffers.gate.inUse <
      (failFast .standard).buffers.gate.ceiling := by
    decide
  have fits : Format.bson.LengthsFit document := by decide +kernel
  have accepted : Format.bson.spelling.firstRefusal? document.preorder = none := rfl
  have spelled : Format.bson.spelling.document document = encoded.data.toList := by
    decide +kernel
  have encodes : ((failFast .standard).encode .bson document).1 = .ok encoded := by
    rw [encode_eq_encoding idle.clean free, Format.encoding, Format.encodeDocument_eq fits,
      accepted, spelled]
    rfl
  have appends := encodeInto_appends_encode reachable idle free .bson document
  obtain ⟨result, contents⟩ := (appends buffer).1 rfl
  refine ⟨encodes, by decide, ?_, (contents encoded encodes).1, (appends buffer.flip).2.2 rfl⟩
  rw [result]
  exact congrArg (Except.map fun _ => ()) encodes

end Codec

end DocumentCodec
