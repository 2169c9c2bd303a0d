import DocumentCodec.Proofs.Codec.Results
import DocumentCodec.Proofs.Codec.Session

namespace DocumentCodec.Codec

/-!
# Independence of history

A codec has no memory: after any session, failures included, its next
operation has the result that it has on a new codec.
-/

/-- Nothing that earlier operations wrote is left in the pools. -/
structure IdleEmpty (codec : Codec) : Prop where
  writeFrames : codec.writeFrames.idle.All (· = [])
  readFrames : codec.readFrames.idle.All (· = [])
  scratch : codec.scratch.idle.All (· = ByteArray.empty)
  buffers : codec.buffers.idle.All ByteBuffer.Fresh

/-- Encodings and written frames that need a buffer of the pool come to the same. -/
structure SamePooledResults (codec other : Codec) : Prop where
  encode (format : Format) (document : Document) :
    (codec.encode format document).1 = (other.encode format document).1
  encodePooled (format : Format) (document : Document) :
    (codec.encodePooled format document).1.map
        (fun buffer => (buffer.bytes, buffer.cursor, buffer.readable)) =
      (other.encodePooled format document).1.map
        fun buffer => (buffer.bytes, buffer.cursor, buffer.readable)
  writeTo (format : Format) (document : Document) (sink : Sink) :
    (codec.writeTo format document sink).1 = (other.writeTo format document sink).1 ∧
      (codec.writeTo format document sink).2.2 = (other.writeTo format document sink).2.2

/-- Decodings, read frames and encodings into the caller's buffers come to the same. -/
structure SameResults (codec other : Codec) : Prop where
  encodeInto (format : Format) (document : Document) (buffer : ByteBuffer) :
    (codec.encodeInto format document buffer).1 =
      (other.encodeInto format document buffer).1
  decode (format : Format) (bytes : ByteArray) :
    (codec.decode format bytes).1 = (other.decode format bytes).1
  decodeShared (format : Format) (bytes : ByteArray) :
    (codec.decodeShared format bytes).1 = (other.decode format bytes).1
  decodeInto (format : Format) (bytes : ByteArray) (target : Document) :
    (codec.decodeInto format bytes target).1 = (other.decode format bytes).1
  readFrom (format : Format) (source : Source) :
    (codec.readFrom format source).1 = (other.readFrom format source).1 ∧
      (codec.readFrom format source).2.2 = (other.readFrom format source).2.2

namespace Clean

variable {codec other : Codec}

/-- A clean codec keeps nothing of earlier work in its idle things. -/
theorem idleEmpty (clean : codec.Clean) : codec.IdleEmpty :=
  ⟨clean.writeFrames.idle, clean.readFrames.idle, clean.scratch.idle, clean.buffers.idle⟩

/-- Clean codecs with a free slot each encode alike. -/
theorem samePooledResults
    (clean : codec.Clean)
    (cleanOther : other.Clean)
    (free : codec.buffers.gate.inUse < codec.buffers.gate.ceiling)
    (freeOther : other.buffers.gate.inUse < other.buffers.gate.ceiling) :
    codec.SamePooledResults other where
  encode format document := by
    rw [encode_eq_encoding clean free, encode_eq_encoding cleanOther freeOther]
  encodePooled format document := by
    rw [encodePooled_eq_encoding clean free, encodePooled_eq_encoding cleanOther freeOther]
  writeTo format document sink := by
    apply Prod.mk.inj
    rw [writeTo_eq_encoding clean free, writeTo_eq_encoding cleanOther freeOther]

/-- Clean codecs of one configuration decode alike. -/
theorem sameResults
    (clean : codec.Clean)
    (cleanOther : other.Clean)
    (sameConfig : codec.config = other.config) :
    codec.SameResults other where
  encodeInto := encodeInto_congr clean cleanOther
  decode format bytes := by
    rw [decode_eq_decoding clean, decode_eq_decoding cleanOther, sameConfig]
  decodeShared format bytes := by
    rw [decodeShared_eq_decoding clean, decode_eq_decoding cleanOther, sameConfig]
  decodeInto format bytes target := by
    rw [decodeInto_eq_decoding clean, decode_eq_decoding cleanOther, sameConfig]
  readFrom format source := by
    apply Prod.mk.inj
    rw [readFrom_eq_reading clean, readFrom_eq_reading cleanOther, sameConfig]

end Clean

/-- A new codec has a free slot. -/
theorem free_withPolicy (config : Config) (policy : OverflowPolicy) :
    (withPolicy config policy).buffers.gate.inUse <
      (withPolicy config policy).buffers.gate.ceiling :=
  Nat.lt_of_lt_of_le Nat.zero_lt_one (Nat.le_max_right _ _)

/--
After any session a codec's pools hold empty things only, and its next
operation has the result, be it bytes, a document or an error, that it has on
a new codec with the same settings, if a slot is free when it needs one.
-/
theorem results_after_session
    (config : Config)
    (policy other : OverflowPolicy)
    (operations : List Operation) :
    let codec := ((Session.new config policy).run operations).codec
    let fresh := withPolicy config other
    codec.IdleEmpty ∧
      (codec.buffers.gate.inUse < codec.buffers.gate.ceiling →
        codec.SamePooledResults fresh) ∧
      codec.SameResults fresh := by
  intro codec fresh
  have ⟨reachable, sameConfig⟩ := Session.sound_run_new config policy operations
  have cleanFresh := clean_withPolicy config other
  refine ⟨reachable.clean.idleEmpty, fun free => ?_, ?_⟩
  · exact reachable.clean.samePooledResults cleanFresh free (free_withPolicy config other)
  · exact reachable.clean.sameResults cleanFresh sameConfig

/--
A session leaves a decoding cut short behind, and a buffer of the pool in read
mode with bytes in it; both have been given back, and one buffer is held.
-/
theorem encode_after_session :
    let operations : List Operation :=
      [.acquireBuffer, .change 0 fun buffer => (buffer.writeList [1, 2, 3]).flip,
        .decode .bson ⟨#[20, 0, 0, 0, 3]⟩, .giveBack 0, .acquireBuffer]
    let codec := ((Session.new .standard .failFast).run operations).codec
    codec.buffers.gate.inUse = 1 ∧
      (codec.encode .bson .empty).1 = (encode (failFast .standard) .bson .empty).1 := by
  intro operations codec
  have held : codec.buffers.gate.inUse = 1 := rfl
  have free : codec.buffers.gate.inUse < codec.buffers.gate.ceiling := by
    rw [held]
    decide
  obtain ⟨_, pooled, _⟩ := results_after_session .standard .failFast .failFast operations
  exact ⟨held, (pooled free).encode .bson .empty⟩

end DocumentCodec.Codec
