import DocumentCodec.Proofs.Codec.Reachable

namespace DocumentCodec

/-!
# Sessions

A session is one caller's use of a codec: a sequence of operations, between
which the caller holds buffers of the pool and does with them what it likes.
An operation that fails is part of the session like any other.

Main statement: whatever the operations, the codec of a session is a reachable
one and has the settings it was built with.
-/

/-- One operation of a session; a place is that of a buffer among the held ones. -/
inductive Operation
  /-- Go on as another thread. -/
  | onThread (thread : ThreadId)
  | acquireBuffer
  /-- Write to a held buffer, flip it, clear it or read from it. -/
  | change (place : Nat) (edit : ByteBuffer → ByteBuffer)
  /-- Drop or dispose of a held buffer. -/
  | giveBack (place : Nat)
  /-- Keep a held buffer for good. -/
  | detach (place : Nat)
  | encode (format : Format) (document : Document)
  | encodePooled (format : Format) (document : Document)
  /-- Encode into a buffer of the caller's own. -/
  | encodeInto (format : Format) (document : Document) (buffer : ByteBuffer)
  /-- Encode into a held buffer. -/
  | encodeIntoHeld (format : Format) (document : Document) (place : Nat)
  | decode (format : Format) (bytes : ByteArray)
  | decodeInto (format : Format) (bytes : ByteArray) (target : Document)
  | decodeShared (format : Format) (bytes : ByteArray)
  | writeTo (format : Format) (document : Document) (sink : Sink)
  | readFrom (format : Format) (source : Source)

/-- A codec with the buffers that its caller holds and those it detached. -/
structure Session where
  codec : Codec
  held : List ByteBuffer
  detached : List ByteBuffer

namespace Session

/-- A session on a new codec. -/
def new (config : Config) (policy : OverflowPolicy) : Session :=
  ⟨.withPolicy config policy, [], []⟩

/-- The session with another codec. -/
def onCodec (session : Session) (codec : Codec) : Session :=
  { session with codec }

/-- The session after a buffer was asked for, which is held if there is one. -/
def hold (session : Session) (answer : Except Error ByteBuffer × Codec) : Session :=
  match answer with
  | (.ok buffer, codec) => ⟨codec, session.held ++ [buffer], session.detached⟩
  | (.error _, codec) => session.onCodec codec

/-- Do something with the buffer at a place, and nothing if none is there. -/
def withHeld (session : Session) (place : Nat) (action : ByteBuffer → Session) :
    Session :=
  match session.held[place]? with
  | some buffer => action buffer
  | none => session

/-- Do one operation. -/
def perform (session : Session) : Operation → Session
  | .onThread thread => session.onCodec { session.codec with thread }
  | .acquireBuffer => session.hold session.codec.acquireBuffer
  | .change place edit => { session with held := session.held.modify place edit }
  | .giveBack place =>
      session.withHeld place fun buffer =>
        ⟨session.codec.releaseBuffer buffer, session.held.eraseIdx place,
          session.detached⟩
  | .detach place =>
      session.withHeld place fun buffer =>
        ⟨session.codec.detachBuffer, session.held.eraseIdx place,
          session.detached ++ [buffer]⟩
  | .encode format document => session.onCodec (session.codec.encode format document).2
  | .encodePooled format document =>
      session.hold (session.codec.encodePooled format document)
  | .encodeInto format document buffer =>
      session.onCodec (session.codec.encodeInto format document buffer).2
  | .encodeIntoHeld format document place =>
      session.withHeld place fun buffer =>
        let (answer, codec) := session.codec.encodeInto format document buffer
        ⟨codec, session.held.set place answer.2, session.detached⟩
  | .decode format bytes => session.onCodec (session.codec.decode format bytes).2
  | .decodeInto format bytes target =>
      session.onCodec (session.codec.decodeInto format bytes target).2
  | .decodeShared format bytes =>
      session.onCodec (session.codec.decodeShared format bytes).2
  | .writeTo format document sink =>
      session.onCodec (session.codec.writeTo format document sink).2.1
  | .readFrom format source => session.onCodec (session.codec.readFrom format source).2.1

/-- Do operations one after another. -/
def run (session : Session) (operations : List Operation) : Session :=
  operations.foldl perform session

/-- The codec is a reachable one with given settings. -/
structure Sound (config : Config) (session : Session) : Prop where
  reachable : session.codec.Reachable
  config_eq : session.codec.config = config

variable {config : Config} {session : Session}

/-- An action on one held buffer keeps a session sound if it does so with every buffer. -/
theorem Sound.withHeld
    {action : ByteBuffer → Session}
    (sound : session.Sound config)
    (acted : ∀ buffer, (action buffer).Sound config)
    (place : Nat) :
    (session.withHeld place action).Sound config := by
  unfold Session.withHeld
  split
  · exact acted _
  · exact sound

/-- To hold what an operation gave keeps a session sound. -/
theorem Sound.hold
    {answer : Except Error ByteBuffer × Codec}
    (reachable : answer.2.Reachable)
    (same : answer.2.config = config) :
    (session.hold answer).Sound config := by
  rcases answer with ⟨_ | buffer, codec⟩ <;> exact ⟨reachable, same⟩

/-- Every operation keeps a session sound. -/
theorem Sound.perform (sound : session.Sound config) (operation : Operation) :
    (session.perform operation).Sound config := by
  have ⟨reachable, same⟩ := sound
  cases operation with
  | onThread thread => exact ⟨reachable.onThread thread, same⟩
  | acquireBuffer => exact Sound.hold reachable.acquireBuffer same
  | change place edit => exact ⟨reachable, same⟩
  | giveBack place =>
      refine sound.withHeld (fun buffer => ?_) place
      exact ⟨reachable.releaseBuffer buffer, same⟩
  | detach place =>
      refine sound.withHeld (fun buffer => ?_) place
      exact ⟨reachable.detachBuffer, same⟩
  | encode format document =>
      exact ⟨reachable.encode format document, (Codec.config_encode _ _ _).trans same⟩
  | encodePooled format document =>
      exact Sound.hold (reachable.encodePooled format document)
        ((Codec.config_encodePooled _ _ _).trans same)
  | encodeInto format document buffer =>
      exact ⟨reachable.encodeInto format document buffer,
        (Codec.config_encodeInto _ _ _ _).trans same⟩
  | encodeIntoHeld format document place =>
      refine sound.withHeld (fun buffer => ?_) place
      exact ⟨reachable.encodeInto format document buffer,
        (Codec.config_encodeInto _ _ _ _).trans same⟩
  | decode format bytes => exact ⟨reachable.decode format bytes, same⟩
  | decodeInto format bytes target => exact ⟨reachable.decodeInto format bytes target, same⟩
  | decodeShared format bytes => exact ⟨reachable.decodeShared format bytes, same⟩
  | writeTo format document sink =>
      exact ⟨reachable.writeTo format document sink,
        (Codec.config_writeTo _ _ _ _).trans same⟩
  | readFrom format source =>
      exact ⟨reachable.readFrom format source, (Codec.config_readFrom _ _ _).trans same⟩

/-- A session stays sound over all its operations. -/
theorem Sound.run (sound : session.Sound config) (operations : List Operation) :
    (session.run operations).Sound config := by
  induction operations generalizing session with
  | nil => exact sound
  | cons operation rest inductionHypothesis =>
      exact inductionHypothesis (sound.perform operation)

/-- A session leads to reachable codecs only, and never changes the settings. -/
theorem sound_run_new
    (config : Config)
    (policy : OverflowPolicy)
    (operations : List Operation) :
    ((new config policy).run operations).Sound config := by
  have new : (new config policy).Sound config := ⟨.new config policy, rfl⟩
  exact new.run operations

end Session

end DocumentCodec
