namespace DocumentCodec

/-!
# Configuration

The sizes of a codec's pools, the limit on documents and the handling of
payloads.  A configuration is made from the default one by its setters.
-/

/-- How the payloads of a shared input come into a document. -/
inductive PayloadMode
  /-- Every payload is a copy. -/
  | owned
  /-- A payload is a slice of the shared input. -/
  | view
  deriving Repr, DecidableEq

namespace PayloadMode

/-- The name of a mode. -/
def name : PayloadMode → String
  | owned => "Owned"
  | view => "View"

end PayloadMode

/-- The settings of a codec. -/
structure Config where
  /-- Buffers made in advance, before the ceiling is considered. -/
  requestedBuffers : Nat := 4
  /-- The largest number of buffers in use at once; at least one. -/
  bufferCeiling : Nat := 64
  /-- How long to wait for a buffer, in milliseconds; without a limit if absent. -/
  acquireTimeout? : Option Nat := none
  /-- The largest document that is decoded, in bytes. -/
  maximumDocumentSize : Nat := 16 * 1024 * 1024
  payloadMode : PayloadMode := .owned
  /-- The capacity of a new buffer. -/
  bufferCapacity : Nat := 256
  /-- The largest number of idle scratch items kept in a pool segment. -/
  scratchCapacity : Nat := 32
  deriving Repr, DecidableEq

namespace Config

/-- The configuration that is used unless told otherwise. -/
def standard : Config :=
  {}

instance : Inhabited Config :=
  ⟨standard⟩

/-- Set the number of buffers made in advance. -/
def withInitialBuffers (config : Config) (count : Nat) : Config :=
  { config with requestedBuffers := count }

/-- Set the largest number of buffers in use at once; zero counts as one. -/
def withBufferCeiling (config : Config) (count : Nat) : Config :=
  { config with bufferCeiling := max count 1 }

/-- Set how long to wait for a buffer. -/
def withAcquireTimeout (config : Config) (millis : Nat) : Config :=
  { config with acquireTimeout? := some millis }

/-- Set the largest document that is decoded. -/
def withMaximumDocumentSize (config : Config) (size : Nat) : Config :=
  { config with maximumDocumentSize := size }

/-- Set the handling of payloads. -/
def withPayloadMode (config : Config) (mode : PayloadMode) : Config :=
  { config with payloadMode := mode }

/-- Set the capacity of a new buffer. -/
def withBufferCapacity (config : Config) (capacity : Nat) : Config :=
  { config with bufferCapacity := capacity }

/-- Set the largest number of idle scratch items kept in a pool segment. -/
def withScratchCapacity (config : Config) (capacity : Nat) : Config :=
  { config with scratchCapacity := capacity }

/-- The number of buffers made in advance, which the ceiling limits. -/
def initialBuffers (config : Config) : Nat :=
  min config.requestedBuffers config.bufferCeiling

end Config

end DocumentCodec
