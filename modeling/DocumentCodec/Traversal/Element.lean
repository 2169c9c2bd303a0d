import DocumentCodec.Bytes.Reader
import DocumentCodec.Document.Basic

namespace DocumentCodec

/-!
# Elements of containers

Both formats put the elements of a container one behind another.  These are
the types in which a format tells the traversal what to write and what was
read.
-/

/-- How an element is addressed inside its container. -/
inductive Key
  | name (text : String)
  | index (position : Nat)
  deriving Repr, DecidableEq

/-- The two kinds of containers. -/
inductive ContainerKind
  | map
  | array
  deriving Repr, DecidableEq

/-- A container with what it holds. -/
inductive Container
  | map (entries : Entries)
  | array (items : List Value)

namespace Container

/-- The kind of a container. -/
def kind : Container → ContainerKind
  | map _ => .map
  | array _ => .array

/-- Number of elements of a container. -/
def size : Container → Nat
  | map entries => entries.length
  | array items => items.length

end Container

/-- A value as a container, if it is one. -/
def Value.container? : Value → Option Container
  | .map entries => some (.map entries)
  | .array items => some (.array items)
  | _ => none

/--
Where a container being read ends: at an offset, after a number of elements,
or both.  A format uses the one it declares.
-/
structure Bounds where
  stop : Nat
  remaining : Nat
  deriving Repr, DecidableEq

/-- What reading one element of a container finds. -/
inductive Element
  /-- The container is complete. -/
  | finished
  /-- A scalar, with its key in a map. -/
  | scalar (key : Option String) (value : Value)
  /-- A nested container that starts here, with its key in a map. -/
  | opened (key : Option String) (kind : ContainerKind) (bounds : Bounds)

namespace Element

/-- The least number of bytes that an element takes. -/
def minimumSize : Element → Nat
  | finished => 0
  | scalar _ _ => 1
  | opened _ _ _ => 1

end Element

/-- What a decoding run is told beside the bytes. -/
structure DecodeOptions where
  /-- The largest document that is accepted, in bytes. -/
  maximumSize : Nat
  /-- The owner of the input, whose slices payloads may share. -/
  shared? : Option ByteArray

/-- Take some bytes of payload, as a slice of the shared input if there is one. -/
def DecodeOptions.readPayload (options : DecodeOptions) (count : Nat) :
    Decode ByteArray := do
  let offset ← Decode.position
  let bytes ← Decode.readBytes count
  match options.shared? with
  | some owner => pure (owner.extract offset (offset + count))
  | none => pure bytes

/-- A payload takes its bytes, whether they are copied or shared. -/
theorem DecodeOptions.readPayload_shrinking
    (options : DecodeOptions) (count : Nat) :
    Decode.Shrinking (options.readPayload count) := by
  refine Decode.position_shrinking.bind fun offset => ?_
  refine (Decode.readBytes_shrinking count).bind fun bytes => ?_
  split <;> exact Decode.Shrinking.pure _

end DocumentCodec
