import DocumentCodec.Format
import DocumentCodec.Text.Utf8
import DocumentCodec.Value.Basic

namespace DocumentCodec

/-!
# Errors

An error names its cause.  The wording of every error is given by
`Error.message` and nowhere else.
-/

/-- Why bytes or a text do not belong to a format. -/
inductive FormatFault
  | invalidText (offset : Nat) (fault : Utf8.Fault)
  | unknownElementType (tag : UInt8) (offset : Nat)
  | stringTooShort (length : Int) (offset : Nat)
  | stringNotTerminated (offset : Nat)
  | negativeBinaryLength (length : Int) (offset : Nat)
  | invalidBoolean (byte : UInt8) (offset : Nat)
  | decimalNaN
  | decimalInfinity
  | rootNotMap (marker : UInt8)
  | keyNotString (offset : Nat) (marker : UInt8)
  | reservedMarker (marker : UInt8) (offset : Nat)
  | unsignedTooLarge (value : Nat) (offset : Nat)
  | trailingBytes (count : Nat) (format : Format) (consumed : Nat)
  | invalidObjectId (text : String) (fault : ObjectId.Fault)
  | custom (text : String)

/-- How a declared length contradicts the bytes around it. -/
inductive CorruptionFault
  | documentTooShort (length : Int) (minimum : Nat)
  | missingTerminator (stop : Nat)
  | misplacedTerminator (offset stop : Nat)
  | nestedTooShort (length : Int) (start minimum : Nat)
  | nestedTooLong (length start stop : Nat)
  | oldBinaryTooShort (length : Int) (offset : Nat)
  | oldBinaryMismatch (offset : Nat) (inner expected : Int)
  | countTooLarge (count offset remaining : Nat)
  | invalidFrameLength (declared : Nat)
  | custom (text : String)

/-- The parts of a document whose lengths are limited. -/
inductive Measured
  | string | binary | document | extension | container
  deriving Repr, DecidableEq

namespace Measured

/-- The name of a limited part. -/
def name : Measured → String
  | string => "string"
  | binary => "binary"
  | document => "document"
  | extension => "extension"
  | container => "container"

end Measured

/-- Why a document cannot be written. -/
inductive EncodeFault
  | unsupportedKind (kind : Kind) (format : Format)
  | keyWithZero (key : String)
  | tooManyBytes (part : Measured) (size : Nat)
  | tooLong (part : Measured) (length : Nat)
  | unsupportedSubtype (subtype : UInt8)
  | decimalExponent (exponent minimum maximum : Int)
  | decimalCoefficient (decimal : Decimal) (maximumDigits : Nat)
  | bufferInReadMode
  | frameTooLarge (size : Nat)
  | custom (text : String)

/-- The kinds of input and output failures that are told apart. -/
inductive IoKind
  | interrupted
  | writeZero
  | other (name : String)
  deriving Repr, DecidableEq

namespace IoKind

/-- The name of a kind. -/
def name : IoKind → String
  | interrupted => "Interrupted"
  | writeZero => "WriteZero"
  | other name => name

/-- The kind of a name. -/
def ofName (name : String) : IoKind :=
  if name == "Interrupted" then
    interrupted
  else if name == "WriteZero" then
    writeZero
  else
    other name

end IoKind

/-- A failure of a source or a sink. -/
structure IoFault where
  kind : IoKind
  text : String
  deriving Repr, DecidableEq

namespace IoFault

/-- The failure of a sink that takes no bytes at all. -/
def nothingAccepted : IoFault :=
  ⟨.writeZero, "failed to write whole buffer"⟩

end IoFault

/-- What can go wrong in encoding, decoding and handing out buffers. -/
inductive Error
  | format (fault : FormatFault)
  | corruption (fault : CorruptionFault)
  | truncated (expected available : Nat)
  | capacity (size maximum : Nat)
  | poolOverflow (ceiling : Nat)
  | encode (fault : EncodeFault)
  | io (fault : IoFault)

namespace FormatFault

/-- The wording of a format fault. -/
def message : FormatFault → String
  | invalidText offset fault =>
      "invalid UTF-8 at offset " ++ toString offset ++ ": " ++ fault.message
  | unknownElementType tag offset =>
      "unknown element type " ++ Hex.marked tag ++ " at offset " ++ toString offset
  | stringTooShort length offset =>
      s!"string length {length} at offset {offset} is below the minimum of 1"
  | stringNotTerminated offset =>
      s!"string at offset {offset} is not NUL-terminated"
  | negativeBinaryLength length offset =>
      s!"binary length {length} at offset {offset} is negative"
  | invalidBoolean byte offset =>
      "invalid boolean byte " ++ Hex.marked byte ++ " at offset " ++ toString offset
  | decimalNaN => "decimal128 NaN is not supported"
  | decimalInfinity => "decimal128 infinity is not supported"
  | rootNotMap marker =>
      "root must be a map, found marker " ++ Hex.marked marker
  | keyNotString offset marker =>
      "map key at offset " ++ toString offset ++ " is not a string (marker " ++
        Hex.marked marker ++ ")"
  | reservedMarker marker offset =>
      "reserved marker " ++ Hex.marked marker ++ " at offset " ++ toString offset
  | unsignedTooLarge value offset =>
      s!"uint64 {value} at offset {offset} does not fit a signed 64-bit integer"
  | trailingBytes count format consumed =>
      toString count ++ " trailing bytes after a " ++ format.name ++
        " document of " ++ toString consumed ++ " bytes"
  | invalidObjectId text fault =>
      "invalid object id " ++ Quoted.text text ++ ": " ++ fault.message
  | custom text => text

end FormatFault

namespace CorruptionFault

/-- The wording of a corruption. -/
def message : CorruptionFault → String
  | documentTooShort length minimum =>
      s!"document length {length} is below the minimum of {minimum}"
  | missingTerminator stop =>
      s!"document ending at offset {stop} has no terminator"
  | misplacedTerminator offset stop =>
      s!"terminator at offset {offset} but the declared end is offset {stop}"
  | nestedTooShort length start minimum =>
      s!"nested length {length} at offset {start} is below the minimum of {minimum}"
  | nestedTooLong length start stop =>
      s!"nested length {length} at offset {start} exceeds the parent bound at offset {stop}"
  | oldBinaryTooShort length offset =>
      s!"old binary length {length} at offset {offset} cannot hold its inner length"
  | oldBinaryMismatch offset inner expected =>
      s!"old binary at offset {offset} declares inner length {inner}, expected {expected}"
  | countTooLarge count offset remaining =>
      s!"{count} entries declared at offset {offset} but only {remaining} bytes remain"
  | invalidFrameLength declared =>
      s!"invalid document length {declared} in frame header"
  | custom text => text

end CorruptionFault

namespace EncodeFault

/-- The wording of an encoding fault. -/
def message : EncodeFault → String
  | unsupportedKind kind format =>
      kind.name ++ " has no " ++ format.title ++ " representation"
  | keyWithZero key =>
      "key " ++ Quoted.text key ++ " contains a NUL byte"
  | tooManyBytes part size =>
      part.name ++ " of " ++ toString size ++ " bytes exceeds the BSON limit"
  | tooLong part length =>
      part.name ++ " of length " ++ toString length ++
        " exceeds the MessagePack limit"
  | unsupportedSubtype subtype =>
      "binary subtype " ++ Hex.marked subtype ++ " has no MessagePack representation"
  | decimalExponent exponent minimum maximum =>
      s!"decimal128 exponent {exponent} outside [{minimum}, {maximum}]"
  | decimalCoefficient decimal maximumDigits =>
      "decimal128 coefficient of " ++ decimal.display ++ " exceeds " ++
        toString maximumDigits ++ " digits"
  | bufferInReadMode =>
      "buffer is in read mode; clear it before encoding into it"
  | frameTooLarge size =>
      s!"frame of {size} bytes does not fit a 4-byte header"
  | custom text => text

end EncodeFault

namespace Error

/-- The wording of an error. -/
def message : Error → String
  | format fault => "format error: " ++ fault.message
  | corruption fault => "corrupted document: " ++ fault.message
  | truncated expected available =>
      s!"truncated input: expected {expected} bytes, {available} available"
  | capacity size maximum =>
      s!"document of {size} bytes exceeds the maximum of {maximum} bytes"
  | poolOverflow ceiling =>
      s!"pool exhausted: all {ceiling} items are checked out"
  | encode fault => "cannot encode: " ++ fault.message
  | io fault => "i/o error: " ++ fault.text

/-- Whether the same call may succeed later: only when a pool was exhausted. -/
def retryable : Error → Bool
  | poolOverflow _ => true
  | _ => false

end Error

/-- Fail with an error unless a condition holds. -/
def ensure (condition : Bool) (error : Error) : Except Error Unit :=
  if condition then .ok () else .error error

namespace ObjectId

/-- Read an identifier, reporting a text that is none as an error. -/
def ofText (text : String) : Except Error ObjectId :=
  match parse text with
  | .ok identifier => .ok identifier
  | .error fault => .error (.format (.invalidObjectId text fault))

end ObjectId

end DocumentCodec
