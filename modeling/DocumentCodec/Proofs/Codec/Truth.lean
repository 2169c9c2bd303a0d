import DocumentCodec.Proofs.Bson.Truth
import DocumentCodec.Proofs.Codec.Results
import DocumentCodec.Proofs.MessagePack.Truth

namespace DocumentCodec

/-!
# Whose errors they are

Decoding ends in errors that are true of the bytes.  Reading a frame adds those
of its source, and writing one those of its sink; none of these is worth
another try, which only the overflow of a pool is.
-/

/-- An error that describes an input is not about a pool. -/
theorem Error.IsTrueOf.not_retryable
    {input : ByteArray}
    {error : Error}
    (holds : error.IsTrueOf input) :
    error.retryable = false := by
  cases error with
  | poolOverflow ceiling => exact holds.elim
  | _ => rfl

namespace Format

/-- Every error of either reader is true of the input. -/
theorem reportsTruly (format : Format) : format.reader.ReportsTruly := by
  cases format with
  | bson => exact Bson.reportsTruly
  | messagePack => exact MessagePack.reportsTruly

/-- What decoding reports is so. -/
theorem isTrueOf_of_decoding
    {format : Format}
    {maximum : Nat}
    {bytes : ByteArray}
    {error : Error}
    (failed : format.decoding maximum bytes = .error error) :
    error.IsTrueOf bytes := by
  unfold decoding Codec.wholeInput at failed
  split at failed
  · rename_i unread
    cases failed
    exact format.reportsTruly.read unread
  · split at failed
    · cases failed
    · cases failed
      exact trivial

end Format

/-- An error of a source is not worth a retry. -/
theorem Source.not_retryable_of_readExactly
    {source : Source}
    {frameSize already wanted : Nat}
    {collected : ByteArray}
    {error : Error}
    (failed : (source.readExactly frameSize already collected wanted).1 = .error error) :
    error.retryable = false := by
  fun_induction readExactly source frameSize already collected wanted with
  | case1 => cases failed
  | case2 =>
      cases failed
      rfl
  | case3 _ _ _ _ _ _ _ _ _ inductionHypothesis => exact inductionHypothesis failed
  | case4 _ _ _ _ _ _ _ _ _ inductionHypothesis => exact inductionHypothesis failed
  | case5 =>
      cases failed
      rfl

/-- Reading a frame fails for its source or for what its bytes are. -/
theorem Frame.not_retryable_of_reading
    {format : Format}
    {maximum : Nat}
    {source : Source}
    {error : Error}
    (failed : (reading format maximum source).1 = .error error) :
    error.retryable = false := by
  unfold reading at failed
  split at failed
  · rename_i unread
    cases failed
    exact Source.not_retryable_of_readExactly (congrArg Prod.fst unread)
  · split at failed
    · rename_i refused
      cases failed
      unfold extent at refused
      split at refused
      · split at refused
        · cases refused
        · cases refused
          rfl
      · cases refused
    · split at failed
      · split at failed
        · rename_i unread
          cases failed
          exact Source.not_retryable_of_readExactly (congrArg Prod.fst unread)
        · exact (Format.isTrueOf_of_decoding failed).not_retryable
      · cases failed
        rfl

/-- An error of a sink is not worth a retry. -/
theorem Sink.not_retryable_of_writeFrom
    {sink : Sink}
    {content : ByteArray}
    {offset : Nat}
    {error : Error}
    (failed : (sink.writeFrom content offset).1 = .error error) :
    error.retryable = false := by
  fun_induction writeFrom sink content offset with
  | case1 => cases failed
  | case2 =>
      cases failed
      rfl
  | case3 _ _ _ _ _ _ _ _ inductionHypothesis => exact inductionHypothesis failed
  | case4 _ _ _ _ _ _ _ _ inductionHypothesis => exact inductionHypothesis failed
  | case5 =>
      cases failed
      rfl

namespace Codec

/-- An error of writing is not worth a retry. -/
theorem not_retryable_of_write
    {codec : Codec}
    {format : Format}
    {document : Document}
    {buffer : ByteBuffer}
    {error : Error}
    (failed : (codec.write format document buffer).1.1 = .error error) :
    error.retryable = false := by
  unfold write at failed
  dsimp only at failed
  split at failed
  · cases failed
  · cases failed
    rfl

/-- An error of decoding is not worth a retry. -/
theorem not_retryable_of_decoding
    {format : Format}
    {maximum : Nat}
    {bytes : ByteArray}
    {result : Except Error Document}
    {error : Error}
    (decoded : result = format.decoding maximum bytes)
    (failed : result = .error error) :
    error.retryable = false :=
  (Format.isTrueOf_of_decoding (decoded.symm.trans failed)).not_retryable

/-- An error of encoding into a caller's buffer is not worth a retry. -/
theorem not_retryable_of_encodeInto
    {codec : Codec}
    {format : Format}
    {document : Document}
    {buffer : ByteBuffer}
    {error : Error}
    (failed : (codec.encodeInto format document buffer).1.1 = .error error) :
    error.retryable = false := by
  unfold encodeInto at failed
  split at failed
  · cases failed
    rfl
  · exact not_retryable_of_write failed

/-- Writing a frame fails for its sink, or for a payload that is too large for it. -/
theorem not_retryable_of_writeFrame
    {format : Format}
    {payload : ByteArray}
    {sink : Sink}
    {error : Error}
    (failed : (writeFrame format payload sink).1 = .error error) :
    error.retryable = false := by
  unfold writeFrame at failed
  split at failed
  · split at failed
    · cases failed
    · rename_i refused
      cases failed
      exact Sink.not_retryable_of_writeFrom (congrArg Prod.fst refused)
  · split at failed
    · split at failed
      · rename_i refused
        cases failed
        exact Sink.not_retryable_of_writeFrom (congrArg Prod.fst refused)
      · split at failed
        · cases failed
        · rename_i refused
          cases failed
          exact Sink.not_retryable_of_writeFrom (congrArg Prod.fst refused)
    · cases failed
      rfl

end Codec

end DocumentCodec
