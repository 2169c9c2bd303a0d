import DocumentCodec.Error

namespace DocumentCodec

/-!
# Byte sources

A source yields bytes a few at a time and may fail in between.  `readExactly`
reads until it has as many bytes as asked for, whatever the sizes of the
pieces, and tries again after an interruption.
-/

/-- What a source yields next. -/
inductive SourcePiece
  | bytes (content : ByteArray)
  /-- A failure, reported by one read. -/
  | failure (fault : IoFault)

/-- Pieces still to come and the largest number of bytes of one read. -/
structure Source where
  pieces : List SourcePiece
  chunk : Option Nat
  /-- Number of bytes taken so far. -/
  taken : Nat

namespace Source

/-- A source of pieces, of which one read takes a limited number of bytes. -/
def ofPieces (pieces : List SourcePiece) (chunk : Option Nat) : Source :=
  ⟨pieces, chunk, 0⟩

/-- Put bytes behind the others. -/
def append (source : Source) (content : ByteArray) : Source :=
  { source with pieces := source.pieces ++ [.bytes content] }

/-- All bytes still to come. -/
def contents (source : Source) : ByteArray :=
  source.pieces.foldl
    (fun collected piece =>
      match piece with
      | .bytes content => collected ++ content
      | .failure _ => collected)
    ByteArray.empty

/-- Number of bytes that one read may take of a number wanted. -/
def allowance (chunk : Option Nat) (wanted : Nat) : Nat :=
  match chunk with
  | some most => min wanted most
  | none => wanted

/--
Read at most a number of bytes: none at the end, and never from two pieces at
once.
-/
def readPieces (most : Nat) :
    List SourcePiece → Except IoFault ByteArray × List SourcePiece
  | [] => (.ok ByteArray.empty, [])
  | .failure fault :: rest => (.error fault, rest)
  | .bytes content :: rest =>
      if content.isEmpty then
        readPieces most rest
      else if content.size ≤ most then
        (.ok content, rest)
      else
        (.ok (content.extract 0 most),
          .bytes (content.extract most content.size) :: rest)

/-- Read at most a number of bytes. -/
def read (source : Source) (wanted : Nat) : Except IoFault ByteArray × Source :=
  let (result, pieces) := readPieces (allowance source.chunk wanted) source.pieces
  match result with
  | .ok content =>
      (.ok content, { source with pieces, taken := source.taken + content.size })
  | .error fault => (.error fault, { source with pieces })

/-- Reading leaves no more pieces than there were. -/
theorem length_readPieces_le (most : Nat) (pieces : List SourcePiece) :
    (readPieces most pieces).2.length ≤ pieces.length := by
  induction pieces with
  | nil => simp [readPieces]
  | cons piece rest inductionHypothesis =>
      cases piece with
      | failure fault => simp [readPieces]
      | bytes content =>
          simp only [readPieces]
          split
          · exact Nat.le_succ_of_le inductionHypothesis
          · split <;> simp

/-- A failure is a piece of its own, and it is gone after it was reported. -/
theorem length_readPieces_lt_of_error
    {most : Nat}
    {pieces : List SourcePiece}
    {fault : IoFault}
    (failed : (readPieces most pieces).1 = .error fault) :
    (readPieces most pieces).2.length < pieces.length := by
  induction pieces with
  | nil => simp [readPieces] at failed
  | cons piece rest inductionHypothesis =>
      cases piece with
      | failure _ => simp [readPieces]
      | bytes content =>
          simp only [readPieces] at failed ⊢
          split
          · rename_i isEmpty
            rw [if_pos isEmpty] at failed
            exact Nat.lt_succ_of_lt (inductionHypothesis failed)
          · rename_i notEmpty
            rw [if_neg notEmpty] at failed
            split at failed <;> simp at failed

/-- A read leaves at most as many pieces. -/
theorem length_pieces_read_le (source : Source) (wanted : Nat) :
    (source.read wanted).2.pieces.length ≤ source.pieces.length := by
  have bound := length_readPieces_le (allowance source.chunk wanted) source.pieces
  unfold read
  generalize readPieces (allowance source.chunk wanted) source.pieces = outcome at *
  rcases outcome with ⟨result, pieces⟩
  cases result <;> exact bound

/-- A read that fails leaves fewer pieces. -/
theorem length_pieces_read_lt
    {source after : Source}
    {wanted : Nat}
    {fault : IoFault}
    (failed : source.read wanted = (.error fault, after)) :
    after.pieces.length < source.pieces.length := by
  have bound :=
    @length_readPieces_lt_of_error (allowance source.chunk wanted) source.pieces
  unfold read at failed
  generalize readPieces (allowance source.chunk wanted) source.pieces = outcome at *
  rcases outcome with ⟨result, pieces⟩
  cases result with
  | ok content => simp at failed
  | error _ =>
      cases failed
      exact bound rfl

/--
Read until `wanted` more bytes are there, behind the bytes collected before.
A source that ends early is reported as a truncation of the whole frame, of
which `already` bytes came before the collected ones.
-/
def readExactly (source : Source) (frameSize already : Nat)
    (collected : ByteArray) (wanted : Nat) : Except Error ByteArray × Source :=
  if wanted = 0 then
    (.ok collected, source)
  else
    match outcome : source.read wanted with
    | (.ok content, after) =>
        if content.size = 0 then
          (.error (.truncated frameSize (already + collected.size)), after)
        else
          have : after.pieces.length ≤ source.pieces.length := by
            have bound := length_pieces_read_le source wanted
            rw [outcome] at bound
            exact bound
          after.readExactly frameSize already (collected ++ content)
            (wanted - content.size)
    | (.error fault, after) =>
        if fault.kind = .interrupted then
          have := length_pieces_read_lt outcome
          after.readExactly frameSize already collected wanted
        else
          (.error (.io fault), after)
termination_by source.pieces.length + wanted
decreasing_by
  all_goals omega

end Source

end DocumentCodec
