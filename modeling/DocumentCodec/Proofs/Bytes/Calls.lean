import DocumentCodec.Proofs.Bytes.Recognition

namespace DocumentCodec

/-!
# Calls of a reader

A caller may move the limit about, even to before the cursor, and go on after
calls that fail.  Each call either finds all the bytes that it needs before the
limit or says how many there are and leaves the reader as it is.

Main statement: every call on every reader is `Reliable`.
-/

/-- One reader is another so many bytes further on. -/
structure ByteReader.Moved (reader : ByteReader) (count : Nat) (rest : ByteReader) : Prop where
  bytes_eq : rest.bytes = reader.bytes
  limit_eq : rest.limit = reader.limit
  cursor_eq : rest.cursor = reader.cursor + count

/-- To advance is to move by the count and by nothing else. -/
theorem ByteReader.moved_advance
    {reader : ByteReader}
    {count : Nat}
    (fits : reader.cursor + count ≤ reader.limit) :
    reader.Moved count (reader.advance count fits) :=
  ⟨rfl, rfl, rfl⟩

namespace Decode

/-- A result is converted where the action has stopped. -/
theorem run_map_of_ok
    {action : Decode α}
    {reader rest : ByteReader}
    {value : α}
    (ran : action reader = .ok (value, rest))
    (convert : α → β) :
    (convert <$> action) reader = .ok (convert value, rest) := by
  rw [map_eq_pure_bind, run_bind_of_ok ran]
  rfl

/-- An error is not converted. -/
theorem run_map_of_error
    {action : Decode α}
    {reader : ByteReader}
    {error : Error}
    (failed : action reader = .error error)
    (convert : α → β) :
    (convert <$> action) reader = .error error := by
  rw [map_eq_pure_bind, run_bind_of_error failed]

/--
The action takes so many of the bytes ahead and moves on by a number of its
own, or says how many it misses.
-/
structure AllOrNothing (action : Decode α) (count moved : Nat) (meaning : List UInt8 → α) :
    Prop where
  enough : ∀ ⦃reader : ByteReader⦄, reader.cursor + count ≤ reader.limit →
    ∃ rest, action reader = .ok (meaning (reader.ahead.take count), rest) ∧
      reader.Moved moved rest
  missing : ∀ ⦃reader : ByteReader⦄, reader.limit < reader.cursor + count →
    action reader = .error (.truncated count reader.remaining)

namespace AllOrNothing

variable {count moved : Nat}

/-- What is converted is read as a whole or not at all, as before. -/
theorem map
    {action : Decode α}
    {meaning : List UInt8 → α}
    (whole : AllOrNothing action count moved meaning)
    (convert : α → β) :
    AllOrNothing (convert <$> action) count moved fun taken => convert (meaning taken) where
  enough reader fits := by
    obtain ⟨rest, ran, after⟩ := whole.enough fits
    exact ⟨rest, run_map_of_ok ran convert, after⟩
  missing _ short := run_map_of_error (whole.missing short) convert

/-- A skip goes over all of its bytes or over none. -/
theorem skip (count : Nat) : AllOrNothing (Decode.skip count) count count fun _ => () where
  enough _ fits := ⟨_, dif_pos fits, ByteReader.moved_advance fits⟩
  missing _ short := dif_neg (Nat.not_le_of_lt short)

/-- A peek needs a byte and does not move on. -/
theorem peekByte : AllOrNothing Decode.peekByte 1 0 fun taken => taken.headD 0 where
  enough reader fits := by
    rw [← reader.get!_eq_headD fits]
    exact ⟨reader, if_pos fits, rfl, rfl, rfl⟩
  missing _ short := if_neg (Nat.not_le_of_lt short)

/-- Reading a byte needs it and moves on by it. -/
theorem readByte : AllOrNothing Decode.readByte 1 1 fun taken => taken.headD 0 where
  enough reader fits := by
    rw [← reader.get!_eq_headD fits]
    exact ⟨_, dif_pos fits, ByteReader.moved_advance fits⟩
  missing _ short := dif_neg (Nat.not_le_of_lt short)

/-- Bytes are read all at once. -/
theorem readBytes (count : Nat) :
    AllOrNothing (Decode.readBytes count) count count fun taken => ⟨taken.toArray⟩ where
  enough reader fits := by
    rw [← reader.extract_eq_ahead fits]
    exact ⟨_, dif_pos fits, ByteReader.moved_advance fits⟩
  missing _ short := dif_neg (Nat.not_le_of_lt short)

/-- A field is read as wide as it is, or not at all. -/
theorem readField (type : FieldType) :
    AllOrNothing (Decode.readField type) type.width type.width type.value := by
  have taken := (readBytes type.width).map fun bytes => type.value bytes.data.toList
  rw [map_eq_pure_bind] at taken
  exact taken

end AllOrNothing

/-- The search for a zero byte goes through the bytes ahead. -/
theorem findByteBetween?_ahead (reader : ByteReader) :
    Scan.findByteBetween? reader.bytes reader.cursor (max reader.limit reader.cursor) 0 =
      (reader.ahead.findIdx? (· == 0)).map (reader.cursor + ·) := by
  have window : max reader.limit reader.cursor - reader.cursor =
      reader.limit - reader.cursor := by omega
  rw [Scan.findByteBetween?_eq_findIdx? (Nat.le_max_right _ _)
    (Nat.max_le.mpr ⟨reader.limit_le, reader.cursor_le⟩), window]
  rfl

/-- The bytes before the first zero byte ahead are taken, and this with them. -/
theorem readZeroTerminated_of_ahead
    {reader : ByteReader}
    {text behind : List UInt8}
    (shape : reader.ahead = text ++ 0 :: behind)
    (absent : 0 ∉ text) :
    ∃ rest, readZeroTerminated reader = .ok (⟨text.toArray⟩, rest) ∧
      reader.Moved (text.length + 1) rest := by
  have found : reader.ahead.findIdx? (· == 0) = some text.length :=
    Scan.findIdx?_eq_some_iff_append.mpr ⟨text, behind, shape, absent, rfl⟩
  have fits : reader.cursor + (text.length + 1) ≤ reader.limit := by
    have length := reader.length_ahead
    rw [shape, List.length_append, List.length_cons] at length
    omega
  have taken := reader.extract_eq_ahead (Nat.le_of_succ_le fits)
  rw [shape, List.take_left] at taken
  refine ⟨reader.advance (text.length + 1) fits, ?_, ByteReader.moved_advance fits⟩
  simp only [readZeroTerminated, findByteBetween?_ahead, found, Option.map_some,
    Nat.add_sub_cancel_left]
  rw [dif_pos fits, taken]

/-- Without a zero byte ahead, one byte more than there are is missing. -/
theorem readZeroTerminated_of_not_mem
    {reader : ByteReader}
    (absent : 0 ∉ reader.ahead) :
    readZeroTerminated reader =
      .error (.truncated (reader.ahead.length + 1) reader.ahead.length) := by
  have unfound : reader.ahead.findIdx? (· == 0) = none := by
    apply List.findIdx?_eq_none_iff.mpr
    intro byte member
    exact beq_eq_false_iff_ne.mpr fun zero => absent (zero ▸ member)
  have window : max reader.limit reader.cursor - reader.cursor = reader.ahead.length := by
    rw [ByteReader.length_ahead]
    omega
  simp only [readZeroTerminated, findByteBetween?_ahead, unfound, Option.map_none, window]

end Decode

namespace ByteReader

/-- What can be asked of a reader. -/
inductive Call
  | setLimit (limit : Nat)
  | skip (count : Nat)
  | peekByte
  | readByte
  | readBytes (count : Nat)
  | readZeroTerminated
  | readField (type : FieldType)

/-- What a reader answers. -/
inductive Answer
  | done
  | byte (value : UInt8)
  | bytes (taken : ByteArray)
  | number (value : Int)

/-- The action that a call runs. -/
def Call.action : Call → Decode Answer
  | .setLimit limit => fun reader => .ok (.done, reader.setLimit limit)
  | .skip count => (fun _ => .done) <$> Decode.skip count
  | .peekByte => .byte <$> Decode.peekByte
  | .readByte => .byte <$> Decode.readByte
  | .readBytes count => .bytes <$> Decode.readBytes count
  | .readZeroTerminated => .bytes <$> Decode.readZeroTerminated
  | .readField type => .number <$> Decode.readField type

/-- Run a call; one that fails gives no other reader than there was. -/
def perform (reader : ByteReader) (call : Call) : Except Error Answer × ByteReader :=
  match call.action reader with
  | .ok (answer, rest) => (.ok answer, rest)
  | .error error => (.error error, reader)

/-- Run calls one behind the other, whether they fail or not. -/
def performAll (reader : ByteReader) : List Call → List (Except Error Answer) × ByteReader
  | [] => ([], reader)
  | call :: rest =>
      let (result, after) := reader.perform call
      let (results, last) := after.performAll rest
      (result :: results, last)

/-- Bytes that a call needs, those that it moves past and its answer when they are there. -/
structure Demand where
  count : Nat
  moved : Nat
  answer : List UInt8 → Answer

/-- What a call demands that needs a fixed number of bytes. -/
def Call.demand? : Call → Option Demand
  | .setLimit _ => none
  | .skip count => some ⟨count, count, fun _ => .done⟩
  | .peekByte => some ⟨1, 0, fun taken => .byte (taken.headD 0)⟩
  | .readByte => some ⟨1, 1, fun taken => .byte (taken.headD 0)⟩
  | .readBytes count => some ⟨count, count, fun taken => .bytes ⟨taken.toArray⟩⟩
  | .readZeroTerminated => none
  | .readField type => some ⟨type.width, type.width, fun taken => .number (type.value taken)⟩

/-- The action of a call with a demand meets it. -/
theorem Call.allOrNothing
    {call : Call}
    {demand : Demand}
    (asks : call.demand? = some demand) :
    Decode.AllOrNothing call.action demand.count demand.moved demand.answer := by
  cases call with
  | setLimit limit => cases asks
  | skip count =>
      cases asks
      exact (Decode.AllOrNothing.skip count).map _
  | peekByte =>
      cases asks
      exact Decode.AllOrNothing.peekByte.map _
  | readByte =>
      cases asks
      exact Decode.AllOrNothing.readByte.map _
  | readBytes count =>
      cases asks
      exact (Decode.AllOrNothing.readBytes count).map _
  | readZeroTerminated => cases asks
  | readField type =>
      cases asks
      exact (Decode.AllOrNothing.readField type).map _

variable {reader rest : ByteReader} {call : Call}

/-- A call that succeeds leaves the reader where its action stopped. -/
theorem perform_of_ok {answer : Answer} (ran : call.action reader = .ok (answer, rest)) :
    reader.perform call = (.ok answer, rest) := by
  rw [perform, ran]

/-- A call that fails leaves the reader where it was. -/
theorem perform_of_error {error : Error} (failed : call.action reader = .error error) :
    reader.perform call = (.error error, reader) := by
  rw [perform, failed]

/--
What a caller gets.  A limit is cut off at the end of the bytes.  A call that
needs bytes gets those at the cursor when they all end before the limit, and
otherwise the number that is there, with the reader as it was.  A text ends
before the first zero byte in front of the limit, and there has to be one.
-/
structure Reliable (reader : ByteReader) (call : Call) : Prop where
  limited : ∀ limit, call = .setLimit limit →
    ∃ rest, reader.perform call = (.ok .done, rest) ∧
      rest.bytes = reader.bytes ∧ rest.cursor = reader.cursor ∧
      rest.limit = min limit reader.bytes.size
  enough : ∀ demand, call.demand? = some demand →
    reader.cursor + demand.count ≤ reader.limit →
      ∃ rest,
        reader.perform call = (.ok (demand.answer (reader.ahead.take demand.count)), rest) ∧
          (reader.ahead.take demand.count).length = demand.count ∧
          reader.Moved demand.moved rest
  missing : ∀ demand, call.demand? = some demand →
    reader.limit < reader.cursor + demand.count →
      reader.perform call =
        (.error (.truncated demand.count (reader.limit - reader.cursor)), reader)
  terminated : call = .readZeroTerminated →
    ∀ text behind, reader.ahead = text ++ 0 :: behind → 0 ∉ text →
      ∃ rest, reader.perform call = (.ok (.bytes ⟨text.toArray⟩), rest) ∧
        reader.Moved (text.length + 1) rest
  unterminated : call = .readZeroTerminated → 0 ∉ reader.ahead →
    reader.perform call =
      (.error (.truncated (reader.ahead.length + 1) reader.ahead.length), reader)

/-- Every call does all that it is for, or nothing. -/
theorem reliable (reader : ByteReader) (call : Call) : reader.Reliable call where
  limited limit same := by
    subst same
    exact ⟨reader.setLimit limit, rfl, rfl, rfl, rfl⟩
  enough demand asks fits := by
    obtain ⟨rest, ran, moved⟩ := (Call.allOrNothing asks).enough fits
    refine ⟨rest, perform_of_ok ran, ?_, moved⟩
    rw [List.length_take, length_ahead]
    omega
  missing demand asks short :=
    perform_of_error ((Call.allOrNothing asks).missing short)
  terminated same text behind shape absent := by
    subst same
    obtain ⟨rest, ran, moved⟩ := Decode.readZeroTerminated_of_ahead shape absent
    exact ⟨rest, perform_of_ok (Decode.run_map_of_ok ran Answer.bytes), moved⟩
  unterminated same absent := by
    subst same
    have failed := Decode.readZeroTerminated_of_not_mem absent
    exact perform_of_error (Decode.run_map_of_error failed Answer.bytes)

/-- A call leaves the bytes what they are. -/
theorem bytes_perform (reader : ByteReader) (call : Call) :
    (reader.perform call).2.bytes = reader.bytes := by
  have promises := reader.reliable call
  cases asks : call.demand? with
  | some demand =>
      by_cases fits : reader.cursor + demand.count ≤ reader.limit
      · obtain ⟨rest, ran, _, moved⟩ := promises.enough demand asks fits
        rw [ran]
        exact moved.bytes_eq
      · rw [promises.missing demand asks (Nat.lt_of_not_le fits)]
  | none =>
      cases call with
      | setLimit limit => rfl
      | readZeroTerminated =>
          by_cases member : 0 ∈ reader.ahead
          · obtain ⟨text, behind, shape, absent⟩ := List.eq_append_cons_of_mem member
            obtain ⟨rest, ran, moved⟩ := promises.terminated rfl text behind shape absent
            rw [ran]
            exact moved.bytes_eq
          · rw [promises.unterminated rfl member]
      | _ => cases asks

/-- No call changes the bytes. -/
theorem bytes_performAll (reader : ByteReader) (calls : List Call) :
    (reader.performAll calls).2.bytes = reader.bytes := by
  induction calls generalizing reader with
  | nil => rfl
  | cons call rest inductionHypothesis =>
      exact (inductionHypothesis _).trans (reader.bytes_perform call)

end ByteReader

end DocumentCodec
