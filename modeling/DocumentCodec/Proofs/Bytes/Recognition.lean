import DocumentCodec.Proofs.Bytes.Fields
import DocumentCodec.Proofs.Bytes.Search
import DocumentCodec.Traversal.Element

namespace DocumentCodec

/-!
# What reading actions accept

A reading action that only looks at the bytes it takes is described by a
language: the byte sequences it accepts, each with what it stands for.
`Decode.Recognizes` says that the action succeeds exactly on bytes that start
with a word of its language, takes that word and gives its meaning.

The languages of composed actions are composed in the same way
(`Recognizes.bind`, `Recognizes.map`), so that the description of a reader
follows its code.
-/

namespace ByteReader

/-- The bytes between the cursor and the limit. -/
def ahead (reader : ByteReader) : List UInt8 :=
  (reader.bytes.data.toList.drop reader.cursor).take (reader.limit - reader.cursor)

/-- The limit is not behind the cursor. -/
def InBounds (reader : ByteReader) : Prop :=
  reader.cursor ≤ reader.limit

/-- One reader becomes another by going over some bytes. -/
structure Passes (reader : ByteReader) (taken : List UInt8) (rest : ByteReader) :
    Prop where
  bytes_eq : rest.bytes = reader.bytes
  limit_eq : rest.limit = reader.limit
  cursor_eq : rest.cursor = reader.cursor + taken.length
  inBounds : rest.InBounds
  ahead_eq : reader.ahead = taken ++ rest.ahead

/-- The bytes ahead are those between the cursor and the limit. -/
theorem length_ahead (reader : ByteReader) :
    reader.ahead.length = reader.limit - reader.cursor := by
  have inside := reader.limit_le
  have whole : reader.bytes.data.toList.length = reader.bytes.size :=
    Array.length_toList
  rw [ahead, List.length_take, List.length_drop, whole]
  omega

/-- As many bytes remain as are ahead. -/
theorem remaining_eq_length (reader : ByteReader) :
    reader.remaining = reader.ahead.length :=
  reader.length_ahead.symm

/-- A reader is told by its bytes, its cursor and its limit. -/
theorem eq_of_components
    {left right : ByteReader}
    (bytes : left.bytes = right.bytes)
    (cursor : left.cursor = right.cursor)
    (limit : left.limit = right.limit) :
    left = right := by
  cases left
  cases right
  cases bytes
  cases cursor
  cases limit
  rfl

/-- A limit inside the bytes is set as it is. -/
theorem limit_setLimit
    {reader : ByteReader}
    {limit : Nat}
    (inside : limit ≤ reader.bytes.size) :
    (reader.setLimit limit).limit = limit :=
  Nat.min_eq_left inside

/-- To set the limit that there is changes nothing. -/
theorem setLimit_eq_self
    {reader : ByteReader}
    {limit : Nat}
    (same : reader.limit = limit) :
    reader.setLimit limit = reader := by
  refine eq_of_components rfl rfl ?_
  rw [← same]
  exact Nat.min_eq_left reader.limit_le

/-- Below a limit that has been set, a reader is told by its bytes and its cursor. -/
theorem setLimit_congr
    {reader other : ByteReader}
    (bytes : other.bytes = reader.bytes)
    (cursor : other.cursor = reader.cursor)
    {limit : Nat} :
    other.setLimit limit = reader.setLimit limit := by
  refine eq_of_components bytes cursor ?_
  change min limit other.bytes.size = min limit reader.bytes.size
  rw [bytes]

/-- The bytes a reader goes over when it moves on are the next ones ahead. -/
theorem passes_advance
    (reader : ByteReader)
    {count : Nat}
    (fits : reader.cursor + count ≤ reader.limit) :
    reader.Passes (reader.ahead.take count) (reader.advance count fits) where
  bytes_eq := rfl
  limit_eq := rfl
  cursor_eq := by
    rw [List.length_take, length_ahead]
    change reader.cursor + count = reader.cursor + min count _
    omega
  inBounds := fits
  ahead_eq := by
    have behind : (reader.advance count fits).ahead = reader.ahead.drop count := by
      change (reader.bytes.data.toList.drop (reader.cursor + count)).take
          (reader.limit - (reader.cursor + count)) = _
      rw [ahead, List.drop_take, List.drop_drop, Nat.sub_sub]
    rw [behind, List.take_append_drop]

/-- All bytes are ahead at first. -/
@[simp]
theorem ahead_ofBytes (bytes : ByteArray) :
    (ofBytes bytes).ahead = bytes.data.toList := by
  rw [ahead]
  exact List.take_of_length_le (Nat.le_of_eq Array.length_toList)

/-- What is extracted at the cursor comes first of what is ahead. -/
theorem extract_eq_take_ahead
    (reader : ByteReader)
    {count : Nat}
    (fits : reader.cursor + count ≤ reader.limit) :
    (reader.bytes.extract reader.cursor (reader.cursor + count)).data.toList =
      reader.ahead.take count := by
  rw [ByteArray.data_extract, Array.toList_extract, List.extract_eq_take_drop,
    Nat.add_sub_cancel_left, ahead, List.take_take, Nat.min_eq_left (by omega)]

/-- The bytes ahead that a slice from the cursor on holds. -/
theorem extract_eq_ahead
    (reader : ByteReader)
    {count : Nat}
    (fits : reader.cursor + count ≤ reader.limit) :
    reader.bytes.extract reader.cursor (reader.cursor + count) =
      ⟨(reader.ahead.take count).toArray⟩ := by
  apply ByteArray.ext
  apply Array.toList_inj.mp
  exact reader.extract_eq_take_ahead fits

/-- The byte at the cursor comes first of what is ahead. -/
theorem get!_eq_headD
    (reader : ByteReader)
    (fits : reader.cursor + 1 ≤ reader.limit) :
    reader.bytes.get! reader.cursor = (reader.ahead.take 1).headD 0 := by
  have present : reader.cursor < reader.bytes.data.toList.length := by
    rw [Array.length_toList]
    exact Nat.lt_of_lt_of_le fits reader.limit_le
  rw [Scan.get!_eq_getElem present, ahead, List.take_take, Nat.min_eq_left (by omega),
    List.drop_eq_getElem_cons present]
  rfl

namespace Passes

/-- Nothing is passed by staying. -/
theorem refl {reader : ByteReader} (inBounds : reader.InBounds) :
    reader.Passes [] reader :=
  ⟨rfl, rfl, rfl, inBounds, rfl⟩

/-- What is passed in two goes is passed one behind the other. -/
theorem trans
    {first second third : ByteReader}
    {front back : List UInt8}
    (before : first.Passes front second)
    (after : second.Passes back third) :
    first.Passes (front ++ back) third where
  bytes_eq := after.bytes_eq.trans before.bytes_eq
  limit_eq := after.limit_eq.trans before.limit_eq
  cursor_eq := by
    rw [after.cursor_eq, before.cursor_eq, List.length_append, Nat.add_assoc]
  inBounds := after.inBounds
  ahead_eq := by
    rw [before.ahead_eq, after.ahead_eq, List.append_assoc]

/-- Where a reader gets to depends only on how many bytes it goes over. -/
theorem unique
    {reader left right : ByteReader}
    {taken other : List UInt8}
    (toLeft : reader.Passes taken left)
    (toRight : reader.Passes other right)
    (sameLength : taken.length = other.length) :
    left = right ∧ taken = other := by
  refine ⟨eq_of_components ?_ ?_ ?_, ?_⟩
  · rw [toLeft.bytes_eq, toRight.bytes_eq]
  · rw [toLeft.cursor_eq, toRight.cursor_eq, sameLength]
  · rw [toLeft.limit_eq, toRight.limit_eq]
  · have both := toLeft.ahead_eq.symm.trans toRight.ahead_eq
    exact (List.append_inj both sameLength).1

/-- What is passed is in front of the limit. -/
theorem fits
    {reader rest : ByteReader}
    {taken : List UInt8}
    (passes : reader.Passes taken rest) :
    reader.cursor + taken.length ≤ reader.limit := by
  rw [← passes.cursor_eq, ← passes.limit_eq]
  exact passes.inBounds

/-- Bytes that lie ahead can be gone over. -/
theorem of_ahead
    {reader : ByteReader}
    {taken others : List UInt8}
    (inBounds : reader.InBounds)
    (starts : reader.ahead = taken ++ others) :
    ∃ rest, reader.Passes taken rest ∧ rest.ahead = others := by
  have inside : reader.cursor + taken.length ≤ reader.limit := by
    have total := congrArg List.length starts
    rw [length_ahead, List.length_append] at total
    unfold InBounds at inBounds
    omega
  have passes := reader.passes_advance inside
  rw [starts, List.take_left] at passes
  refine ⟨_, passes, ?_⟩
  have both := passes.ahead_eq
  rw [starts] at both
  exact (List.append_cancel_left both).symm

/-- Going over bytes is going over the first ones and then over the others. -/
theorem split
    {reader rest : ByteReader}
    {front back : List UInt8}
    (inBounds : reader.InBounds)
    (passes : reader.Passes (front ++ back) rest) :
    ∃ between, reader.Passes front between ∧ between.Passes back rest := by
  have starts := passes.ahead_eq
  rw [List.append_assoc] at starts
  obtain ⟨between, first, aheadBetween⟩ := of_ahead inBounds starts
  obtain ⟨last, second, _⟩ := of_ahead first.inBounds aheadBetween
  obtain ⟨sameEnd, _⟩ := passes.unique (first.trans second) rfl
  subst sameEnd
  exact ⟨between, first, second⟩

/-- Which bytes are gone over does not depend on a limit that is not passed. -/
theorem setLimit
    {reader rest : ByteReader}
    {taken : List UInt8}
    {limit : Nat}
    (passes : reader.Passes taken rest)
    (fits : rest.cursor ≤ limit)
    (inside : limit ≤ reader.bytes.size) :
    (reader.setLimit limit).Passes taken (rest.setLimit limit) := by
  have within : (reader.setLimit limit).cursor + taken.length ≤
      (reader.setLimit limit).limit := by
    rw [limit_setLimit inside]
    change reader.cursor + taken.length ≤ limit
    rw [← passes.cursor_eq]
    exact fits
  have same : (reader.setLimit limit).ahead.take taken.length = taken := by
    rw [← extract_eq_take_ahead _ within]
    change (reader.bytes.extract reader.cursor
      (reader.cursor + taken.length)).data.toList = taken
    rw [extract_eq_take_ahead _ passes.fits, passes.ahead_eq, List.take_left]
  have moved := (reader.setLimit limit).passes_advance within
  rw [same] at moved
  refine (eq_of_components ?_ ?_ ?_ :
    (reader.setLimit limit).advance taken.length within = rest.setLimit limit) ▸ moved
  · exact passes.bytes_eq.symm
  · exact passes.cursor_eq.symm
  · change min limit reader.bytes.size = min limit rest.bytes.size
    rw [passes.bytes_eq]

/-- Bytes gone over below a lowered limit are gone over below the old one. -/
theorem widen
    {reader rest : ByteReader}
    {taken : List UInt8}
    {limit : Nat}
    (passes : (reader.setLimit limit).Passes taken rest)
    (fits : rest.cursor ≤ reader.limit) :
    reader.Passes taken (rest.setLimit reader.limit) := by
  have widened := passes.setLimit fits reader.limit_le
  have restored : (reader.setLimit limit).setLimit reader.limit = reader :=
    @setLimit_eq_self reader reader.limit rfl
  rwa [restored] at widened

/-- Nothing but the bytes gone over lies ahead below a limit at their end. -/
theorem ahead_setLimit
    {reader rest : ByteReader}
    {taken : List UInt8}
    (passes : reader.Passes taken rest) :
    (reader.setLimit rest.cursor).ahead = taken := by
  have inside : rest.cursor ≤ reader.bytes.size := passes.bytes_eq ▸ rest.cursor_le
  have narrowed := passes.setLimit (Nat.le_refl _) inside
  have spent : (rest.setLimit rest.cursor).ahead = [] := by
    apply List.eq_nil_of_length_eq_zero
    rw [length_ahead]
    exact Nat.sub_eq_zero_of_le (Nat.min_le_left _ _)
  rw [narrowed.ahead_eq, spent, List.append_nil]

/-- A reader that has passed something was in bounds. -/
theorem inBounds_start
    {reader rest : ByteReader}
    {taken : List UInt8}
    (passes : reader.Passes taken rest) :
    reader.InBounds :=
  Nat.le_trans (Nat.le_add_right _ _) passes.fits

/-- What is gone over from the start is what the input begins with. -/
theorem take_ofBytes
    {input : ByteArray}
    {taken : List UInt8}
    {rest : ByteReader}
    (passes : (ofBytes input).Passes taken rest) :
    rest.cursor ≤ input.size ∧ input.data.toList.take rest.cursor = taken := by
  have inside := rest.cursor_le
  have starts := passes.ahead_eq
  have moved : rest.cursor = taken.length := passes.cursor_eq.trans (Nat.zero_add _)
  rw [passes.bytes_eq] at inside
  rw [ahead_ofBytes] at starts
  refine ⟨inside, ?_⟩
  rw [starts, moved]
  exact List.take_left

/-- What the input begins with can be gone over from the start. -/
theorem exists_of_take
    {input : ByteArray}
    {taken : List UInt8}
    {count : Nat}
    (present : count ≤ input.size)
    (starts : input.data.toList.take count = taken) :
    ∃ rest, (ofBytes input).Passes taken rest ∧ rest.cursor = count := by
  have front : (ofBytes input).InBounds := Nat.zero_le _
  have parts := List.take_append_drop count input.data.toList
  rw [starts, ← ahead_ofBytes] at parts
  obtain ⟨rest, passes, _⟩ := of_ahead front parts.symm
  have whole : input.data.toList.length = input.size := Array.length_toList
  refine ⟨rest, passes, passes.cursor_eq.trans ?_⟩
  change 0 + taken.length = count
  rw [← starts, List.length_take, whole, Nat.min_eq_left present, Nat.zero_add]

end Passes

end ByteReader

/-- Byte sequences, each with what it stands for. -/
abbrev Language (α : Type) :=
  List UInt8 → α → Prop

/-- At most one word of a language begins given bytes, and it stands for one thing. -/
def Language.Unambiguous (language : Language α) : Prop :=
  ∀ ⦃front other rest others : List UInt8⦄ ⦃meaning second : α⦄,
    language front meaning → language other second →
      front ++ rest = other ++ others → front = other ∧ meaning = second

namespace Utf8

/-- The bytes of a text. -/
def encode (text : String) : List UInt8 :=
  text.toUTF8.data.toList

/-- A text has as many bytes as its size in bytes tells. -/
theorem length_encode (text : String) : (encode text).length = text.utf8ByteSize :=
  Array.length_toList

/-- Different texts have different bytes. -/
theorem encode_injective {left right : String} (same : encode left = encode right) :
    left = right := by
  apply String.toByteArray_inj.mp
  apply ByteArray.ext
  exact Array.toList_inj.mp same

/-- Bytes are read as a text exactly when they are the bytes of that text. -/
theorem decode_eq_ok_iff (bytes : ByteArray) (text : String) :
    decode bytes = .ok text ↔ bytes.data.toList = encode text := by
  unfold decode
  constructor
  · intro decoded
    split at decoded
    · cases decoded
      rfl
    · cases decoded
  · intro same
    have sameBytes : bytes = text.toByteArray :=
      ByteArray.ext (Array.toList_inj.mp same)
    subst sameBytes
    rw [dif_pos (ByteArray.validateUTF8_eq_true_iff.mpr text.isValidUTF8)]
    rfl

end Utf8

namespace Decode

variable {input : ByteArray}

/-- An action may go on with the position. -/
theorem position_bind (next : Nat → Decode α) (reader : ByteReader) :
    (position >>= next) reader = next reader.cursor reader :=
  rfl

/-- An action may go on with the limit. -/
theorem limit_bind (next : Nat → Decode α) (reader : ByteReader) :
    (limit >>= next) reader = next reader.limit reader :=
  rfl

/-- An action may go on with the number of bytes that remain. -/
theorem remaining_bind (next : Nat → Decode α) (reader : ByteReader) :
    (remaining >>= next) reader = next reader.remaining reader :=
  rfl

/-- Behind a test an action is run if the test holds. -/
theorem ensure_bind
    (condition : Bool)
    (error : Error)
    (next : Unit → Decode α)
    (reader : ByteReader) :
    (ensure condition error >>= next) reader =
      if condition then next () reader else .error error := by
  cases condition <;> rfl

/-- Behind a test an action succeeds if it does so and the test holds. -/
theorem ensure_bind_eq_ok_iff
    {condition : Bool}
    {error : Error}
    {next : Unit → Decode α}
    {reader : ByteReader}
    {result : α × ByteReader} :
    (ensure condition error >>= next) reader = .ok result ↔
      condition = true ∧ next () reader = .ok result := by
  cases condition with
  | false =>
      constructor
      · intro ran
        cases ran
      · rintro ⟨never, _⟩
        cases never
  | true =>
      rw [eq_self, true_and]
      exact Iff.rfl

/--
On bytes that start with a word of a language, and only there, the action
succeeds.  It takes that word and gives its meaning.
-/
def Recognizes (input : ByteArray) (action : Decode α) (language : Language α) :
    Prop :=
  ∀ ⦃reader : ByteReader⦄, reader.bytes = input → reader.InBounds →
    ∀ value rest,
      action reader = .ok (value, rest) ↔
        ∃ taken, language taken value ∧ reader.Passes taken rest

namespace Recognizes

/-- A language may be told in another way. -/
theorem congr
    {action : Decode α}
    {language other : Language α}
    (recognizes : Recognizes input action language)
    (same : ∀ taken value, language taken value ↔ other taken value) :
    Recognizes input action other := by
  intro reader ofInput inBounds value rest
  rw [recognizes ofInput inBounds value rest]
  constructor
  · rintro ⟨taken, member, passes⟩
    exact ⟨taken, (same taken value).mp member, passes⟩
  · rintro ⟨taken, member, passes⟩
    exact ⟨taken, (same taken value).mpr member, passes⟩

/-- A result is read from no bytes. -/
theorem pure (value : α) :
    Recognizes input (Pure.pure value)
      fun taken result => taken = [] ∧ result = value := by
  intro reader _ inBounds result rest
  rw [run_pure]
  constructor
  · intro ran
    cases ran
    exact ⟨[], ⟨rfl, rfl⟩, .refl inBounds⟩
  · rintro ⟨taken, ⟨rfl, rfl⟩, passes⟩
    obtain ⟨sameReader, _⟩ := passes.unique (.refl inBounds) rfl
    rw [sameReader]

/-- A failure recognizes nothing. -/
theorem fail (error : Error) :
    Recognizes input (Decode.fail error : Decode α) fun _ _ => False := by
  intro reader _ _ value rest
  constructor
  · intro ran
    cases ran
  · rintro ⟨_, never, _⟩
    exact never.elim

/-- What comes behind an action starts where the word that it reads ends. -/
theorem bind_of_passes
    {action : Decode α}
    {language : Language α}
    {reader rest : ByteReader}
    {taken : List UInt8}
    {value : α}
    (recognizes : Recognizes input action language)
    (ofInput : reader.bytes = input)
    (member : language taken value)
    (passes : reader.Passes taken rest)
    (next : α → Decode β) :
    (action >>= next) reader = next value rest :=
  run_bind_of_ok <|
    (recognizes ofInput passes.inBounds_start value rest).mpr ⟨taken, member, passes⟩

/-- What comes behind an action goes on from where a word of its language ends. -/
theorem bind_eq_ok_iff
    {action : Decode α}
    {next : α → Decode β}
    {language : Language α}
    {reader rest : ByteReader}
    {result : β}
    (recognizes : Recognizes input action language)
    (ofInput : reader.bytes = input)
    (inBounds : reader.InBounds) :
    (action >>= next) reader = .ok (result, rest) ↔
      ∃ value taken between,
        language taken value ∧ reader.Passes taken between ∧
          next value between = .ok (result, rest) := by
  constructor
  · intro ran
    obtain ⟨value, between, ranFirst, ranSecond⟩ := bind_eq_ok ran
    obtain ⟨taken, member, passes⟩ :=
      (recognizes ofInput inBounds value between).mp ranFirst
    exact ⟨value, taken, between, member, passes, ranSecond⟩
  · rintro ⟨value, taken, between, member, passes, ranSecond⟩
    rw [recognizes.bind_of_passes ofInput member passes]
    exact ranSecond

/-- Two actions in a row accept a word of the first and then one of the second. -/
theorem bind
    {action : Decode α}
    {next : α → Decode β}
    {language : Language α}
    {others : α → Language β}
    (first : Recognizes input action language)
    (second : ∀ value, Recognizes input (next value) (others value)) :
    Recognizes input (action >>= next) fun taken result =>
      ∃ middle front back,
        language front middle ∧ others middle back result ∧
          taken = front ++ back := by
  intro reader ofInput inBounds result rest
  rw [first.bind_eq_ok_iff ofInput inBounds]
  constructor
  · rintro ⟨middle, front, between, member, before, ran⟩
    obtain ⟨back, others, after⟩ :=
      (second middle (before.bytes_eq.trans ofInput) before.inBounds result rest).mp
        ran
    exact ⟨front ++ back, ⟨middle, front, back, member, others, rfl⟩,
      before.trans after⟩
  · rintro ⟨taken, ⟨middle, front, back, member, others, rfl⟩, passes⟩
    obtain ⟨between, before, after⟩ := passes.split inBounds
    refine ⟨middle, front, between, member, before, ?_⟩
    exact (second middle (before.bytes_eq.trans ofInput) before.inBounds result
      rest).mpr ⟨back, others, after⟩

/-- Converted results are those of what is recognized. -/
theorem map
    {action : Decode α}
    {language : Language α}
    (recognizes : Recognizes input action language)
    (convert : α → β) :
    Recognizes input (convert <$> action) fun taken result =>
      ∃ value, language taken value ∧ result = convert value := by
  rw [map_eq_pure_bind]
  refine (recognizes.bind fun value => pure (convert value)).congr ?_
  intro taken result
  constructor
  · rintro ⟨value, front, back, member, ⟨rfl, rfl⟩, rfl⟩
    exact ⟨value, by rwa [List.append_nil], rfl⟩
  · rintro ⟨value, member, rfl⟩
    exact ⟨value, taken, [], member, ⟨rfl, rfl⟩, (List.append_nil taken).symm⟩

/-- The offset of a word does not decide whether it is accepted. -/
theorem at_position
    {next : Nat → Decode α}
    {language : Language α}
    (recognizes : ∀ offset, Recognizes input (next offset) language) :
    Recognizes input (position >>= next) language := by
  intro reader ofInput inBounds value rest
  exact recognizes reader.cursor ofInput inBounds value rest

/-- Behind a test nothing is recognized unless it holds. -/
theorem ensure_then
    {condition : Bool}
    {error : Error}
    {action : Decode α}
    {language : Language α}
    (recognizes : Recognizes input action language) :
    Recognizes input (ensure condition error >>= fun _ => action)
      fun taken value => condition = true ∧ language taken value := by
  intro reader ofInput inBounds value rest
  cases condition with
  | false =>
      constructor
      · intro ran
        cases ran
      · rintro ⟨_, ⟨never, _⟩, _⟩
        cases never
  | true =>
      simp only [true_and]
      exact recognizes ofInput inBounds value rest

/-- A choice between two actions accepts what the chosen one does. -/
theorem ite
    {condition : Prop}
    [Decidable condition]
    {action other : Decode α}
    {language others : Language α}
    (chosen : Recognizes input action language)
    (otherwise : Recognizes input other others) :
    Recognizes input (if condition then action else other) fun taken value =>
      (condition ∧ language taken value) ∨ (¬ condition ∧ others taken value) := by
  by_cases holds : condition
  · rw [if_pos holds]
    refine chosen.congr fun taken value => ?_
    simp only [holds, true_and, not_true, false_and, or_false]
  · rw [if_neg holds]
    refine otherwise.congr fun taken value => ?_
    simp only [holds, true_and, not_false_iff, false_and, false_or]

end Recognizes

/-- Of a language's words at most one begins given bytes, when there are actions that read it. -/
theorem unambiguous_of_recognizes
    {language : Language α}
    (readable : ∀ input, ∃ action, Recognizes input action language) :
    language.Unambiguous := by
  intro front other rest others meaning second member otherMember same
  obtain ⟨action, recognizes⟩ := readable ⟨(front ++ rest).toArray⟩
  have start : (ByteReader.ofBytes ⟨(front ++ rest).toArray⟩).InBounds := Nat.zero_le _
  have ahead : (ByteReader.ofBytes ⟨(front ++ rest).toArray⟩).ahead = front ++ rest :=
    ByteReader.ahead_ofBytes _
  obtain ⟨last, passes, _⟩ := ByteReader.Passes.of_ahead start ahead
  obtain ⟨otherLast, otherPasses, _⟩ := ByteReader.Passes.of_ahead start (ahead.trans same)
  have ran := (recognizes rfl start meaning last).mpr ⟨front, member, passes⟩
  have otherRan := (recognizes rfl start second otherLast).mpr ⟨other, otherMember, otherPasses⟩
  cases ran.symm.trans otherRan
  have sameLength : front.length = other.length :=
    Nat.add_left_cancel (passes.cursor_eq.symm.trans otherPasses.cursor_eq)
  exact ⟨(passes.unique otherPasses sameLength).2, rfl⟩

/-- An action that takes a fixed number of bytes accepts all that are so many. -/
theorem recognizes_of_fits
    {action : Decode α}
    {count : Nat}
    {give : ByteReader → α}
    {error : ByteReader → Error}
    {meaning : List UInt8 → α}
    (runs :
      ∀ reader : ByteReader,
        action reader =
          if fits : reader.cursor + count ≤ reader.limit then
            .ok (give reader, reader.advance count fits)
          else
            .error (error reader))
    (gives :
      ∀ reader : ByteReader, reader.cursor + count ≤ reader.limit →
        give reader = meaning (reader.ahead.take count)) :
    Recognizes input action fun taken value =>
      taken.length = count ∧ value = meaning taken := by
  intro reader _ _ value rest
  rw [runs]
  constructor
  · intro ran
    split at ran
    · rename_i fits
      cases ran
      have passes := reader.passes_advance fits
      refine ⟨_, ⟨?_, gives reader fits⟩, passes⟩
      have moved := passes.cursor_eq
      change reader.cursor + count = _ at moved
      omega
    · cases ran
  · rintro ⟨taken, ⟨rfl, rfl⟩, passes⟩
    obtain ⟨sameEnd, sameBytes⟩ :=
      passes.unique (reader.passes_advance passes.fits) <| by
        rw [List.length_take, ByteReader.length_ahead]
        have fits := passes.fits
        omega
    rw [dif_pos passes.fits, gives reader passes.fits, ← sameBytes, ← sameEnd]

/-- Any bytes of the right number are read as they are. -/
theorem readBytes_recognizes (count : Nat) :
    Recognizes input (readBytes count) fun taken bytes =>
      taken.length = count ∧ bytes = ⟨taken.toArray⟩ :=
  recognizes_of_fits (fun _ => rfl) fun reader fits => reader.extract_eq_ahead fits

/-- Any byte is read as it is. -/
theorem readByte_recognizes :
    Recognizes input readByte fun taken byte => taken = [byte] := by
  have recognizes : Recognizes input readByte fun taken byte =>
      taken.length = 1 ∧ byte = taken.headD 0 := by
    exact recognizes_of_fits (fun _ => rfl) fun reader fits => reader.get!_eq_headD fits
  refine recognizes.congr fun taken byte => ?_
  constructor
  · rintro ⟨single, rfl⟩
    obtain ⟨only, rfl⟩ := List.length_eq_one_iff.mp single
    rfl
  · rintro rfl
    exact ⟨rfl, rfl⟩

/-- A field is read from the bytes of a number that it holds. -/
theorem readField_recognizes (type : FieldType) :
    Recognizes input (readField type) fun taken number =>
      type.Holds number ∧ taken = type.bytes number := by
  refine ((readBytes_recognizes type.width).bind fun bytes =>
    .pure (type.value bytes.data.toList)).congr fun taken number => ?_
  constructor
  · rintro ⟨_, front, _, ⟨sized, rfl⟩, ⟨rfl, rfl⟩, rfl⟩
    rw [List.append_nil]
    exact ⟨FieldType.holds_value sized, (FieldType.bytes_value sized).symm⟩
  · rintro ⟨held, rfl⟩
    refine ⟨_, type.bytes number, [], ⟨type.length_bytes number, rfl⟩, ⟨rfl, ?_⟩, ?_⟩
    · exact (FieldType.value_bytes held).symm
    · exact (List.append_nil _).symm

/-- A field is read as the value that it carries. -/
theorem readCarried_recognizes
    {type : FieldType}
    {convert : Int → α}
    {number : α → Int}
    (carries : type.Carries convert number)
    (wrap : α → β) :
    Recognizes input ((fun held => wrap (convert held)) <$> readField type)
      fun taken value =>
        ∃ carried, taken = type.bytes (number carried) ∧ value = wrap carried := by
  refine ((readField_recognizes type).map _).congr fun taken value => ?_
  constructor
  · rintro ⟨held, ⟨holds, rfl⟩, rfl⟩
    exact ⟨convert held, by rw [carries.number_convert holds], rfl⟩
  · rintro ⟨carried, rfl, rfl⟩
    refine ⟨number carried, ⟨carries.holds carried, rfl⟩, ?_⟩
    rw [carries.convert_number]

/-- Text is decoded from its bytes, and none are taken. -/
theorem decodeText_recognizes (bytes : ByteArray) (offset : Nat) :
    Recognizes input (decodeText bytes offset) fun taken text =>
      taken = [] ∧ bytes.data.toList = Utf8.encode text := by
  intro reader ofInput inBounds text rest
  cases decoded : Utf8.decode bytes with
  | ok found =>
      have same := (Utf8.decode_eq_ok_iff bytes found).mp decoded
      have ran : decodeText bytes offset = Pure.pure found := by
        rw [decodeText, decoded]
      rw [ran, Recognizes.pure found ofInput inBounds]
      constructor
      · rintro ⟨taken, ⟨rfl, rfl⟩, passes⟩
        exact ⟨[], ⟨rfl, same⟩, passes⟩
      · rintro ⟨taken, ⟨rfl, other⟩, passes⟩
        exact ⟨[], ⟨rfl, Utf8.encode_injective (other.symm.trans same)⟩, passes⟩
  | error fault =>
      have ran : decodeText bytes offset = malformed (.invalidText offset fault) := by
        rw [decodeText, decoded]
      rw [ran]
      constructor
      · intro failed
        cases failed
      · rintro ⟨taken, ⟨rfl, other⟩, _⟩
        have fine := (Utf8.decode_eq_ok_iff bytes text).mpr other
        rw [decoded] at fine
        cases fine

/-- Bytes without a zero are read from themselves and a zero behind them. -/
theorem readZeroTerminated_recognizes :
    Recognizes input readZeroTerminated fun taken bytes =>
      (0 : UInt8) ∉ bytes.data.toList ∧ taken = bytes.data.toList ++ [0] := by
  intro reader _ inBounds bytes rest
  have stop : max reader.limit reader.cursor = reader.limit := Nat.max_eq_left inBounds
  have search := Scan.findByteBetween?_eq_findIdx? inBounds reader.limit_le 0
  change _ = (reader.ahead.findIdx? (· == 0)).map (reader.cursor + ·) at search
  simp only [readZeroTerminated, stop, search]
  constructor
  · intro ran
    cases found : reader.ahead.findIdx? (· == 0) with
    | none => simp [found] at ran
    | some index =>
        obtain ⟨front, back, shape, absent, rfl⟩ :=
          Scan.findIdx?_eq_some_iff_append.mp found
        simp only [found, Option.map_some, Nat.add_sub_cancel_left] at ran
        split at ran
        · rename_i fits
          cases ran
          have passes := reader.passes_advance fits
          have slice := reader.extract_eq_take_ahead (Nat.le_of_succ_le fits)
          rw [shape, List.take_left] at slice
          rw [shape, List.append_cons, List.take_left' (by simp)] at passes
          refine ⟨front ++ [0], ?_, passes⟩
          rw [slice]
          exact ⟨absent, rfl⟩
        · cases ran
  · rintro ⟨_, ⟨absent, rfl⟩, passes⟩
    have shape : reader.ahead = bytes.data.toList ++ 0 :: rest.ahead := by
      rw [passes.ahead_eq, List.append_assoc]
      rfl
    have found : reader.ahead.findIdx? (· == 0) = some bytes.data.toList.length :=
      Scan.findIdx?_eq_some_iff_append.mpr ⟨_, _, shape, absent, rfl⟩
    have fits := passes.fits
    rw [List.length_append, List.length_singleton] at fits
    have slice := reader.extract_eq_take_ahead (Nat.le_of_succ_le fits)
    rw [shape, List.take_left] at slice
    have sameEnd : reader.advance (bytes.data.toList.length + 1) fits = rest :=
      ByteReader.eq_of_components passes.bytes_eq.symm
        (by rw [passes.cursor_eq, List.length_append]; rfl) passes.limit_eq.symm
    have sameBytes :
        reader.bytes.extract reader.cursor
            (reader.cursor + bytes.data.toList.length) = bytes :=
      ByteArray.ext (Array.toList_inj.mp slice)
    simp only [found, Option.map_some, Nat.add_sub_cancel_left]
    rw [dif_pos fits, sameBytes, sameEnd]

/-- Sharing the input's own bytes gives what copying them gives. -/
theorem readPayload_eq_readBytes
    {options : DecodeOptions}
    {reader : ByteReader}
    (owned : ∀ owner ∈ options.shared?, owner = reader.bytes)
    (count : Nat) :
    options.readPayload count reader = readBytes count reader := by
  rcases options with ⟨maximum, shared?⟩
  cases shared? with
  | none =>
      change (readBytes count >>= fun bytes => pure bytes) reader = _
      cases ran : readBytes count reader with
      | error error => rw [run_bind_of_error ran]
      | ok result =>
          rw [run_bind_of_ok ran]
          rfl
  | some owner =>
      have same := owned owner rfl
      subst same
      change
        (readBytes count >>= fun bytes =>
          pure (reader.bytes.extract reader.cursor (reader.cursor + count))) reader = _
      cases ran : readBytes count reader with
      | error error => rw [run_bind_of_error ran]
      | ok result =>
          rw [run_bind_of_ok ran]
          unfold readBytes at ran
          split at ran
          · cases ran
            rfl
          · cases ran

/-- Copied payloads have no owner, and so none but the input. -/
theorem owned_of_copied
    {options : DecodeOptions}
    (copied : options.shared? = none)
    (input : ByteArray) :
    ∀ owner ∈ options.shared?, owner = input := by
  intro owner member
  rw [copied] at member
  cases member

/-- A payload is read from its bytes, whether it is copied or shared. -/
theorem readPayload_recognizes
    {options : DecodeOptions}
    (owned : ∀ owner ∈ options.shared?, owner = input)
    (count : Nat) :
    Recognizes input (options.readPayload count) fun taken bytes =>
      taken.length = count ∧ bytes = ⟨taken.toArray⟩ := by
  intro reader ofInput inBounds bytes rest
  rw [readPayload_eq_readBytes (by rw [ofInput]; exact owned)]
  exact readBytes_recognizes count ofInput inBounds bytes rest

end Decode

end DocumentCodec
