import DocumentCodec.Stream.Source

namespace DocumentCodec.Source

/-!
# What is read from a source

However a source splits its bytes and wherever it is interrupted, reading
until enough bytes are there takes exactly those bytes.  A source that has too
few is read to its end, or to the failure that is no interruption and stands
in front of the others.
-/

/-- The bytes in front of the first failure that is no interruption. -/
def presentIn : List SourcePiece → List UInt8
  | [] => []
  | .bytes content :: rest => content.data.toList ++ presentIn rest
  | .failure fault :: rest =>
      if fault.kind = .interrupted then presentIn rest else []

/-- The first failure that is no interruption. -/
def obstacleIn? : List SourcePiece → Option IoFault
  | [] => none
  | .bytes _ :: rest => obstacleIn? rest
  | .failure fault :: rest =>
      if fault.kind = .interrupted then obstacleIn? rest else some fault

/-- The bytes that can be read before the source fails for good or ends. -/
def present (source : Source) : List UInt8 :=
  presentIn source.pieces

/-- The failure behind the bytes present, if the source does not end there. -/
def obstacle? (source : Source) : Option IoFault :=
  obstacleIn? source.pieces

/-- One source becomes another by giving bytes. -/
structure Gives (source : Source) (given : List UInt8) (after : Source) : Prop where
  chunk_eq : after.chunk = source.chunk
  taken_eq : after.taken = source.taken + given.length
  present_eq : source.present = given ++ after.present
  obstacle_eq : after.obstacle? = source.obstacle?

/-- A source may give nothing and stay as it is. -/
theorem Gives.refl (source : Source) : source.Gives [] source :=
  ⟨rfl, rfl, rfl, rfl⟩

/-- A source gives in two goes what it gives in one. -/
theorem Gives.trans
    {source between after : Source}
    {front back : List UInt8}
    (first : source.Gives front between)
    (second : between.Gives back after) :
    source.Gives (front ++ back) after where
  chunk_eq := second.chunk_eq.trans first.chunk_eq
  taken_eq := by
    rw [second.taken_eq, first.taken_eq, List.length_append, Nat.add_assoc]
  present_eq := by rw [first.present_eq, second.present_eq, List.append_assoc]
  obstacle_eq := second.obstacle_eq.trans first.obstacle_eq

/-- What a source has given are the first of the bytes that were present. -/
theorem Gives.take_present
    {source after : Source}
    {given : List UInt8}
    (gives : source.Gives given after) :
    source.present.take given.length = given := by
  rw [gives.present_eq, List.take_left]

/-- A source gives no more than it has. -/
theorem Gives.length_le
    {source after : Source}
    {given : List UInt8}
    (gives : source.Gives given after) :
    given.length ≤ source.present.length := by
  rw [gives.present_eq, List.length_append]
  exact Nat.le_add_right _ _

/-- What one read of a source comes to, and the source behind it. -/
inductive Yields (source : Source) (wanted : Nat) :
    Except IoFault ByteArray × Source → Prop
  | bytes {content after}
      (nonempty : content.size ≠ 0)
      (within : content.size ≤ wanted)
      (gives : source.Gives content.data.toList after) :
      Yields source wanted (.ok content, after)
  | ended {content after}
      (nothing : content.size = 0)
      (spent : source.present = [])
      (clear : source.obstacle? = none)
      (gives : source.Gives [] after) :
      Yields source wanted (.ok content, after)
  | interrupted {fault after}
      (kind : fault.kind = .interrupted)
      (gives : source.Gives [] after) :
      Yields source wanted (.error fault, after)
  | failed {fault after}
      (kind : fault.kind ≠ .interrupted)
      (spent : source.present = [])
      (obstacle : source.obstacle? = some fault)
      (taken_eq : after.taken = source.taken) :
      Yields source wanted (.error fault, after)

/-- What is read behind pieces that give nothing is read in front of them. -/
theorem Yields.of_gives
    {source between : Source}
    {wanted : Nat}
    {outcome : Except IoFault ByteArray × Source}
    (nothing : source.Gives [] between)
    (yields : between.Yields wanted outcome) :
    source.Yields wanted outcome := by
  cases yields with
  | bytes nonempty within gives => exact .bytes nonempty within (nothing.trans gives)
  | ended empty spent clear gives =>
      exact .ended empty (nothing.present_eq.trans spent) (nothing.obstacle_eq ▸ clear)
        (nothing.trans gives)
  | interrupted kind gives => exact .interrupted kind (nothing.trans gives)
  | failed kind spent obstacle taken_eq =>
      exact .failed kind (nothing.present_eq.trans spent) (nothing.obstacle_eq ▸ obstacle)
        (taken_eq.trans nothing.taken_eq)

/-- A source that advances gives a byte at least. -/
theorem allowance_pos
    {chunk : Option Nat}
    {wanted : Nat}
    (advances : chunk ≠ some 0)
    (some : 0 < wanted) :
    0 < allowance chunk wanted := by
  cases chunk with
  | none => exact some
  | some most =>
      refine Nat.lt_min.mpr ⟨some, Nat.pos_of_ne_zero fun none => advances ?_⟩
      rw [none]

/-- A read takes no more than was wanted. -/
theorem allowance_le (chunk : Option Nat) (wanted : Nat) :
    allowance chunk wanted ≤ wanted := by
  cases chunk with
  | none => exact Nat.le_refl _
  | some most => exact Nat.min_le_left _ _

/-- A read is one from the source's pieces, within its allowance. -/
theorem read_eq
    (source : Source)
    (wanted : Nat) :
    source.read wanted =
      match readPieces (allowance source.chunk wanted) source.pieces with
      | (.ok content, pieces) =>
          (.ok content, ⟨pieces, source.chunk, source.taken + content.size⟩)
      | (.error fault, pieces) => (.error fault, ⟨pieces, source.chunk, source.taken⟩) := by
  unfold read
  rcases readPieces (allowance source.chunk wanted) source.pieces with ⟨_ | _, _⟩ <;> rfl

/-- The front of a content is its first bytes. -/
theorem toList_extract_front (content : ByteArray) (count : Nat) :
    (content.extract 0 count).data.toList = content.data.toList.take count := by
  rw [ByteArray.data_extract, Array.toList_extract, List.extract_eq_take_drop,
    List.drop_zero, Nat.sub_zero]

/-- The back of a content is what is behind its first bytes. -/
theorem toList_extract_back (content : ByteArray) (count : Nat) :
    (content.extract count content.size).data.toList = content.data.toList.drop count := by
  rw [ByteArray.data_extract, Array.toList_extract, List.extract_eq_take_drop]
  refine List.take_of_length_le ?_
  rw [List.length_drop]
  exact Nat.le_refl _

/-- Every read gives bytes, or tells why there are none. -/
theorem yields_read
    {source : Source}
    {wanted : Nat}
    (advances : source.chunk ≠ some 0)
    (some : 0 < wanted) :
    source.Yields wanted (source.read wanted) := by
  rcases source with ⟨pieces, chunk, taken⟩
  have positive := allowance_pos advances some
  have bounded := allowance_le chunk wanted
  rw [read_eq]
  induction pieces with
  | nil => exact .ended rfl rfl rfl (.refl _)
  | cons piece rest inductionHypothesis =>
      cases piece with
      | failure fault =>
          by_cases kind : fault.kind = .interrupted
          · refine .interrupted kind ⟨rfl, rfl, ?_, ?_⟩
            · exact if_pos kind
            · exact (if_pos kind).symm
          · exact .failed kind (if_neg kind) (if_neg kind) rfl
      | bytes content =>
          by_cases empty : content.isEmpty
          · have none : content.data.toList = [] :=
              List.eq_nil_of_length_eq_zero (of_decide_eq_true empty)
            have skipped : (Source.mk (.bytes content :: rest) chunk taken).Gives []
                ⟨rest, chunk, taken⟩ :=
              ⟨rfl, rfl, congrArg (· ++ presentIn rest) none, rfl⟩
            rw [readPieces, if_pos empty]
            exact .of_gives skipped (inductionHypothesis advances positive)
          · have nonempty : content.size ≠ 0 := fun none => empty (decide_eq_true none)
            by_cases whole : content.size ≤ allowance chunk wanted
            · rw [readPieces, if_neg empty, if_pos whole]
              exact .bytes nonempty (Nat.le_trans whole bounded) ⟨rfl, rfl, rfl, rfl⟩
            · rw [readPieces, if_neg empty, if_neg whole]
              have front := toList_extract_front content (allowance chunk wanted)
              have back := toList_extract_back content (allowance chunk wanted)
              have size : (content.extract 0 (allowance chunk wanted)).size =
                  allowance chunk wanted := by
                rw [ByteArray.size_extract]
                omega
              refine .bytes ?_ ?_ ⟨rfl, rfl, ?_, rfl⟩
              · exact fun none => Nat.ne_of_gt positive (size.symm.trans none)
              · exact Nat.le_trans (Nat.le_of_eq size) bounded
              · change content.data.toList ++ presentIn rest = _ ++ (_ ++ presentIn rest)
                rw [front, back, ← List.append_assoc, List.take_append_drop]

/-- The report of a frame that is cut short, of which some bytes are there. -/
def shortage (frame available : Nat) : Option IoFault → Error
  | none => .truncated frame available
  | some fault => .io fault

/-- What reading until enough bytes are there comes to. -/
inductive Fills (source : Source) (frame already : Nat) (collected : ByteArray)
    (wanted : Nat) : Except Error ByteArray × Source → Prop
  | full {given after}
      (length_eq : given.length = wanted)
      (gives : source.Gives given after) :
      Fills source frame already collected wanted
        (.ok (collected ++ ⟨given.toArray⟩), after)
  | short {after}
      (few : source.present.length < wanted)
      (taken_eq : after.taken = source.taken + source.present.length)
      (gives : source.obstacle? = none → source.Gives source.present after) :
      Fills source frame already collected wanted
        (.error (shortage frame (already + collected.size + source.present.length)
          source.obstacle?), after)

/-- What is missing behind bytes that have been read is missing in front of them. -/
theorem Fills.of_gives
    {source between : Source}
    {frame already wanted : Nat}
    {collected content : ByteArray}
    {outcome : Except Error ByteArray × Source}
    (gives : source.Gives content.data.toList between)
    (within : content.size ≤ wanted)
    (fills :
      between.Fills frame already (collected ++ content) (wanted - content.size)
        outcome) :
    source.Fills frame already collected wanted outcome := by
  have size : content.data.toList.length = content.size := Array.length_toList
  cases fills with
  | @full given after length_eq others =>
      have all : (collected ++ content) ++ ⟨given.toArray⟩ =
          collected ++ ⟨(content.data.toList ++ given).toArray⟩ := by
        apply ByteArray.ext
        apply Array.toList_inj.mp
        simp only [ByteArray.data_append, Array.toList_append, List.append_assoc]
      rw [all]
      refine .full ?_ (gives.trans others)
      rw [List.length_append, length_eq, size]
      omega
  | short few taken_eq others =>
      have total := congrArg List.length gives.present_eq
      rw [List.length_append, size] at total
      have available :
          already + (collected ++ content).size + between.present.length =
            already + collected.size + source.present.length := by
        rw [ByteArray.size_append]
        omega
      rw [available, gives.obstacle_eq]
      refine .short (by omega) ?_ fun clear => ?_
      · rw [taken_eq, gives.taken_eq, size]
        omega
      · rw [gives.present_eq]
        exact gives.trans (others (gives.obstacle_eq.trans clear))

/-- Where no bytes are left the report counts those that came before. -/
theorem Fills.of_spent
    {source after : Source}
    {wanted : Nat}
    (spent : source.present = [])
    (some : 0 < wanted)
    (taken_eq : after.taken = source.taken)
    (gives : source.obstacle? = none → source.Gives [] after)
    (frame already : Nat)
    (collected : ByteArray) :
    source.Fills frame already collected wanted
      (.error (shortage frame (already + collected.size) source.obstacle?), after) := by
  have length : source.present.length = 0 := congrArg List.length spent
  have available :
      already + collected.size = already + collected.size + source.present.length := by
    rw [length, Nat.add_zero]
  rw [available]
  refine .short (length ▸ some) ?_ fun clear => ?_
  · rw [length, taken_eq, Nat.add_zero]
  · rw [spent]
    exact gives clear

/-- Reading until enough bytes are there takes as many, or all if there are too few. -/
theorem fills_readExactly
    {source : Source}
    (advances : source.chunk ≠ some 0)
    (frame already : Nat)
    (collected : ByteArray)
    (wanted : Nat) :
    source.Fills frame already collected wanted
      (source.readExactly frame already collected wanted) := by
  fun_induction readExactly source frame already collected wanted with
  | case1 source collected =>
      have all : collected = collected ++ ⟨([] : List UInt8).toArray⟩ :=
        ByteArray.append_empty.symm
      have fills : source.Fills frame already collected 0
          (.ok (collected ++ ⟨([] : List UInt8).toArray⟩), source) :=
        .full rfl (.refl source)
      rwa [← all] at fills
  | case2 source collected wanted some content after outcome empty =>
      have yields := yields_read advances (Nat.pos_of_ne_zero some)
      rw [outcome] at yields
      cases yields with
      | bytes nonempty => exact absurd empty nonempty
      | ended _ spent clear gives =>
          have fills := Fills.of_spent spent (Nat.pos_of_ne_zero some) gives.taken_eq
            (fun _ => gives) frame already collected
          rwa [clear] at fills
  | case3 source collected wanted some content after outcome nonempty _ inductionHypothesis =>
      have yields := yields_read advances (Nat.pos_of_ne_zero some)
      rw [outcome] at yields
      cases yields with
      | bytes _ within gives =>
          exact .of_gives gives within (inductionHypothesis (gives.chunk_eq ▸ advances))
      | ended empty => exact absurd empty nonempty
  | case4 source collected wanted some fault after outcome kind _ inductionHypothesis =>
      have yields := yields_read advances (Nat.pos_of_ne_zero some)
      rw [outcome] at yields
      cases yields with
      -- an interruption gives no bytes and leaves as many wanted
      | interrupted _ gives =>
          have fills := inductionHypothesis (gives.chunk_eq ▸ advances)
          refine @Fills.of_gives _ _ _ _ _ _ ByteArray.empty _ gives (Nat.zero_le _) ?_
          rwa [ByteArray.append_empty]
      | failed other => exact absurd kind other
  | case5 source collected wanted some fault after outcome kind =>
      have yields := yields_read advances (Nat.pos_of_ne_zero some)
      rw [outcome] at yields
      cases yields with
      | interrupted other => exact absurd other kind
      | failed _ spent obstacle taken_eq =>
          have never (clear : source.obstacle? = none) : source.Gives [] after := by
            rw [obstacle] at clear
            cases clear
          have fills := Fills.of_spent spent (Nat.pos_of_ne_zero some) taken_eq never frame
            already collected
          rwa [obstacle] at fills

end DocumentCodec.Source
