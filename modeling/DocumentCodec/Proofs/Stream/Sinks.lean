import DocumentCodec.Stream.Sink

namespace DocumentCodec

/-!
# What a sink takes

Bytes are sent to a sink by writes that each offer bytes still pending, and take
some of them or are interrupted (`Sink.Progress`).  Sending ends with nothing
pending, or with a write by which the sink itself stops it (`Sink.Stops`).

Main statements: every sending goes one of these two ways, and then the sink has
taken a front of the bytes, in order and once; a sink that takes at least a byte
at each write, and fails by interruptions only, takes all.
-/

/-- A reply that takes bytes or asks to be tried again. -/
def SinkReply.Willing : SinkReply → Prop
  | takes most => 0 < most
  | fails fault => fault.kind = .interrupted

/-- A full sink that asks to be tried again. -/
def FullSink.Willing : FullSink → Prop
  | refuses => False
  | fails fault => fault.kind = .interrupted

namespace Sink

/-- What one write comes to: some of the bytes on offer are taken, or it fails without. -/
inductive Answers (received content : ByteArray) (offset : Nat) :
    Except IoFault Nat × Sink → Prop
  | takes {count after}
      (within : offset + count ≤ content.size)
      (received_eq :
        after.received = received ++ content.extract offset (offset + count)) :
      Answers received content offset (.ok count, after)
  | fails {fault after}
      (received_eq : after.received = received) :
      Answers received content offset (.error fault, after)

/--
A write offers the content from an offset on.  That is some of it, and comes
first of what is pending.
-/
structure Offers (content : ByteArray) (offset : Nat) (pending behind : ByteArray) : Prop where
  left : offset < content.size
  pending_eq : pending = content.extract offset content.size ++ behind

/--
Writes that bring the sending of some bytes on until others are pending.  Each
takes some of what it offers or is interrupted.
-/
inductive Progress : (sink : Sink) → (pending : ByteArray) → (after : Sink) →
    (unsent : ByteArray) → Prop
  | none {sink pending} : Progress sink pending sink pending
  | takes {sink between after content offset count pending behind unsent}
      (offers : Offers content offset pending behind)
      (answered : sink.write content offset = (.ok count, between))
      (nonzero : count ≠ 0)
      (rest : Progress between (content.extract (offset + count) content.size ++ behind)
        after unsent) :
      Progress sink pending after unsent
  | interrupted {sink between after content offset fault pending behind unsent}
      (offers : Offers content offset pending behind)
      (answered : sink.write content offset = (.error fault, between))
      (kind : fault.kind = .interrupted)
      (rest : Progress between pending after unsent) :
      Progress sink pending after unsent

/--
A write by which the sink stops the sending: it takes nothing of what is offered,
or fails, and not by an interruption.
-/
inductive Stops (sink : Sink) (pending : ByteArray) : IoFault → Sink → Prop
  | takesNothing {content offset behind after}
      (offers : Offers content offset pending behind)
      (answered : sink.write content offset = (.ok 0, after)) :
      Stops sink pending .nothingAccepted after
  | fails {content offset behind fault after}
      (offers : Offers content offset pending behind)
      (answered : sink.write content offset = (.error fault, after))
      (own : fault.kind ≠ .interrupted) :
      Stops sink pending fault after

/-- What sending some bytes comes to: all are taken, or the sink stops it before that. -/
inductive Sends (sink : Sink) (bytes : ByteArray) : Except Error Unit × Sink → Prop
  | all {after}
      (progress : sink.Progress bytes after ByteArray.empty) :
      Sends sink bytes (.ok (), after)
  | part {between unsent fault after}
      (progress : sink.Progress bytes between unsent)
      (stops : between.Stops unsent fault after) :
      Sends sink bytes (.error (.io fault), after)

/-- Taking a number of bytes of the content is an answer to a write. -/
theorem answers_accept
    (sink : Sink)
    {content : ByteArray}
    {offset : Nat}
    (within : offset ≤ content.size)
    (most : Nat) :
    Answers sink.received content offset
      (.ok (sink.accept content offset most).1, (sink.accept content offset most).2) := by
  have counted : (sink.accept content offset most).1 = min most (content.size - offset) := rfl
  refine .takes ?_ rfl
  omega

/-- A write takes some of the bytes on offer, or fails and takes none. -/
theorem answers_write
    (sink : Sink)
    {content : ByteArray}
    {offset : Nat}
    (within : offset ≤ content.size) :
    Answers sink.received content offset (sink.write content offset) := by
  match sink with
  | ⟨received, .takes most :: script, chunk, limit⟩ =>
      exact answers_accept ⟨received, script, chunk, limit⟩ within most
  | ⟨received, .fails fault :: script, chunk, limit⟩ => exact .fails rfl
  | ⟨received, [], chunk, none⟩ => exact answers_accept _ within _
  | ⟨received, [], chunk, some (limit, full)⟩ =>
      simp only [write]
      split
      · exact answers_accept ⟨received, [], chunk, some (limit, full)⟩ within _
      · cases full with
        | refuses => exact .takes within (by simp)
        | fails fault =>
            dsimp only
            split <;> exact .fails rfl

/-- What comes first of some bytes does so with others behind them. -/
theorem Offers.append
    {content pending behind : ByteArray}
    {offset : Nat}
    (offers : Offers content offset pending behind)
    (others : ByteArray) :
    Offers content offset (pending ++ others) (behind ++ others) :=
  ⟨offers.left, by rw [offers.pending_eq, ByteArray.append_assoc]⟩

/-- Something is pending when it is offered. -/
theorem Offers.pending_ne
    {content pending behind : ByteArray}
    {offset : Nat}
    (offers : Offers content offset pending behind) :
    pending ≠ ByteArray.empty := by
  intro none
  have sizes := congrArg ByteArray.size (offers.pending_eq.symm.trans none)
  rw [ByteArray.size_append, ByteArray.size_extract, Nat.min_self, ByteArray.size_empty] at sizes
  have left := offers.left
  omega

namespace Progress

variable {sink between after : Sink} {pending unsent last : ByteArray}

/-- Sending goes on where it was left. -/
theorem trans
    (before : sink.Progress pending between unsent)
    (behind : between.Progress unsent after last) :
    sink.Progress pending after last := by
  induction before with
  | none => exact behind
  | takes offers answered nonzero _ inductionHypothesis =>
      exact .takes offers answered nonzero (inductionHypothesis behind)
  | interrupted offers answered kind _ inductionHypothesis =>
      exact .interrupted offers answered kind (inductionHypothesis behind)

/-- Bytes are sent in the same way when others are to be sent behind them. -/
theorem append
    (progress : sink.Progress pending after unsent)
    (others : ByteArray) :
    sink.Progress (pending ++ others) after (unsent ++ others) := by
  induction progress with
  | none => exact .none
  | takes offers answered nonzero _ inductionHypothesis =>
      rw [ByteArray.append_assoc] at inductionHypothesis
      exact .takes (offers.append others) answered nonzero inductionHypothesis
  | interrupted offers answered kind _ inductionHypothesis =>
      exact .interrupted (offers.append others) answered kind inductionHypothesis

/-- The sink has taken the bytes in front of those that are pending, in order and once. -/
theorem exists_sent (progress : sink.Progress pending after unsent) :
    ∃ sent, pending = sent ++ unsent ∧ after.received = sink.received ++ sent := by
  induction progress with
  | none => exact ⟨ByteArray.empty, ByteArray.empty_append.symm, ByteArray.append_empty.symm⟩
  | @takes sink between _ content offset count _ behind _ offers answered _ _
      inductionHypothesis =>
      obtain ⟨sent, shape, received⟩ := inductionHypothesis
      have answers := sink.answers_write (Nat.le_of_lt offers.left)
      rw [answered] at answers
      cases answers with
      | takes inside received_eq =>
          refine ⟨content.extract offset (offset + count) ++ sent, ?_, ?_⟩
          · rw [offers.pending_eq, ByteArray.append_assoc, ← shape, ← ByteArray.append_assoc,
              ← ByteArray.extract_eq_extract_append_extract _ (Nat.le_add_right offset count)
                inside]
          · rw [received, received_eq, ByteArray.append_assoc]
  | @interrupted sink between _ content offset _ _ _ _ offers answered _ _
      inductionHypothesis =>
      obtain ⟨sent, shape, received⟩ := inductionHypothesis
      have answers := sink.answers_write (Nat.le_of_lt offers.left)
      rw [answered] at answers
      cases answers with
      | fails received_eq => exact ⟨sent, shape, received_eq ▸ received⟩

end Progress

namespace Stops

variable {sink after : Sink} {pending : ByteArray} {fault : IoFault}

/-- A sink stops the sending of bytes in the same way when others are behind them. -/
theorem append
    (stops : sink.Stops pending fault after)
    (others : ByteArray) :
    sink.Stops (pending ++ others) fault after := by
  cases stops with
  | takesNothing offers answered => exact .takesNothing (offers.append others) answered
  | fails offers answered own => exact .fails (offers.append others) answered own

/-- Some bytes are left when a sink stops the sending. -/
theorem pending_ne (stops : sink.Stops pending fault after) : pending ≠ ByteArray.empty := by
  cases stops with
  | takesNothing offers => exact offers.pending_ne
  | fails offers => exact offers.pending_ne

/-- The write by which a sink stops the sending brings it no bytes. -/
theorem received_eq (stops : sink.Stops pending fault after) :
    after.received = sink.received := by
  cases stops with
  | takesNothing offers answered =>
      have answers := sink.answers_write (Nat.le_of_lt offers.left)
      rw [answered] at answers
      cases answers with
      | takes _ received_eq =>
          rw [received_eq, Nat.add_zero, ByteArray.extract_same, ByteArray.append_empty]
  | fails offers answered =>
      have answers := sink.answers_write (Nat.le_of_lt offers.left)
      rw [answered] at answers
      cases answers with
      | fails received_eq => exact received_eq

end Stops

namespace Sends

variable {sink between : Sink} {first second : ByteArray} {outcome : Except Error Unit × Sink}

/-- Bytes that were sent before the others are sent with them. -/
theorem behind
    (before : sink.Progress first between second)
    (sends : between.Sends second outcome) :
    sink.Sends first outcome := by
  cases sends with
  | all progress => exact .all (before.trans progress)
  | part progress stops => exact .part (before.trans progress) stops

end Sends

/-- Writing the content from an offset on sends what it holds there. -/
theorem sends_writeFrom
    (sink : Sink)
    (content : ByteArray)
    (offset : Nat) :
    sink.Sends (content.extract offset content.size) (sink.writeFrom content offset) := by
  have offers {start : Nat} (left : ¬ content.size ≤ start) :
      Offers content start (content.extract start content.size) ByteArray.empty :=
    ⟨Nat.lt_of_not_le left, ByteArray.append_empty.symm⟩
  fun_induction writeFrom sink content offset with
  | case1 sink offset spent =>
      have none : content.extract offset content.size = ByteArray.empty :=
        ByteArray.extract_eq_empty_iff.mpr (Nat.le_trans (Nat.min_le_left _ _) spent)
      rw [none]
      exact .all .none
  | case2 sink offset left after outcome =>
      exact .part .none (.takesNothing (offers left) outcome)
  | case3 sink offset left count after outcome nonzero _ inductionHypothesis =>
      refine inductionHypothesis.behind (.takes (offers left) outcome nonzero ?_)
      rw [ByteArray.append_empty]
      exact .none
  | case4 sink offset left fault after outcome kind _ inductionHypothesis =>
      exact inductionHypothesis.behind (.interrupted (offers left) outcome kind .none)
  | case5 sink offset left fault after outcome other =>
      exact .part .none (.fails (offers left) outcome other)

/-- Whatever the sink does, it takes all that is written, or stops the writing before that. -/
theorem sends_writeFully (sink : Sink) (content : ByteArray) :
    sink.Sends content (sink.writeFully content) := by
  have sends := sink.sends_writeFrom content 0
  rwa [ByteArray.extract_zero_size] at sends

/-- Every write takes bytes or is interrupted. -/
structure Willing (sink : Sink) : Prop where
  script : ∀ reply ∈ sink.script, reply.Willing
  chunk : sink.chunk ≠ some 0
  limit : ∀ limit full, sink.limit = some (limit, full) → full.Willing

/-- A write to a willing sink brings the writing on, and the sink stays willing. -/
inductive GoesOn : Except IoFault Nat × Sink → Prop
  | takes {count after}
      (nonzero : count ≠ 0)
      (willing : after.Willing) :
      GoesOn (.ok count, after)
  | interrupted {fault after}
      (kind : fault.kind = .interrupted)
      (willing : after.Willing) :
      GoesOn (.error fault, after)

/-- A willing sink that takes some bytes brings the writing on. -/
theorem goesOn_accept
    {sink : Sink}
    {content : ByteArray}
    {offset most : Nat}
    (willing : sink.Willing)
    (positive : 0 < most)
    (left : offset < content.size) :
    GoesOn (.ok (sink.accept content offset most).1, (sink.accept content offset most).2) := by
  have counted : (sink.accept content offset most).1 = min most (content.size - offset) := rfl
  refine .takes ?_ ⟨willing.script, willing.chunk, willing.limit⟩
  omega

/-- A sink that advances has room for a byte at least. -/
theorem allowance_pos
    {sink : Sink}
    {offered : Nat}
    (advances : sink.chunk ≠ some 0)
    (positive : 0 < offered) :
    0 < sink.allowance offered := by
  unfold allowance
  cases chunk : sink.chunk with
  | none => exact positive
  | some most =>
      refine Nat.lt_min.mpr ⟨positive, Nat.pos_of_ne_zero fun none => advances ?_⟩
      rw [chunk, none]

/-- A write to a willing sink brings the writing on. -/
theorem goesOn_write
    {sink : Sink}
    {content : ByteArray}
    {offset : Nat}
    (willing : sink.Willing)
    (left : offset < content.size) :
    GoesOn (sink.write content offset) := by
  have offered : 0 < content.size - offset := Nat.sub_pos_of_lt left
  match sink with
  | ⟨received, .takes most :: script, chunk, limit⟩ =>
      have behind : Willing ⟨received, script, chunk, limit⟩ :=
        ⟨fun reply member => willing.script reply (List.mem_cons_of_mem _ member),
          willing.chunk, willing.limit⟩
      exact goesOn_accept behind (willing.script _ List.mem_cons_self) left
  | ⟨received, .fails fault :: script, chunk, limit⟩ =>
      exact .interrupted (willing.script _ List.mem_cons_self)
        ⟨fun reply member => willing.script reply (List.mem_cons_of_mem _ member),
          willing.chunk, willing.limit⟩
  | ⟨received, [], chunk, none⟩ =>
      exact goesOn_accept willing (allowance_pos willing.chunk offered) left
  | ⟨received, [], chunk, some (limit, full)⟩ =>
      simp only [write]
      by_cases room : received.size < limit
      · rw [if_pos room]
        refine goesOn_accept willing (Nat.lt_min.mpr ⟨Nat.sub_pos_of_lt room, ?_⟩) left
        exact allowance_pos willing.chunk offered
      · rw [if_neg room]
        have again := willing.limit limit full rfl
        cases full with
        | refuses => exact again.elim
        | fails fault =>
            have kind : fault.kind = .interrupted := again
            simp only [if_pos kind]
            refine .interrupted kind ⟨willing.script, willing.chunk, ?_⟩
            intro limit full never
            cases never

/-- A willing sink takes everything, and stays willing. -/
theorem writeFrom_of_willing
    {sink : Sink}
    {content : ByteArray}
    {offset : Nat}
    (willing : sink.Willing) :
    ∃ after, sink.writeFrom content offset = (.ok (), after) ∧ after.Willing := by
  fun_induction writeFrom sink content offset with
  | case1 sink offset spent => exact ⟨sink, rfl, willing⟩
  | case2 sink offset left after outcome =>
      have goesOn := goesOn_write willing (Nat.lt_of_not_le left)
      rw [outcome] at goesOn
      cases goesOn with
      | takes nonzero => exact absurd rfl nonzero
  | case3 sink offset left count after outcome nonzero _ inductionHypothesis =>
      have goesOn := goesOn_write willing (Nat.lt_of_not_le left)
      rw [outcome] at goesOn
      cases goesOn with
      | takes _ willingAfter => exact inductionHypothesis willingAfter
  | case4 sink offset left fault after outcome kind _ inductionHypothesis =>
      have goesOn := goesOn_write willing (Nat.lt_of_not_le left)
      rw [outcome] at goesOn
      cases goesOn with
      | interrupted _ willingAfter => exact inductionHypothesis willingAfter
  | case5 sink offset left fault after outcome other =>
      have goesOn := goesOn_write willing (Nat.lt_of_not_le left)
      rw [outcome] at goesOn
      cases goesOn with
      | interrupted kind => exact absurd kind other

/-- All that is written is received, behind what was there, and the sink stays willing. -/
theorem writeFully_of_willing
    {sink : Sink}
    (willing : sink.Willing)
    (content : ByteArray) :
    ∃ after, sink.writeFully content = (.ok (), after) ∧ after.Willing ∧
      after.received = sink.received ++ content := by
  obtain ⟨after, ran, willingAfter⟩ := @writeFrom_of_willing sink content 0 willing
  have sends := sink.sends_writeFully content
  rw [writeFully, ran] at sends
  cases sends with
  | all progress =>
      obtain ⟨sent, shape, received⟩ := progress.exists_sent
      rw [ByteArray.append_empty] at shape
      exact ⟨after, ran, willingAfter, shape ▸ received⟩

end Sink

end DocumentCodec
