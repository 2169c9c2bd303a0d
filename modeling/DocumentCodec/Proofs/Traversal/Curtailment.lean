import DocumentCodec.Proofs.Bytes.Curtailment
import DocumentCodec.Proofs.Traversal.Derivation

namespace DocumentCodec

/-!
# Reading documents with less before the limit

When the steps of a format's reader degrade, so does reading a container by
nesting: with bytes missing at the end, or with a bound that is lower, it has
the same result and gets to the same place, or it stops with a length fault.
-/

/-- Bounds that end earlier, with as many elements to come. -/
structure Bounds.Curtails (lower bounds : Bounds) : Prop where
  stop_le : lower.stop ≤ bounds.stop
  remaining_eq : lower.remaining = bounds.remaining

/-- Bounds are curtailed ones of themselves. -/
theorem Bounds.Curtails.refl (bounds : Bounds) : bounds.Curtails bounds :=
  ⟨Nat.le_refl _, rfl⟩

/-- Elements that are the same up to where a nested container ends. -/
inductive Element.Shortened : Element → Element → Prop
  | finished : Shortened .finished .finished
  | scalar (key : Option String) (value : Value) :
      Shortened (.scalar key value) (.scalar key value)
  | opened (key : Option String) (kind : ContainerKind) {bounds lower : Bounds}
      (curtails : lower.Curtails bounds) :
      Shortened (.opened key kind bounds) (.opened key kind lower)

/-- What a step of reading finds with a lower bound, and the bound it leaves. -/
def Element.ShortenedWith (found lower : Element × Bounds) : Prop :=
  found.1.Shortened lower.1 ∧ lower.2.Curtails found.2

namespace ElementReader

variable {format : ElementReader} {options : DecodeOptions}

/-- Every step degrades when the bound of its container is lowered. -/
def NextDegrades (format : ElementReader) (options : DecodeOptions) : Prop :=
  ∀ kind (bounds lower : Bounds), lower.Curtails bounds →
    Decode.Degrades Element.ShortenedWith (format.next options kind bounds)
      (format.next options kind lower)

/-- A container that was read is read again with less, or stops with a length fault. -/
theorem Reads.degrade
    {building final : Building}
    {bounds lower : Bounds}
    {reader shorter rest : ByteReader}
    {outcome : Except Error (Building × ByteReader)}
    (reads : Reads format options building bounds reader outcome)
    (nextDegrades : format.NextDegrades options)
    (succeeded : outcome = .ok (final, rest))
    (lowered : lower.Curtails bounds)
    (curtails : shorter.Curtails reader) :
    (∃ after, Reads format options building lower shorter (.ok (final, after)) ∧
        after.Curtails rest) ∨
      ∃ error, Reads format options building lower shorter (.error error) ∧
        error.IsLengthFault := by
  induction reads generalizing lower shorter final rest with
  | failed next => cases succeeded
  | nestedFailed next inside => cases succeeded
  | finished next =>
      cases succeeded
      obtain ⟨⟨element, bounds⟩, after, same, ⟨shortened, _⟩, stays⟩ | ⟨error, failed, isFault⟩ :=
        nextDegrades _ _ _ lowered (curtails.setLimit lowered.stop_le) next
      · cases shortened
        exact .inl ⟨after, .finished same, stays⟩
      · exact .inr ⟨error, .failed failed, isFault⟩
  | scalar next others inductionHypothesis =>
      obtain ⟨⟨element, bounds⟩, between, same, ⟨shortened, lowerBounds⟩, stays⟩ |
          ⟨error, failed, isFault⟩ :=
        nextDegrades _ _ _ lowered (curtails.setLimit lowered.stop_le) next
      · cases shortened
        obtain ⟨after, reads, staysOthers⟩ | ⟨error, reads, isFault⟩ :=
          inductionHypothesis succeeded lowerBounds stays
        · exact .inl ⟨after, .scalar same reads, staysOthers⟩
        · exact .inr ⟨error, .scalar same reads, isFault⟩
      · exact .inr ⟨error, .failed failed, isFault⟩
  | nested next inside others insideHypothesis othersHypothesis =>
      obtain ⟨⟨element, bounds⟩, between, same, ⟨shortened, lowerBounds⟩, stays⟩ |
          ⟨error, failed, isFault⟩ :=
        nextDegrades _ _ _ lowered (curtails.setLimit lowered.stop_le) next
      · cases shortened with
        | opened key kind lowerInside =>
            obtain ⟨resumed, readsInside, staysInside⟩ | ⟨error, readsInside, isFault⟩ :=
              insideHypothesis rfl lowerInside stays
            · obtain ⟨after, reads, staysOthers⟩ | ⟨error, reads, isFault⟩ :=
                othersHypothesis succeeded lowerBounds staysInside
              · exact .inl ⟨after, .nested same readsInside reads, staysOthers⟩
              · exact .inr ⟨error, .nested same readsInside reads, isFault⟩
            · exact .inr ⟨error, .nestedFailed same readsInside, isFault⟩
      · exact .inr ⟨error, .failed failed, isFault⟩

end ElementReader

end DocumentCodec
