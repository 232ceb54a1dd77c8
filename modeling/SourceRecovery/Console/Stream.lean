import SourceRecovery.Text.Surrogate

/-!
# Output streams

What is written to the console goes to a stream that encodes it. A stream may have no encoding for
a text, and a run that writes such a text stops. Where no stream is named, every text is taken.
-/

namespace SourceRecovery

/-- A stream for texts, of which it may refuse some, but none that is ASCII. -/
class Stream where
  refuses : String → Bool
  takes_ascii (s : String) : (∀ c ∈ s.toList, c.toNat < 0x80) → refuses s = false

namespace Stream

instance lenient : Stream := ⟨fun _ => false, fun _ _ => rfl⟩

/-- A stream of UTF-8, in which unpaired surrogates have no encoding. -/
@[reducible] def utf8 : Stream where
  refuses s := s.toList.any fun c => (Text.surrogate? c).isSome
  takes_ascii s h := by
    rw [List.any_eq_false]
    intro c hc
    have hsmall := h c hc
    have hnot : ¬(0x10D800 ≤ c.toNat ∧ c.toNat ≤ 0x10DFFF) := by omega
    simp [Text.surrogate?, hnot]

@[simp] theorem lenient_refuses (s : String) : lenient.refuses s = false := rfl

end Stream

end SourceRecovery
