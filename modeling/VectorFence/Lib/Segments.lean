import Mathlib.Tactic
import Mathlib.Data.List.TakeWhile

/-! A stream of messages that is cut into segments. No message is the beginning of another one, so a
    segment that is a message is the next message of the stream:

        stream      m₀ m₁ m₂ m₃ …
        segments    m₀ m₁ │ s …          s: the first segment that is not a message

    A receiver that takes segments for messages is therefore right up to the first segment that is not
    one, and can tell that it is not. -/

namespace Segments

variable {β : Type*} {Whole : List β → Prop}

/-- No message is the beginning of another one. -/
def PrefixFree (Whole : List β → Prop) : Prop := ∀ a b, Whole a → Whole b → a <+: b → a = b

/-- Two messages at the beginning of one stream are the same. -/
theorem PrefixFree.eq_of_append (h : PrefixFree Whole) {a b s t : List β} (ha : Whole a) (hb : Whole b)
    (hst : a ++ s = b ++ t) : a = b := by
  have hpa : a <+: b ++ t := hst ▸ List.prefix_append a s
  rcases List.prefix_or_prefix_of_prefix hpa (List.prefix_append b t) with hab | hba
  · exact h a b ha hb hab
  · exact (h b a hb ha hba).symm

/-- Up to the first segment that is not a message, the segments are the first messages. -/
theorem PrefixFree.takeWhile_prefix [DecidablePred Whole] (h : PrefixFree Whole) :
    ∀ (segs msgs : List (List β)), (∀ m ∈ msgs, Whole m) → (∀ s ∈ segs, s ≠ []) →
      segs.flatten = msgs.flatten → segs.takeWhile (fun s => decide (Whole s)) <+: msgs
  | [], _, _, _, _ => List.nil_prefix
  | s :: segs, msgs, hmsgs, hsegs, hflat => by
      rw [List.forall_mem_cons] at hsegs
      by_cases hs : Whole s
      · rw [List.takeWhile_cons_of_pos (by simpa using hs)]
        cases msgs with
        | nil =>
          rw [List.flatten_nil, List.flatten_cons] at hflat
          exact absurd (List.append_eq_nil_iff.mp hflat).1 hsegs.1
        | cons m ms =>
          rw [List.forall_mem_cons] at hmsgs
          rw [List.flatten_cons, List.flatten_cons] at hflat
          have hsm : s = m := h.eq_of_append hs hmsgs.1 hflat
          rw [hsm] at hflat ⊢
          have ih := takeWhile_prefix h segs ms hmsgs.2 hsegs.2 (List.append_cancel_left hflat)
          exact List.cons_prefix_cons.mpr ⟨rfl, ih⟩
      · rw [List.takeWhile_cons_of_neg (by simpa using hs)]
        exact List.nil_prefix

/-- When every segment is a message, they are the messages. -/
theorem PrefixFree.eq_of_whole [DecidablePred Whole] (h : PrefixFree Whole) {segs msgs : List (List β)}
    (hmsgs : ∀ m ∈ msgs, Whole m ∧ m ≠ []) (hsegs : ∀ s ∈ segs, Whole s ∧ s ≠ [])
    (hflat : segs.flatten = msgs.flatten) : segs = msgs := by
  have hpre := h.takeWhile_prefix segs msgs (fun m hm => (hmsgs m hm).1)
    (fun s hs => (hsegs s hs).2) hflat
  have hall : segs.takeWhile (fun s => decide (Whole s)) = segs :=
    List.takeWhile_eq_self_iff.mpr fun s hs => by simpa using (hsegs s hs).1
  rw [hall] at hpre
  obtain ⟨rest, rfl⟩ := hpre
  rw [List.flatten_append] at hflat
  -- what is left of the messages has no bytes
  have hrest : rest.flatten = [] := List.append_cancel_left (by rw [← hflat, List.append_nil])
  cases rest with
  | nil => rw [List.append_nil]
  | cons m ms =>
    rw [List.flatten_cons] at hrest
    exact absurd (List.append_eq_nil_iff.mp hrest).1 (hmsgs m (by simp)).2

end Segments
