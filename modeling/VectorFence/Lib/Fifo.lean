import Mathlib.Tactic

/-! Many boxes that give their items out in the order they came. `came` lists what was put into the
    boxes and `went` what came out of them, each item with the key of its box. -/

namespace Fifo

variable {κ α : Type*} [DecidableEq κ]

/-- What goes with `k`, in order. -/
def ofKey (k : κ) (l : List (κ × α)) : List α := (l.filter (·.1 = k)).map Prod.snd

/-- Whatever was put into a box came out of it or is still there. -/
def Flows (came went : List (κ × α)) (box : κ → List α) : Prop :=
  ∀ k, ofKey k came = ofKey k went ++ box k

variable {came went : List (κ × α)} {box next : κ → List α} {k k' : κ} {x : α} {l : List (κ × α)}

theorem ofKey_append (k : κ) (l l' : List (κ × α)) : ofKey k (l ++ l') = ofKey k l ++ ofKey k l' := by
  simp [ofKey]

theorem ofKey_concat_self (k : κ) (x : α) (l : List (κ × α)) :
    ofKey k (l ++ [(k, x)]) = ofKey k l ++ [x] := by
  simp [ofKey]

theorem ofKey_concat_of_ne (h : k' ≠ k) (x : α) (l : List (κ × α)) :
    ofKey k (l ++ [(k', x)]) = ofKey k l := by
  simp [ofKey, h]

theorem flows_nil (h : ∀ k, box k = []) : Flows [] [] box := fun k => by rw [h k]; rfl

theorem Flows.put (h : Flows came went box) (hk : next k = box k ++ [x])
    (hother : ∀ k' ≠ k, next k' = box k') :
    Flows (came ++ [(k, x)]) went next := by
  intro k'
  rcases eq_or_ne k' k with rfl | hne
  · rw [ofKey_concat_self, h, hk, List.append_assoc]
  · rw [ofKey_concat_of_ne hne.symm, h, hother k' hne]

theorem Flows.take (h : Flows came went box) (hk : box k = x :: next k)
    (hother : ∀ k' ≠ k, next k' = box k') :
    Flows came (went ++ [(k, x)]) next := by
  intro k'
  rcases eq_or_ne k' k with rfl | hne
  · rw [ofKey_concat_self, h, hk, List.append_assoc, List.singleton_append]
  · rw [ofKey_concat_of_ne hne.symm, h, hother k' hne]

/-- An item goes through an empty box. -/
theorem Flows.pass (h : Flows came went box) (hk : box k = []) (x : α) :
    Flows (came ++ [(k, x)]) (went ++ [(k, x)]) box := by
  intro k'
  rcases eq_or_ne k' k with rfl | hne
  · rw [ofKey_concat_self, ofKey_concat_self, h, hk, List.append_nil, List.append_nil]
  · rw [ofKey_concat_of_ne hne.symm, ofKey_concat_of_ne hne.symm, h]

theorem Flows.congr (h : Flows came went box) (hbox : ∀ k, next k = box k) : Flows came went next :=
  fun k => (hbox k).symm ▸ h k

end Fifo
