import Mathlib.Data.List.Range

/-!
# Numbered logs of replacements

A value is replaced again and again, and every replacement is logged with a number, the value it found
and the value it left. `Relay.current` is the value in place after a log, `Relay` says that the entries
are numbered from one and that each found what the one before it left, and `Relay.snoc` is the rule for
a writer that takes number and value from the last entry.
-/

variable {α β : Type*}

/-- The value in place after the log. -/
def Relay.current (left : α → β) (start : β) (log : List α) : β :=
  (log.getLast?.map left).getD start

/-- The entries are numbered from one, and each found what was in place before it. -/
structure Relay (number : α → Nat) (found left : α → β) (start : β) (log : List α) : Prop where
  numbered : log.map number = List.range' 1 log.length
  found : ∀ i x, log[i]? = some x → found x = Relay.current left start (log.take i)

namespace Relay

variable {number : α → Nat} {found left : α → β} {start : β} {log : List α} {x : α}

@[simp] theorem current_snoc : current left start (log ++ [x]) = left x := by
  simp [current]

theorem nil : Relay number found left start [] where
  numbered := rfl
  found i x h := by simp at h

/-- The number of the last entry is the length of the log. -/
theorem last_number (h : Relay number found left start log) :
    (log.getLast?.map number).getD 0 = log.length := by
  rw [← List.getLast?_map, h.numbered]
  cases log with
  | nil => rfl
  | cons x log => simp [List.getLast?_range']

theorem snoc (h : Relay number found left start log)
    (hnumber : number x = (log.getLast?.map number).getD 0 + 1)
    (hfound : found x = current left start log) :
    Relay number found left start (log ++ [x]) where
  numbered := by
    rw [h.last_number] at hnumber
    simp [h.numbered, hnumber, List.range'_concat, Nat.add_comm]
  found := by
    intro i y hy
    rcases Nat.lt_trichotomy i log.length with hlt | rfl | hgt
    · rw [List.getElem?_append_left hlt] at hy
      rw [List.take_append_of_le_length hlt.le]
      exact h.found i y hy
    · obtain rfl : x = y := by simpa using hy
      simpa using hfound
    · rw [List.getElem?_eq_none (by simp; omega)] at hy
      cases hy

end Relay
