import Mathlib.Order.Basic
import Mathlib.Logic.Function.Basic
import Mathlib.Tactic.SplitIfs

/-!
# Key-value stores whose entries expire

Every entry carries the time from which it is no longer visible. Deleting an
absent key does nothing.
-/

structure ExpiringStore (κ ν : Type*) where
  slot : κ → Option (ν × ℕ)

namespace ExpiringStore
variable {κ ν : Type*}

def empty : ExpiringStore κ ν := ⟨fun _ => none⟩

def get (s : ExpiringStore κ ν) (now : ℕ) (k : κ) : Option ν :=
  match s.slot k with
  | none => none
  | some (v, expiry) => if now < expiry then some v else none

variable [DecidableEq κ]

def set (s : ExpiringStore κ ν) (now : ℕ) (k : κ) (v : ν) (ex : ℕ) : ExpiringStore κ ν :=
  ⟨Function.update s.slot k (some (v, now + ex))⟩

def delete (s : ExpiringStore κ ν) (k : κ) : ExpiringStore κ ν :=
  ⟨Function.update s.slot k none⟩

@[simp] theorem get_set_ne (s : ExpiringStore κ ν) (now t ex : ℕ) {k j : κ} (v : ν) (h : j ≠ k) :
    (s.set now k v ex).get t j = s.get t j := by
  simp [get, set, h]

@[simp] theorem get_delete_self (s : ExpiringStore κ ν) (t : ℕ) (k : κ) :
    (s.delete k).get t k = none := by
  simp [get, delete]

@[simp] theorem get_delete_ne (s : ExpiringStore κ ν) (t : ℕ) {k j : κ} (h : j ≠ k) :
    (s.delete k).get t j = s.get t j := by
  simp [get, delete, h]

theorem get_of_set {s : ExpiringStore κ ν} {now t ex : ℕ} {k : κ} {v w : ν}
    (h : (s.set now k v ex).get t k = some w) : w = v := by
  simp only [get, set, Function.update_self] at h
  split_ifs at h
  exact (Option.some.inj h).symm

omit [DecidableEq κ] in
theorem get_of_later {s : ExpiringStore κ ν} {now t : ℕ} (hle : now ≤ t) {k : κ} {v : ν}
    (h : s.get t k = some v) : s.get now k = some v := by
  unfold get at h ⊢
  split at h
  · cases h
  · split_ifs at h with ht
    rw [if_pos (Nat.lt_of_le_of_lt hle ht)]
    exact h

omit [DecidableEq κ] in
theorem slot_of_get {s : ExpiringStore κ ν} {now : ℕ} {k : κ} {v : ν} (h : s.get now k = some v) :
    ∃ expiry, s.slot k = some (v, expiry) := by
  unfold get at h
  split at h
  · cases h
  · rename_i w expiry hs
    split_ifs at h with ht
    rw [Option.some.injEq] at h
    exact ⟨expiry, by rw [hs, h]⟩

theorem slot_of_delete {s : ExpiringStore κ ν} {k j : κ} {x : ν × ℕ}
    (h : (s.delete k).slot j = some x) : s.slot j = some x := by
  by_cases hj : j = k
  · rw [hj] at h
    simp [delete] at h
  · simpa [delete, hj] using h

theorem slot_of_set {s : ExpiringStore κ ν} {now ex : ℕ} {k j : κ} {v : ν} {x : ν × ℕ}
    (h : (s.set now k v ex).slot j = some x) : j = k ∧ x.1 = v ∨ j ≠ k ∧ s.slot j = some x := by
  by_cases hj : j = k
  · rw [hj] at h
    simp only [set, Function.update_self, Option.some.injEq] at h
    exact .inl ⟨hj, by rw [← h]⟩
  · exact .inr ⟨hj, by simpa [set, hj] using h⟩

theorem slot_set {s : ExpiringStore κ ν} {now ex : ℕ} {k j : κ} {v : ν} {x : ν × ℕ} :
    (s.set now k v ex).slot j = some x ↔
      j ≠ k ∧ s.slot j = some x ∨ j = k ∧ x = (v, now + ex) := by
  by_cases hj : j = k
  · simp [set, hj, eq_comm]
  · simp [set, hj]

omit [DecidableEq κ] in
theorem get_eq_some {s : ExpiringStore κ ν} {now : ℕ} {k : κ} {v : ν} :
    s.get now k = some v ↔ ∃ expiry, s.slot k = some (v, expiry) ∧ now < expiry := by
  unfold get
  cases s.slot k with
  | none => simp
  | some x =>
    constructor
    · intro h
      simp only at h
      split_ifs at h with ht
      cases h
      exact ⟨x.2, rfl, ht⟩
    · rintro ⟨expiry, heq, ht⟩
      cases heq
      exact if_pos ht

end ExpiringStore
