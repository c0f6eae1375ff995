import Nalang.Library.ExpiringStore

/-!
# Stores inside a store

Several programs keep their entries under keys of their own in one store. Each of them sees a
store that the commands of the others leave as it is.
-/

namespace ExpiringStore
variable {α β κ ν : Type*} [DecidableEq κ]

omit [DecidableEq κ] in
theorem ext_slot {s t : ExpiringStore κ ν} (h : ∀ k, s.slot k = t.slot k) : s = t := by
  cases s
  cases t
  exact congrArg _ (funext h)

/-! ### What a command leaves alone -/

def AgreeOff (P : κ → Prop) (s t : ExpiringStore κ ν) : Prop := ∀ k, ¬ P k → t.slot k = s.slot k

section AgreeOff
variable {P Q : κ → Prop} {s t u : ExpiringStore κ ν} {k : κ} {v : ν} {now ex : ℕ}

omit [DecidableEq κ] in
theorem AgreeOff.refl (s : ExpiringStore κ ν) : AgreeOff P s s := fun _ _ => rfl

omit [DecidableEq κ] in
theorem AgreeOff.trans (h : AgreeOff P s t) (h' : AgreeOff P t u) : AgreeOff P s u :=
  fun k hk => (h' k hk).trans (h k hk)

theorem agreeOff_set (h : P k) : AgreeOff P s (s.set now k v ex) := by
  intro j hj
  have hne : j ≠ k := fun heq => hj (heq ▸ h)
  exact Function.update_of_ne hne ..

theorem agreeOff_delete (h : P k) : AgreeOff P s (s.delete k) := by
  intro j hj
  have hne : j ≠ k := fun heq => hj (heq ▸ h)
  exact Function.update_of_ne hne ..

end AgreeOff

/-! ### The entries under some keys -/

section Restrict
variable {P : κ → Prop} [DecidablePred P] {s : ExpiringStore κ ν} {k : κ} {v : ν} {now ex : ℕ}

omit [DecidableEq κ] in
def restrict (s : ExpiringStore κ ν) (P : κ → Prop) [DecidablePred P] : ExpiringStore κ ν :=
  ⟨fun k => if P k then s.slot k else none⟩

omit [DecidableEq κ] in
@[simp] theorem restrict_slot (s : ExpiringStore κ ν) (k : κ) :
    (s.restrict P).slot k = if P k then s.slot k else none := rfl

omit [DecidableEq κ] in
theorem restrict_get (h : P k) : (s.restrict P).get now k = s.get now k := by
  unfold get
  rw [restrict_slot, if_pos h]

omit [DecidableEq κ] in
theorem AgreeOff.restrict_eq {Q : κ → Prop} {t : ExpiringStore κ ν} (h : AgreeOff Q s t)
    (hdisjoint : ∀ k, P k → ¬ Q k) : t.restrict P = s.restrict P := by
  apply ext_slot
  intro j
  rw [restrict_slot, restrict_slot]
  split_ifs with hj
  · exact h j (hdisjoint j hj)
  · rfl

theorem restrict_set (h : P k) :
    (s.set now k v ex).restrict P = (s.restrict P).set now k v ex := by
  apply ext_slot
  intro j
  by_cases hj : j = k
  · subst j
    simp [set, h]
  · simp [set, hj]

theorem restrict_delete : (s.delete k).restrict P = (s.restrict P).delete k := by
  apply ext_slot
  intro j
  by_cases hj : j = k
  · subst j
    simp [delete]
  · simp [delete, hj]

end Restrict

/-! ### Values of another type under keys of another type -/

/-- A way to keep values under keys of one's own, without loss. -/
structure Codec (α β κ ν : Type*) where
  key : α → κ
  dumps : β → ν
  loads : ν → Option β
  key_inj : Function.Injective key
  loads_dumps : ∀ b, loads (dumps b) = some b

namespace Codec
variable [DecidableEq α] {c : Codec α β κ ν} {s : ExpiringStore κ ν} {k : κ} {v : ν} {a : α} {b : β}
  {now ex : ℕ}

omit [DecidableEq κ] [DecidableEq α] in
def view (c : Codec α β κ ν) (s : ExpiringStore κ ν) : ExpiringStore α β :=
  ⟨fun a => (s.slot (c.key a)).bind fun x => (c.loads x.1).map fun b => (b, x.2)⟩

omit [DecidableEq κ] [DecidableEq α] in
@[simp] theorem view_slot (c : Codec α β κ ν) (s : ExpiringStore κ ν) (a : α) :
    (c.view s).slot a =
      (s.slot (c.key a)).bind fun x => (c.loads x.1).map fun b => (b, x.2) := rfl

omit [DecidableEq κ] [DecidableEq α] in
theorem view_get : (c.view s).get now a = (s.get now (c.key a)).bind c.loads := by
  unfold get
  rw [view_slot]
  cases s.slot (c.key a) with
  | none => rfl
  | some x =>
    obtain ⟨v, expiry⟩ := x
    cases hloads : c.loads v <;> by_cases hlive : now < expiry <;> simp [hloads, hlive]

omit [DecidableEq κ] [DecidableEq α] in
theorem AgreeOff.view_eq {P : κ → Prop} {t : ExpiringStore κ ν} (h : AgreeOff P s t)
    (hdisjoint : ∀ a, ¬ P (c.key a)) : c.view t = c.view s := by
  apply ext_slot
  intro a
  rw [view_slot, view_slot, h _ (hdisjoint a)]

theorem view_set :
    c.view (s.set now (c.key a) (c.dumps b) ex) = (c.view s).set now a b ex := by
  apply ext_slot
  intro a'
  by_cases ha : a' = a
  · subst a'
    simp [set, c.loads_dumps]
  · simp [set, ha, c.key_inj.ne ha]

theorem view_delete : c.view (s.delete (c.key a)) = (c.view s).delete a := by
  apply ext_slot
  intro a'
  by_cases ha : a' = a
  · subst a'
    simp [delete]
  · simp [delete, ha, c.key_inj.ne ha]

end Codec

end ExpiringStore
