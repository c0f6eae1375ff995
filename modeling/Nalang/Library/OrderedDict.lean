import Mathlib.Data.List.Nodup
import Mathlib.Data.List.Perm.Basic
import Mathlib.Logic.Function.Basic

/-!
# Dictionaries that remember insertion order

A dictionary is a list of entries with distinct keys. Writing to a key that is
present keeps its place, writing to a new key appends. `version` counts the
insertions and removals of keys; an iterator that is still in use when the
count has changed no longer has a determined behaviour.
-/

structure OrderedDict (κ ν : Type*) where
  entries : List (κ × ν)
  nodup : (entries.map Prod.fst).Nodup
  version : ℕ

namespace OrderedDict
variable {κ ν : Type*}

def keys (d : OrderedDict κ ν) : List κ := d.entries.map Prod.fst

instance : Membership κ (OrderedDict κ ν) := ⟨fun d k => k ∈ d.keys⟩

theorem mem_def {d : OrderedDict κ ν} {k : κ} : k ∈ d ↔ k ∈ d.keys := Iff.rfl

theorem mem_iff_exists {d : OrderedDict κ ν} {k : κ} : k ∈ d ↔ ∃ v, (k, v) ∈ d.entries := by
  simp [mem_def, keys]

def empty : OrderedDict κ ν := ⟨[], List.nodup_nil, 0⟩

@[simp] theorem not_mem_empty (k : κ) : ¬ k ∈ (empty : OrderedDict κ ν) := by
  simp [mem_def, keys, empty]

variable [DecidableEq κ]

instance (d : OrderedDict κ ν) (k : κ) : Decidable (k ∈ d) :=
  inferInstanceAs (Decidable (k ∈ d.keys))

def get? (d : OrderedDict κ ν) (k : κ) : Option ν :=
  (d.entries.find? (fun e => e.1 = k)).map Prod.snd

def writeEntry (k : κ) (v : ν) (e : κ × ν) : κ × ν := if e.1 = k then (k, v) else e

theorem writeEntry_fst (k : κ) (v : ν) (e : κ × ν) : (writeEntry k v e).1 = e.1 := by
  unfold writeEntry
  split_ifs with h
  · exact h.symm
  · rfl

theorem map_writeEntry_fst (k : κ) (v : ν) (es : List (κ × ν)) :
    (es.map (writeEntry k v)).map Prod.fst = es.map Prod.fst := by
  simp [List.map_map, Function.comp_def, writeEntry_fst]

def set (d : OrderedDict κ ν) (k : κ) (v : ν) : OrderedDict κ ν :=
  if h : k ∈ d.keys then
    ⟨d.entries.map (writeEntry k v), by rw [map_writeEntry_fst]; exact d.nodup, d.version⟩
  else
    ⟨d.entries ++ [(k, v)], by
      simpa [List.nodup_append, keys] using
        ⟨d.nodup, fun _ b hb e => h (e ▸ List.mem_map_of_mem hb)⟩,
      d.version + 1⟩

def erase (d : OrderedDict κ ν) (k : κ) : OrderedDict κ ν :=
  ⟨d.entries.filter (fun e => e.1 ≠ k),
    d.nodup.sublist (List.filter_sublist.map Prod.fst),
    if k ∈ d.keys then d.version + 1 else d.version⟩

theorem find?_key_eq_some {es : List (κ × ν)} (hn : (es.map Prod.fst).Nodup) {k : κ} {e : κ × ν} :
    es.find? (fun e => e.1 = k) = some e ↔ e ∈ es ∧ e.1 = k := by
  induction es with
  | nil => simp
  | cons a es ih =>
    obtain ⟨ha, hn⟩ := List.nodup_cons.mp hn
    by_cases h : a.1 = k
    · subst h
      simp only [List.find?_cons, decide_true, Option.some.injEq, List.mem_cons]
      constructor
      · intro hx
        obtain rfl := hx
        exact ⟨.inl rfl, rfl⟩
      · intro hx
        obtain ⟨rfl | he, hk⟩ := hx
        · rfl
        · exact absurd (List.mem_map.mpr ⟨e, he, hk⟩) ha
    · rw [List.find?_cons_of_neg (by simpa using h), ih hn, List.mem_cons]
      constructor
      · intro hx
        obtain ⟨he, hk⟩ := hx
        exact ⟨.inr he, hk⟩
      · intro hx
        obtain ⟨rfl | he, hk⟩ := hx
        · exact absurd hk h
        · exact ⟨he, hk⟩

theorem get?_eq_some {d : OrderedDict κ ν} {k : κ} {v : ν} :
    d.get? k = some v ↔ (k, v) ∈ d.entries := by
  simp only [get?, Option.map_eq_some_iff]
  constructor
  · intro hx
    obtain ⟨e, he, rfl⟩ := hx
    obtain ⟨hm, rfl⟩ := (find?_key_eq_some d.nodup).mp he
    exact hm
  · intro he
    exact ⟨(k, v), (find?_key_eq_some d.nodup).mpr ⟨he, rfl⟩, rfl⟩

theorem get?_eq_none {d : OrderedDict κ ν} {k : κ} : d.get? k = none ↔ ¬ k ∈ d := by
  rw [Option.eq_none_iff_forall_ne_some, mem_iff_exists]
  simp only [ne_eq, get?_eq_some, not_exists]

theorem get?_isSome {d : OrderedDict κ ν} {k : κ} (h : k ∈ d) : ∃ v, d.get? k = some v := by
  obtain ⟨v, hv⟩ := mem_iff_exists.mp h
  exact ⟨v, get?_eq_some.mpr hv⟩

theorem mem_of_get? {d : OrderedDict κ ν} {k : κ} {v : ν} (h : d.get? k = some v) : k ∈ d :=
  mem_iff_exists.mpr ⟨v, get?_eq_some.mp h⟩

theorem entries_erase (d : OrderedDict κ ν) (k : κ) :
    (d.erase k).entries = d.entries.filter (fun e => e.1 ≠ k) := rfl

theorem mem_entries_erase {d : OrderedDict κ ν} {k : κ} {e : κ × ν} :
    e ∈ (d.erase k).entries ↔ e ∈ d.entries ∧ e.1 ≠ k := by
  simp [entries_erase]

@[simp] theorem mem_erase {d : OrderedDict κ ν} {k j : κ} : j ∈ d.erase k ↔ j ≠ k ∧ j ∈ d := by
  simp only [mem_iff_exists, mem_entries_erase]
  constructor
  · intro hx
    obtain ⟨v, hv, hj⟩ := hx
    exact ⟨hj, v, hv⟩
  · intro hx
    obtain ⟨hj, v, hv⟩ := hx
    exact ⟨v, hv, hj⟩

theorem entries_erase_of_not_mem {d : OrderedDict κ ν} {k : κ} (h : ¬ k ∈ d) :
    (d.erase k).entries = d.entries := by
  rw [entries_erase, List.filter_eq_self]
  intro e he
  have hne : e.1 ≠ k := fun hk => h (mem_iff_exists.mpr ⟨e.2, by rw [← hk]; exact he⟩)
  simpa using hne

@[simp] theorem get?_erase_self (d : OrderedDict κ ν) (k : κ) : (d.erase k).get? k = none := by
  simp [get?_eq_none]

theorem get?_erase_ne (d : OrderedDict κ ν) {k j : κ} (h : j ≠ k) :
    (d.erase k).get? j = d.get? j := by
  ext v
  rw [get?_eq_some, get?_eq_some, mem_entries_erase]
  exact and_iff_left h

theorem entries_set_of_mem {d : OrderedDict κ ν} {k : κ} (h : k ∈ d) (v : ν) :
    (d.set k v).entries = d.entries.map (writeEntry k v) := by
  rw [set, dif_pos (mem_def.mp h)]

theorem entries_set_of_not_mem {d : OrderedDict κ ν} {k : κ} (h : ¬ k ∈ d) (v : ν) :
    (d.set k v).entries = d.entries ++ [(k, v)] := by
  rw [set, dif_neg (fun hk => h (mem_def.mpr hk))]

theorem mem_entries_set {d : OrderedDict κ ν} {k : κ} {v : ν} {e : κ × ν} :
    e ∈ (d.set k v).entries ↔ e = (k, v) ∨ (e ∈ d.entries ∧ e.1 ≠ k) := by
  by_cases h : k ∈ d
  · rw [entries_set_of_mem h, List.mem_map]
    constructor
    · intro hx
      obtain ⟨a, ha, rfl⟩ := hx
      by_cases hk : a.1 = k
      · exact .inl (if_pos hk)
      · exact .inr (by rw [writeEntry, if_neg hk]; exact ⟨ha, hk⟩)
    · intro hx
      obtain rfl | ⟨he, hk⟩ := hx
      · obtain ⟨w, hw⟩ := mem_iff_exists.mp h
        exact ⟨(k, w), hw, if_pos rfl⟩
      · exact ⟨e, he, if_neg hk⟩
  · rw [entries_set_of_not_mem h, List.mem_append, List.mem_singleton]
    constructor
    · intro hx
      obtain he | rfl := hx
      · exact .inr ⟨he, fun hk => h (mem_iff_exists.mpr ⟨e.2, by rw [← hk]; exact he⟩)⟩
      · exact .inl rfl
    · intro hx
      obtain rfl | ⟨he, _⟩ := hx
      · exact .inr rfl
      · exact .inl he

@[simp] theorem mem_set {d : OrderedDict κ ν} {k j : κ} {v : ν} :
    j ∈ d.set k v ↔ j = k ∨ j ∈ d := by
  simp only [mem_iff_exists, mem_entries_set, Prod.mk.injEq]
  constructor
  · intro hx
    obtain ⟨w, ⟨rfl, rfl⟩ | ⟨hw, _⟩⟩ := hx
    · exact .inl rfl
    · exact .inr ⟨w, hw⟩
  · intro hx
    obtain rfl | ⟨w, hw⟩ := hx
    · exact ⟨v, .inl ⟨rfl, rfl⟩⟩
    · by_cases hj : j = k
      · exact ⟨v, .inl ⟨hj, rfl⟩⟩
      · exact ⟨w, .inr ⟨hw, hj⟩⟩

@[simp] theorem get?_set_self (d : OrderedDict κ ν) (k : κ) (v : ν) :
    (d.set k v).get? k = some v :=
  get?_eq_some.mpr (mem_entries_set.mpr (.inl rfl))

theorem get?_set_ne (d : OrderedDict κ ν) {k j : κ} (v : ν) (h : j ≠ k) :
    (d.set k v).get? j = d.get? j := by
  ext w
  rw [get?_eq_some, get?_eq_some, mem_entries_set]
  simp [h]

theorem set_of_get? {d : OrderedDict κ ν} {k : κ} {v : ν} (h : d.get? k = some v) :
    d.set k v = d := by
  have hmem := get?_eq_some.mp h
  have hes : d.entries.map (writeEntry k v) = d.entries := by
    rw [List.map_congr_left (g := id) fun e he => ?_, List.map_id]
    by_cases hk : e.1 = k
    · exact (if_pos hk).trans (List.inj_on_of_nodup_map d.nodup hmem he hk.symm)
    · exact if_neg hk
  unfold set
  split_ifs with hk
  · cases d
    simp only [mk.injEq]
    exact ⟨hes, trivial⟩
  · exact absurd (mem_of_get? h) hk

theorem entries_perm_cons_erase {d : OrderedDict κ ν} {k : κ} {v : ν} (h : (k, v) ∈ d.entries) :
    d.entries.Perm ((k, v) :: (d.erase k).entries) := by
  have hn : d.entries.Nodup := d.nodup.of_map
  refine (List.perm_ext_iff_of_nodup hn (List.nodup_cons.mpr ⟨?_, hn.filter _⟩)).mpr fun e => ?_
  · simp
  · rw [List.mem_cons, ← entries_erase, mem_entries_erase]
    constructor
    · intro he
      by_cases hk : e.1 = k
      · exact .inl (List.inj_on_of_nodup_map d.nodup he h hk)
      · exact .inr ⟨he, hk⟩
    · intro hx
      obtain rfl | ⟨he, _⟩ := hx
      · exact h
      · exact he

theorem entries_set_perm (d : OrderedDict κ ν) (k : κ) (v : ν) :
    (d.set k v).entries.Perm ((k, v) :: (d.erase k).entries) := by
  have hp := entries_perm_cons_erase (get?_eq_some.mp (get?_set_self d k v))
  have he : ((d.set k v).erase k).entries.Perm (d.erase k).entries := by
    refine (List.perm_ext_iff_of_nodup ((d.set k v).erase k).nodup.of_map
      (d.erase k).nodup.of_map).mpr fun e => ?_
    rw [mem_entries_erase, mem_entries_set, mem_entries_erase]
    constructor
    · intro hx
      obtain ⟨rfl | he, hk⟩ := hx
      · exact absurd rfl hk
      · exact he
    · intro he
      exact ⟨.inr he, he.2⟩
  exact hp.trans (he.cons _)

theorem get?_set (d : OrderedDict κ ν) (k : κ) (v : ν) :
    (d.set k v).get? = Function.update d.get? k (some v) := by
  funext j
  by_cases h : j = k
  · rw [h, get?_set_self, Function.update_self]
  · rw [get?_set_ne d v h, Function.update_of_ne h]

theorem get?_set_eq_some {d : OrderedDict κ ν} {k j : κ} {v w : ν} :
    (d.set k v).get? j = some w ↔ (j = k ∧ w = v) ∨ (j ≠ k ∧ d.get? j = some w) := by
  by_cases h : j = k
  · rw [h, get?_set_self, Option.some.injEq]
    simp [eq_comm]
  · rw [get?_set_ne d v h]
    simp [h]

/-! ### Versions -/

/-- The one dictionary comes from the other by writes and removals: as long as the version is the
same, so are the keys. -/
structure Follows (d' d : OrderedDict κ ν) : Prop where
  version_le : d.version ≤ d'.version
  keys_eq : d'.version = d.version → d'.keys = d.keys

omit [DecidableEq κ] in
theorem Follows.refl (d : OrderedDict κ ν) : d.Follows d := ⟨Nat.le_refl _, fun _ => rfl⟩

omit [DecidableEq κ] in
theorem Follows.trans {d₁ d₂ d₃ : OrderedDict κ ν} (h : d₃.Follows d₂) (h' : d₂.Follows d₁) :
    d₃.Follows d₁ := by
  refine ⟨Nat.le_trans h'.version_le h.version_le, fun he => ?_⟩
  have hle := h.version_le
  have hle' := h'.version_le
  rw [h.keys_eq (by omega), h'.keys_eq (by omega)]

theorem follows_set (d : OrderedDict κ ν) (k : κ) (v : ν) : (d.set k v).Follows d := by
  unfold set
  split_ifs with h
  · exact ⟨Nat.le_refl _, fun _ => map_writeEntry_fst k v d.entries⟩
  · exact ⟨Nat.le_succ _, fun he => absurd he (Nat.succ_ne_self _)⟩

theorem follows_erase (d : OrderedDict κ ν) (k : κ) : (d.erase k).Follows d := by
  by_cases h : k ∈ d.keys
  · have hv : (d.erase k).version = d.version + 1 := if_pos h
    exact ⟨by omega, fun he => by omega⟩
  · have hv : (d.erase k).version = d.version := if_neg h
    refine ⟨by omega, fun _ => ?_⟩
    rw [keys, entries_erase_of_not_mem (fun hk => h (mem_def.mp hk)), keys]

/-! ### Changing the values -/

section MapValues
variable {μ : Type*}

omit [DecidableEq κ]

def mapValues (f : ν → μ) (d : OrderedDict κ ν) : OrderedDict κ μ :=
  ⟨d.entries.map fun e => (e.1, f e.2), by simpa [List.map_map, Function.comp_def] using d.nodup,
    d.version⟩

theorem keys_mapValues (f : ν → μ) (d : OrderedDict κ ν) : (d.mapValues f).keys = d.keys := by
  simp [keys, mapValues, List.map_map, Function.comp_def]

@[simp] theorem mem_mapValues {f : ν → μ} {d : OrderedDict κ ν} {k : κ} :
    k ∈ d.mapValues f ↔ k ∈ d := by
  rw [mem_def, mem_def, keys_mapValues]

variable [DecidableEq κ]

theorem get?_mapValues (f : ν → μ) (d : OrderedDict κ ν) (k : κ) :
    (d.mapValues f).get? k = (d.get? k).map f := by
  simp [get?, mapValues, List.find?_map, Function.comp_def]

theorem set_mapValues (f : ν → μ) (d : OrderedDict κ ν) (k : κ) (v : ν) :
    (d.mapValues f).set k (f v) = (d.set k v).mapValues f := by
  have hwrite : ∀ e : κ × ν,
      writeEntry k (f v) (e.1, f e.2) = ((writeEntry k v e).1, f (writeEntry k v e).2) := by
    intro e
    unfold writeEntry
    split_ifs <;> rfl
  have hkeys := keys_mapValues f d
  unfold set
  split_ifs with h h' h'
  · simp [mapValues, List.map_map, Function.comp_def, hwrite]
  · exact absurd (hkeys ▸ h) h'
  · exact absurd (hkeys ▸ h') h
  · simp [mapValues]

end MapValues

/-! ### Removing several keys -/

def restrict (d : OrderedDict κ ν) (p : κ → Prop) [DecidablePred p] : OrderedDict κ ν :=
  ⟨d.entries.filter (fun e => p e.1), d.nodup.sublist (List.filter_sublist.map Prod.fst), d.version⟩

theorem get?_restrict (d : OrderedDict κ ν) {p : κ → Prop} [DecidablePred p] {k : κ} (h : p k) :
    (d.restrict p).get? k = d.get? k := by
  ext v
  rw [get?_eq_some, get?_eq_some]
  simp [restrict, h]

def eraseAll (d : OrderedDict κ ν) (ks : List κ) : OrderedDict κ ν := ks.foldl erase d

theorem follows_eraseAll (d : OrderedDict κ ν) (ks : List κ) : (d.eraseAll ks).Follows d := by
  induction ks generalizing d with
  | nil => exact Follows.refl d
  | cons k ks ih => exact (ih (d.erase k)).trans (follows_erase d k)

theorem mem_entries_eraseAll {d : OrderedDict κ ν} {ks : List κ} {e : κ × ν} :
    e ∈ (d.eraseAll ks).entries ↔ e ∈ d.entries ∧ e.1 ∉ ks := by
  induction ks generalizing d with
  | nil => simp [eraseAll]
  | cons k ks ih =>
    have h := ih (d := d.erase k)
    simp only [eraseAll, List.foldl_cons] at h ⊢
    rw [h, mem_entries_erase, List.mem_cons, not_or, and_assoc]

theorem entries_eraseAll (d : OrderedDict κ ν) (ks : List κ) :
    (d.eraseAll ks).entries = d.entries.filter (fun e => e.1 ∉ ks) := by
  induction ks generalizing d with
  | nil => simp [eraseAll]
  | cons k ks ih =>
    have h := ih (d.erase k)
    simp only [eraseAll, List.foldl_cons] at h ⊢
    rw [h, entries_erase, List.filter_filter]
    refine List.filter_congr fun e _ => ?_
    simp only [List.mem_cons, not_or, Bool.decide_and, ne_eq, Bool.and_comm]

/-! ### Iterators over a live dictionary -/

/-- An iterator remembers the version and the size it started from and the keys to come. -/
structure Cursor (κ : Type*) where
  version : ℕ
  size : ℕ
  rest : List κ

/-- What an iterator does once keys were exchanged without changing their number: the keys it still
visits and whether it then raises. -/
structure Drift (κ : Type*) where
  keys : List κ
  fails : Bool

def cursor (d : OrderedDict κ ν) : Cursor κ := ⟨d.version, d.entries.length, d.keys⟩

/-- The keys an iterator still visits, and whether it raises after them. -/
def Cursor.ahead (c : Cursor κ) (d : OrderedDict κ ν) (drift : Drift κ) : List κ × Bool :=
  if d.version = c.version then (c.rest, false)
  else if d.entries.length = c.size then (drift.keys, drift.fails)
  else ([], true)

omit [DecidableEq κ] in
theorem Cursor.ahead_of_version {c : Cursor κ} {d : OrderedDict κ ν} (drift : Drift κ)
    (h : d.version = c.version) : c.ahead d drift = (c.rest, false) := if_pos h

end OrderedDict
