import Mathlib.Algebra.Order.Field.Rat
import Mathlib.Data.List.MinMax
import Mathlib.Tactic.Linarith

/-!
# The header Accept-Language

A list of language ranges with their weights, as it is written and what it asks
for. The primary subtag of a range says which language it is, the subtags after it
only narrow it.
-/

namespace AcceptLanguage

def Blank (c : Char) : Prop := c = ' ' ∨ c = '\t'

/-- A number of `0` to `1`, with decimals. -/
structure QValue where
  one : Bool
  decimals : Option (List (Fin 10))
  le_one : one = true → ∀ d ∈ decimals.getD [], d = 0

namespace QValue

def digit (d : Fin 10) : Char := Char.ofNat ('0'.toNat + d)

def text (q : QValue) : List Char :=
  (if q.one then '1' else '0') :: q.decimals.elim [] fun ds => '.' :: ds.map digit

def fraction : List (Fin 10) → ℚ
  | [] => 0
  | d :: ds => (d.val + fraction ds) / 10

def value (q : QValue) : ℚ := (if q.one then 1 else 0) + fraction (q.decimals.getD [])

end QValue

structure Weight where
  before : List Char
  after : List Char
  name : Char
  value : QValue
  blank : ∀ c ∈ before ++ after, Blank c
  name_q : name = 'q' ∨ name = 'Q'

def Weight.text (w : Weight) : List Char :=
  w.before ++ ';' :: (w.after ++ w.name :: '=' :: w.value.text)

structure LanguageRange where
  before : List Char
  primary : List Char
  subtags : List (List Char)
  weight : Option Weight
  after : List Char
  blank : ∀ c ∈ before ++ after, Blank c
  nonempty : primary ≠ []
  letters : primary = ['*'] ∨ ∀ c ∈ primary, c.isAlpha = true
  alphanum : ∀ tag ∈ subtags, ∀ c ∈ tag, c.isAlphanum = true

namespace LanguageRange

def suffix (r : LanguageRange) : List Char := r.subtags.flatMap fun tag => '-' :: tag

def text (r : LanguageRange) : List Char :=
  r.before ++ (r.primary ++ r.suffix ++ r.weight.elim [] Weight.text) ++ r.after

def quality (r : LanguageRange) : ℚ := r.weight.elim 1 fun w => w.value.value

def Bare (r : LanguageRange) : Prop := r.subtags = [] ∧ r.weight = none

instance (r : LanguageRange) : Decidable r.Bare := inferInstanceAs (Decidable (_ ∧ _))

end LanguageRange

def text : List LanguageRange → List Char
  | [] => []
  | [r] => r.text
  | r :: rs => r.text ++ ',' :: text rs

/-- The first of the known ranges with the highest weight. -/
def preferred {α : Type*} (known : List Char → Option α) (ranges : List LanguageRange) : Option α :=
  ((ranges.filter fun r => (known r.primary).isSome).argmax LanguageRange.quality).bind
    fun r => known r.primary

/-! ### Where a range ends -/

section Commas

theorem comma_not_mem_blank {cs : List Char} (h : ∀ c ∈ cs, Blank c) : ',' ∉ cs := by
  intro hin
  rcases h ',' hin with h | h <;> cases h

theorem comma_not_mem_qvalue (q : QValue) : ',' ∉ q.text := by
  have hdigit : ∀ d : Fin 10, QValue.digit d ≠ ',' := by decide
  have hfirst : ',' ≠ (if q.one then '1' else '0') := by split_ifs <;> decide
  unfold QValue.text
  rw [List.mem_cons, not_or]
  refine ⟨hfirst, ?_⟩
  cases q.decimals with
  | none => exact List.not_mem_nil
  | some ds =>
    intro hin
    rcases List.mem_cons.mp hin with h | h
    · cases h
    · obtain ⟨d, -, hd⟩ := List.mem_map.mp h
      exact hdigit d hd

theorem comma_not_mem_weight (w : Weight) : ',' ∉ w.text := by
  have hblank : ∀ c ∈ w.before, Blank c := fun c hc => w.blank c (List.mem_append_left _ hc)
  have hblank' : ∀ c ∈ w.after, Blank c := fun c hc => w.blank c (List.mem_append_right _ hc)
  have hname : ',' ≠ w.name := by
    rcases w.name_q with h | h <;> rw [h] <;> decide
  simp only [Weight.text, List.mem_append, List.mem_cons, not_or]
  exact ⟨comma_not_mem_blank hblank, by decide, comma_not_mem_blank hblank', hname, by decide,
    comma_not_mem_qvalue w.value⟩

theorem comma_not_mem_primary (r : LanguageRange) : ',' ∉ r.primary := by
  intro hin
  rcases r.letters with h | h
  · rw [h] at hin
    cases List.mem_singleton.mp hin
  · exact absurd (h ',' hin) (by decide)

theorem comma_not_mem_suffix (r : LanguageRange) : ',' ∉ r.suffix := by
  intro hin
  obtain ⟨tag, htag, hin⟩ := List.mem_flatMap.mp hin
  rcases List.mem_cons.mp hin with h | h
  · cases h
  · exact absurd (r.alphanum tag htag ',' h) (by decide)

theorem comma_not_mem_text (r : LanguageRange) : ',' ∉ r.text := by
  have hblank : ∀ c ∈ r.before, Blank c := fun c hc => r.blank c (List.mem_append_left _ hc)
  have hblank' : ∀ c ∈ r.after, Blank c := fun c hc => r.blank c (List.mem_append_right _ hc)
  have hweight : ',' ∉ r.weight.elim [] Weight.text := by
    cases r.weight with
    | none => exact List.not_mem_nil
    | some w => exact comma_not_mem_weight w
  simp only [LanguageRange.text, List.mem_append, not_or]
  exact ⟨⟨comma_not_mem_blank hblank, ⟨comma_not_mem_primary r, comma_not_mem_suffix r⟩, hweight⟩,
    comma_not_mem_blank hblank'⟩

theorem text_cons (r : LanguageRange) (rs : List LanguageRange) :
    text (r :: rs) = r.text ∨ ∃ rest, text (r :: rs) = r.text ++ ',' :: rest := by
  cases rs with
  | nil => exact .inl rfl
  | cons r' rs => exact .inr ⟨_, rfl⟩

end Commas

/-! ### Parts of a range -/

section Parts
variable {r : LanguageRange}

theorem text_of_bare (h : r.Bare) : r.text = r.before ++ r.primary ++ r.after := by
  simp [LanguageRange.text, LanguageRange.suffix, h.1, h.2]

theorem mark_of_not_bare (h : ¬ r.Bare) : '-' ∈ r.text ∨ ';' ∈ r.text := by
  rcases not_and_or.mp h with h | h
  · left
    obtain ⟨tag, tags, htags⟩ := List.exists_cons_of_ne_nil h
    simp [LanguageRange.text, LanguageRange.suffix, htags]
  · right
    obtain ⟨w, hw⟩ := Option.ne_none_iff_exists'.mp h
    simp [LanguageRange.text, Weight.text, hw]

end Parts

/-! ### Weights -/

section Weights
variable {α : Type*} {known : List Char → Option α} {r : LanguageRange} {rs : List LanguageRange}

theorem fraction_bounds (ds : List (Fin 10)) :
    0 ≤ QValue.fraction ds ∧ QValue.fraction ds ≤ 1 := by
  induction ds with
  | nil => simp [QValue.fraction]
  | cons d ds ih =>
    have hd : (d.val : ℚ) ≤ 9 := by exact_mod_cast Nat.le_of_lt_succ d.isLt
    have hd' : (0 : ℚ) ≤ d.val := by exact_mod_cast Nat.zero_le d.val
    rw [QValue.fraction]
    constructor
    · exact div_nonneg (add_nonneg hd' ih.1) (by norm_num)
    · rw [div_le_iff₀ (by norm_num)]
      linarith [ih.2]

theorem fraction_zeros {ds : List (Fin 10)} (h : ∀ d ∈ ds, d = 0) : QValue.fraction ds = 0 := by
  induction ds with
  | nil => rfl
  | cons d ds ih =>
    obtain ⟨hd, hds⟩ := List.forall_mem_cons.mp h
    simp [QValue.fraction, hd, ih hds]

theorem value_le_one (q : QValue) : q.value ≤ 1 := by
  unfold QValue.value
  cases hone : q.one with
  | false => simpa using (fraction_bounds _).2
  | true => simp [fraction_zeros (q.le_one hone)]

theorem quality_le_one (r : LanguageRange) : r.quality ≤ 1 := by
  unfold LanguageRange.quality
  cases r.weight with
  | none => exact le_refl 1
  | some w => exact value_le_one w.value

theorem preferred_of_first (hknown : (known r.primary).isSome) (hweight : r.weight = none) :
    preferred known (r :: rs) = known r.primary := by
  have hquality : r.quality = 1 := by simp [LanguageRange.quality, hweight]
  have hfilter : (r :: rs).filter (fun r => (known r.primary).isSome) =
      r :: rs.filter fun r => (known r.primary).isSome := List.filter_cons_of_pos hknown
  unfold preferred
  rw [hfilter, List.argmax_cons]
  cases (rs.filter fun r => (known r.primary).isSome).argmax LanguageRange.quality with
  | none => rfl
  | some r' =>
    have hnot : ¬ r.quality < r'.quality := by
      rw [hquality, not_lt]
      exact quality_le_one r'
    simp [hnot]

end Weights

end AcceptLanguage
