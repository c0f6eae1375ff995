import Mathlib.Data.Nat.Notation
import Mathlib.Data.List.DropRight
import Nalang.Python.IntLiteral

/-!
# Methods of strings

`lower` is given on the characters of Latin-1, which are those of a header.
-/

namespace Python

/-- `str.isspace`. The separators that `int` does not strip count here. -/
def isspace (c : Char) : Bool := isSpace c || (0x1C ≤ c.toNat && c.toNat ≤ 0x1F)

def strStrip (cs : List Char) : List Char := (cs.dropWhile isspace).rdropWhile isspace

def lowerChar (c : Char) : Char :=
  let n := c.toNat
  if (0x41 ≤ n ∧ n ≤ 0x5A) ∨ (0xC0 ≤ n ∧ n ≤ 0xDE ∧ n ≠ 0xD7) then Char.ofNat (n + 32) else c

def lower (cs : List Char) : List Char := cs.map lowerChar

def splitHead (sep : Char) (cs : List Char) : List Char := cs.takeWhile fun c => c ≠ sep

section
variable {cs before after : List Char} {c : Char}

theorem mem_strStrip (h : c ∈ cs) (hc : isspace c = false) : c ∈ strStrip cs := by
  have hleft : ∀ ds : List Char, c ∈ ds → c ∈ ds.dropWhile isspace := by
    intro ds hds
    rw [← List.takeWhile_append_dropWhile (p := isspace) (l := ds)] at hds
    rcases List.mem_append.mp hds with hds | hds
    · rw [List.mem_takeWhile_imp hds] at hc
      cases hc
    · exact hds
  unfold strStrip List.rdropWhile
  rw [List.mem_reverse]
  exact hleft _ (List.mem_reverse.mpr (hleft cs h))

theorem strStrip_padded (hbefore : ∀ c ∈ before, isspace c = true)
    (hafter : ∀ c ∈ after, isspace c = true) (hcs : ∀ c ∈ cs, isspace c = false) (hne : cs ≠ []) :
    strStrip (before ++ cs ++ after) = cs := by
  have hkeep : ∀ ds es : List Char, ds ≠ [] → (∀ c ∈ ds, isspace c = false) →
      (ds ++ es).dropWhile isspace = ds ++ es := by
    intro ds es hne hds
    cases ds with
    | nil => exact absurd rfl hne
    | cons d ds => simp [hds d (List.mem_cons_self ..)]
  have hrest : (before ++ cs ++ after).dropWhile isspace = cs ++ after := by
    rw [List.append_assoc, List.dropWhile_append_of_pos hbefore, hkeep cs after hne hcs]
  have hword : cs.reverse.dropWhile isspace = cs.reverse := by
    rw [← List.append_nil cs.reverse]
    exact hkeep cs.reverse [] (by simpa using hne) fun c hc => hcs c (List.mem_reverse.mp hc)
  unfold strStrip List.rdropWhile
  rw [hrest, List.reverse_append, List.dropWhile_append_of_pos fun c hc => hafter c
    (List.mem_reverse.mp hc), hword, List.reverse_reverse]

theorem splitHead_of_not_mem {sep : Char} (h : sep ∉ cs) : splitHead sep cs = cs := by
  refine List.takeWhile_eq_self_iff.mpr fun c hc => ?_
  have hne : c ≠ sep := fun heq => h (heq ▸ hc)
  simpa using hne

theorem splitHead_append_sep {sep : Char} (h : sep ∉ cs) (rest : List Char) :
    splitHead sep (cs ++ sep :: rest) = cs := by
  unfold splitHead
  rw [List.takeWhile_append_of_pos]
  · simp
  · intro c hc
    have hne : c ≠ sep := fun heq => h (heq ▸ hc)
    simpa using hne

end

end Python
