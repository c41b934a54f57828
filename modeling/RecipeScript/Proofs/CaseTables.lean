import RecipeScript.Text.Blank
import RecipeScript.Text.Lowercase

/-!
# What the case tables rule out

Every fact about lowercasing that holds for all of Unicode comes down to ranges that do not meet.
Blanks are no letters, are never passed over, and neither become nor come from a small letter of
another kind; and of all capitals outside ASCII exactly one, U+212A, has a small letter inside it.
What a run leads to is no capital of any run, so lowercasing a second time finds nothing to do.

The tables are compared range by range here, once. `lowercaseChar_cases` then says everything that
can become of a character, and what follows is read off from it.
-/

namespace RecipeScript

/-! ## Sets that do not meet -/

/-- Whether no range of one set meets a range of the other. -/
def CharSet.isApart (s t : CharSet) : Bool :=
  s.ranges.all fun r => t.ranges.all fun q => r.2 < q.1 || q.2 < r.1

theorem CharSet.contains_eq_false {s t : CharSet} (h : s.isApart t = true) {c : Char}
    (hc : s.contains c = true) : t.contains c = false := by
  obtain ⟨r, hr, hlo, hhi⟩ := CharSet.contains_iff.mp hc
  rw [Bool.eq_false_iff]
  intro ht
  obtain ⟨q, hq, hlo', hhi'⟩ := CharSet.contains_iff.mp ht
  have hrq := List.all_eq_true.mp (List.all_eq_true.mp h r hr) q hq
  simp only [Bool.or_eq_true, decide_eq_true_eq] at hrq
  omega

theorem isCased_eq_false_of_isBlank {c : Char} (hc : isBlank c = true) : isCased c = false :=
  CharSet.contains_eq_false (s := blanks) (by decide +kernel) hc

theorem isCaseIgnorable_eq_false_of_isBlank {c : Char} (hc : isBlank c = true) :
    isCaseIgnorable c = false :=
  CharSet.contains_eq_false (s := blanks) (by decide +kernel) hc

/-! ## The runs -/

/-- The characters that the runs map. -/
def runSources : CharSet := ⟨lowercaseRuns.map fun r => (r.first, r.last)⟩

/-- The characters that the runs map to, filled up to whole ranges. -/
def runTargets : CharSet := ⟨lowercaseRuns.map fun r => (r.target, r.target + (r.last - r.first))⟩

/-- No run reaches a number that is no character. -/
theorem lowercaseRuns_valid : ∀ r ∈ lowercaseRuns,
    r.target + (r.last - r.first) < 0xD800 ∨
      (0xDFFF < r.target ∧ r.target + (r.last - r.first) < 0x110000) := by
  decide +kernel

/-- One run alone leads into ASCII. -/
theorem lowercaseRuns_ascii : ∀ r ∈ lowercaseRuns, r.target < 0x80 →
    r.first = 0x212A ∧ r.last = 0x212A ∧ r.target = 0x6B := by
  decide +kernel

theorem toNat_ofNat_of_valid {n : Nat} (h : n.isValidChar) : (Char.ofNat n).toNat = n := by
  unfold Char.ofNat
  rw [dif_pos h]
  rfl

theorem CaseRun.covers_iff {r : CaseRun} {n : Nat} :
    r.covers n = true ↔ (r.first ≤ n ∧ n ≤ r.last) ∧ (n - r.first) % r.stride = 0 := by
  simp [CaseRun.covers]

theorem toNat_run_target {r : CaseRun} (hr : r ∈ lowercaseRuns) {n : Nat} (hn : r.covers n = true) :
    (Char.ofNat (r.target + (n - r.first))).toNat = r.target + (n - r.first) := by
  refine toNat_ofNat_of_valid ?_
  have hvalid := lowercaseRuns_valid r hr
  have hcovers := CaseRun.covers_iff.mp hn
  unfold Nat.isValidChar
  omega

/-- Everything that can become of a character. -/
inductive Becomes (c : Char) : List Char → Prop where
  /-- An ASCII character loses its case. -/
  | ascii : c.toNat < 0x80 → Becomes c [c.toLower]
  /-- The dotted capital keeps its dot. -/
  | dotted : c.toNat = 0x130 → Becomes c ['i', Char.ofNat 0x307]
  /-- A capital of a run moves with the run. -/
  | run {r : CaseRun} {d : Char} : 0x80 ≤ c.toNat → r ∈ lowercaseRuns → r.first ≤ c.toNat →
      c.toNat ≤ r.last → d.toNat = r.target + (c.toNat - r.first) → Becomes c [d]
  /-- All else stays. -/
  | same : 0x80 ≤ c.toNat → Becomes c [c]

theorem lowercaseChar_cases (c : Char) : Becomes c (lowercaseChar c) := by
  unfold lowercaseChar
  by_cases hascii : c.toNat < 0x80
  · rw [if_pos hascii]
    exact .ascii hascii
  · rw [if_neg hascii]
    by_cases hdotted : c.toNat = 0x130
    · rw [if_pos hdotted]
      exact .dotted hdotted
    · rw [if_neg hdotted]
      cases hfind : lowercaseRuns.find? (·.covers c.toNat) with
      | none => exact .same (by omega)
      | some r =>
          have hr := List.mem_of_find?_eq_some hfind
          have hcovers : r.covers c.toNat = true :=
            List.find?_some (p := fun q : CaseRun => q.covers c.toNat) hfind
          have hbounds := (CaseRun.covers_iff.mp hcovers).1
          exact .run (by omega) hr hbounds.1 hbounds.2 (toNat_run_target hr hcovers)

theorem lowercaseChar_ne_nil (c : Char) : lowercaseChar c ≠ [] := by
  have h := lowercaseChar_cases c
  generalize lowercaseChar c = small at h
  cases h <;> simp

/-! ## Blanks -/

theorem isBlank_iff {c : Char} : isBlank c = true ↔
    (0x9 ≤ c.toNat ∧ c.toNat ≤ 0xD) ∨ c.toNat = 0x20 ∨ c.toNat = 0x85 ∨ c.toNat = 0xA0 ∨
      c.toNat = 0x1680 ∨ (0x2000 ≤ c.toNat ∧ c.toNat ≤ 0x200A) ∨ c.toNat = 0x2028 ∨
      c.toNat = 0x2029 ∨ c.toNat = 0x202F ∨ c.toNat = 0x205F ∨ c.toNat = 0x3000 := by
  simp only [isBlank, blanks, CharSet.contains, List.any_cons, List.any_nil, Bool.or_eq_true,
    Bool.and_eq_true, decide_eq_true_eq, Bool.false_eq_true, or_false]
  omega

theorem toNat_toLower (c : Char) :
    c.toLower.toNat = if 65 ≤ c.toNat ∧ c.toNat ≤ 90 then c.toNat + 32 else c.toNat := by
  have hiff : (c.val ≥ 'A'.val ∧ c.val ≤ 'Z'.val) ↔ (65 ≤ c.toNat ∧ c.toNat ≤ 90) := by
    rw [ge_iff_le, UInt32.le_iff_toNat_le, UInt32.le_iff_toNat_le, Char.toNat_val]
    exact Iff.rfl
  unfold Char.toLower
  by_cases h : c.val ≥ 'A'.val ∧ c.val ≤ 'Z'.val
  · rw [dif_pos h, if_pos (hiff.mp h)]
    have hle := (hiff.mp h).2
    show (c.val + ('a'.val - 'A'.val)).toNat = c.toNat + 32
    rw [UInt32.toNat_add, show ('a'.val - 'A'.val).toNat = 32 from rfl, Char.toNat_val]
    omega
  · rw [dif_neg h, if_neg (fun hc => h (hiff.mpr hc))]

/-- **A blank stays as it is.** -/
theorem lowercaseChar_of_isBlank {c : Char} (hc : isBlank c = true) : lowercaseChar c = [c] := by
  have h := lowercaseChar_cases c
  generalize lowercaseChar c = small at h
  cases h with
  | ascii hascii =>
      rw [isBlank_iff] at hc
      have hlower := toNat_toLower c
      rw [if_neg (by omega)] at hlower
      rw [Char.toNat_inj.mp hlower]
  | dotted hdotted => rw [isBlank_iff] at hc; omega
  | @run r d _ hr hlo hhi _ =>
      -- no blank lies in a range of capitals
      have hno := CharSet.contains_eq_false (s := blanks) (t := runSources) (by decide +kernel) hc
      rw [Bool.eq_false_iff] at hno
      exact absurd (CharSet.contains_iff.mpr ⟨_, List.mem_map_of_mem hr, hlo, hhi⟩) hno
  | same _ => rfl

/-- **Nothing but a blank becomes a blank.** -/
theorem not_isBlank_of_mem_lowercaseChar {c d : Char} (hc : isBlank c = false)
    (hd : d ∈ lowercaseChar c) : isBlank d = false := by
  have h := lowercaseChar_cases c
  generalize lowercaseChar c = small at h hd
  cases h with
  | ascii hascii =>
      rw [List.mem_singleton.mp hd]
      rw [Bool.eq_false_iff, ne_eq, isBlank_iff] at hc ⊢
      have hlower := toNat_toLower c
      split at hlower <;> omega
  | dotted _ =>
      rcases List.mem_cons.mp hd with rfl | hd
      · decide
      · rw [List.mem_singleton.mp hd]; decide
  | @run r e _ hr hlo hhi he =>
      rw [List.mem_singleton.mp hd]
      -- and no range of small letters holds a blank
      refine CharSet.contains_eq_false (s := runTargets) (t := blanks) (by decide +kernel) ?_
      exact CharSet.contains_iff.mpr ⟨_, List.mem_map_of_mem hr, by simp only; omega, by simp only; omega⟩
  | same _ => rw [List.mem_singleton.mp hd]; exact hc

/-! ## ASCII -/

/-- Only the sign of a comment becomes one. -/
theorem eq_hash_of_lowercaseChar {c : Char} {rest : List Char} (h : lowercaseChar c = '#' :: rest) :
    c = '#' := by
  have hcases := lowercaseChar_cases c
  rw [h] at hcases
  generalize hs : '#' :: rest = small at hcases
  have hhash : ∀ d : Char, d = '#' → d.toNat = 35 := by rintro d rfl; rfl
  cases hcases with
  | ascii hascii =>
      have hd := hhash c.toLower (List.cons.inj hs).1.symm
      rw [toNat_toLower] at hd
      refine Char.toNat_inj.mp ?_
      show c.toNat = 35
      split at hd <;> omega
  | dotted _ => exact absurd (List.cons.inj hs).1 (by decide)
  | @run r d _ hr _ _ hd =>
      rw [hhash d (List.cons.inj hs).1.symm] at hd
      have := (lowercaseRuns_ascii r hr (by omega)).2.2
      omega
  | same _ => exact (List.cons.inj hs).1.symm

/-! ## Small letters -/

/-- Whether no capital of the second run is among the small letters of the first: the two do not meet, or
either takes every other number and they take turns. -/
def CaseRun.avoids (r q : CaseRun) : Bool :=
  Nat.blt (r.target + (r.last - r.first)) q.first || Nat.blt q.last r.target ||
    ((r.stride == 2 || r.first == r.last) && q.stride == 2 && (r.target + q.first) % 2 == 1)

-- some forty thousand pairs, so the comparisons are those that the kernel makes at once
theorem lowercaseRuns_avoid : (lowercaseRuns.all fun r => lowercaseRuns.all fun q => r.avoids q) = true := by
  decide +kernel

/-- The dotted capital is no small letter of a run. -/
theorem lowercaseRuns_avoid_dotted : ∀ r ∈ lowercaseRuns, r.avoids ⟨0x130, 0x130, 1, 0⟩ = true := by
  decide +kernel

theorem CaseRun.covers_eq_false {r q : CaseRun} (h : r.avoids q = true) {n : Nat} (hn : r.covers n = true) :
    q.covers (r.target + (n - r.first)) = false := by
  obtain ⟨⟨hlo, hhi⟩, hstep⟩ := CaseRun.covers_iff.mp hn
  rw [Bool.eq_false_iff, ne_eq, CaseRun.covers_iff]
  rintro ⟨⟨hlo', hhi'⟩, hstep'⟩
  simp only [avoids, Bool.or_eq_true, Bool.and_eq_true, Nat.blt_eq, beq_iff_eq] at h
  rcases h with (h | h) | ⟨⟨h, hturn⟩, hodd⟩
  · omega
  · omega
  · -- an even distance from the target is an odd one from the first capital of the other run
    have heven : (n - r.first) % 2 = 0 := by
      rcases h with h | h
      · rw [h] at hstep
        exact hstep
      · omega
    rw [hturn] at hstep'
    omega

/-- **Nothing becomes a capital**: what a character becomes stays as it is. -/
theorem lowercaseChar_of_mem_lowercaseChar {c d : Char} (hd : d ∈ lowercaseChar c) : lowercaseChar d = [d] := by
  unfold lowercaseChar at hd
  by_cases hascii : c.toNat < 0x80
  · rw [if_pos hascii] at hd
    obtain rfl := List.mem_singleton.mp hd
    have hlower := toNat_toLower c
    have hagain := toNat_toLower c.toLower
    rw [if_neg (by split at hlower <;> omega)] at hagain
    unfold lowercaseChar
    rw [if_pos (by split at hlower <;> omega), Char.toNat_inj.mp hagain]
  · rw [if_neg hascii] at hd
    by_cases hdotted : c.toNat = 0x130
    · rw [if_pos hdotted] at hd
      rcases List.mem_cons.mp hd with rfl | hd
      · decide +kernel
      · rw [List.mem_singleton.mp hd]
        decide +kernel
    · rw [if_neg hdotted] at hd
      cases hfind : lowercaseRuns.find? (·.covers c.toNat) with
      | none =>
          rw [hfind] at hd
          rw [List.mem_singleton.mp hd, lowercaseChar, if_neg hascii, if_neg hdotted, hfind]
      | some r =>
          rw [hfind] at hd
          have hr := List.mem_of_find?_eq_some hfind
          have hcovers : r.covers c.toNat = true :=
            List.find?_some (p := fun q : CaseRun => q.covers c.toNat) hfind
          have htarget := toNat_run_target hr hcovers
          rw [← List.mem_singleton.mp hd] at htarget
          by_cases hascii' : d.toNat < 0x80
          · -- only the Kelvin sign leads into ASCII
            obtain ⟨hfirst, hlast, hk⟩ := lowercaseRuns_ascii r hr (by omega)
            have hbounds := (CaseRun.covers_iff.mp hcovers).1
            have hd' : d = 'k' := Char.toNat_inj.mp (by rw [htarget]; show _ = 0x6B; omega)
            rw [hd']
            decide +kernel
          · have hdotted' : d.toNat ≠ 0x130 := by
              intro h
              have hnot := CaseRun.covers_eq_false (lowercaseRuns_avoid_dotted r hr) hcovers
              rw [← htarget, h] at hnot
              exact absurd hnot (by decide)
            have hnone : lowercaseRuns.find? (·.covers d.toNat) = none := by
              refine List.find?_eq_none.mpr fun q hq => ?_
              have havoids := List.all_eq_true.mp (List.all_eq_true.mp lowercaseRuns_avoid r hr) q hq
              rw [htarget, CaseRun.covers_eq_false havoids hcovers]
              exact Bool.false_ne_true
            rw [lowercaseChar, if_neg hascii', if_neg hdotted', hnone]

end RecipeScript
