import OrderDesk.Text.Uppercase
import Mathlib.Data.List.Basic

/-
  This file proves that a text in capitals is not changed by
  upper-casing: no capital of a letter is a letter that has
  capitals itself, whether the letter has one capital or is
  written with several.

  The tables are compared run by run and not letter by
  letter. Two runs have no code point in common if one ends
  before the other begins, or if they step past each other.

  Key definitions include:
    * `Uppercase.CaseRun.isApart`
    * `Uppercase.letters`
    * `Uppercase.capitals`

  Key theorems include:
    * `Uppercase.codePoints_of_mem`
    * `Uppercase.ofChar_of_mem`
    * `Uppercase.ofText_eq_self_iff`
    * `Uppercase.ofText_ofText`
-/

namespace OrderDesk

namespace Uppercase

------------------------------------------------------------
-- Runs
------------------------------------------------------------

namespace CaseRun

variable {run other : CaseRun} {n : Nat}

/- A single code point as a run. -/
def single
    (n : Nat) : CaseRun :=
  ⟨n, 1, 1, 0⟩

/- The capitals of the letters of a run, which are a run again. -/
def capitals
    (run : CaseRun) : CaseRun :=
  ⟨(run.first + run.shift).toNat, run.count, run.stride, 0⟩

/- The last code point of a run. -/
def last
    (run : CaseRun) : Nat :=
  run.first + (run.count - 1) * run.stride

/-
  One run ends before the other begins, or the first steps
  past the code points of the second.
-/
def isApart
    (run other : CaseRun) : Bool :=
  Nat.blt run.last other.first ||
    Nat.blt other.last run.first ||
    (Nat.beq run.count 1 ||
        Nat.beq (run.stride % other.stride) 0) &&
      !Nat.beq (run.first % other.stride)
        (other.first % other.stride)

/- All code points of a run are characters. -/
def isOfChars
    (run : CaseRun) : Bool :=
  Nat.blt run.last 0xD800 ||
    Nat.blt 0xDFFF run.first && Nat.blt run.last 0x110000

/- A run goes upwards, and its letters have capitals. -/
def isProper
    (run : CaseRun) : Bool :=
  Nat.blt 0 run.stride && decide (0 ≤ run.first + run.shift)

/- The code points of a run are counted from its first one. -/
theorem holds_iff
    (hStride : 0 < run.stride) :
    run.holds n = true ↔
      ∃ k < run.count, n = run.first + run.stride * k := by
  unfold holds
  simp only [Bool.and_eq_true, decide_eq_true_eq, beq_iff_eq]
  constructor
  · rintro ⟨⟨hFirst, hStop⟩, hStep⟩
    rcases Nat.dvd_of_mod_eq_zero hStep with ⟨k, hk⟩
    refine ⟨k, ?_, by omega⟩
    by_contra hCount
    have hFar : run.count * run.stride ≤ run.stride * k := by
      rw [Nat.mul_comm]
      exact Nat.mul_le_mul_left _ (Nat.not_lt.mp hCount)
    omega
  · rintro ⟨k, hk, rfl⟩
    have hNear : run.stride * k < run.count * run.stride := by
      rw [Nat.mul_comm]
      exact Nat.mul_lt_mul_of_pos_right hk hStride
    refine ⟨⟨by omega, by omega⟩, ?_⟩
    rw [Nat.add_sub_cancel_left, Nat.mul_mod_right]

theorem stride_pos_of_holds
    (hHolds : run.holds n = true) :
    0 < run.stride := by
  unfold holds at hHolds
  simp only [Bool.and_eq_true, decide_eq_true_eq] at hHolds
  rcases hHolds with ⟨⟨hFirst, hStop⟩, -⟩
  by_contra hStride
  rw [Nat.eq_zero_of_not_pos hStride] at hStop
  omega

theorem exists_of_holds
    (hHolds : run.holds n = true) :
    ∃ k < run.count, n = run.first + run.stride * k :=
  (holds_iff (stride_pos_of_holds hHolds)).mp hHolds

theorem between_of_holds
    (hHolds : run.holds n = true) :
    run.first ≤ n ∧ n ≤ run.last := by
  rcases exists_of_holds hHolds with ⟨k, hk, rfl⟩
  refine ⟨Nat.le_add_right _ _, Nat.add_le_add_left ?_ _⟩
  rw [Nat.mul_comm]
  exact Nat.mul_le_mul_right _ (Nat.le_sub_one_of_lt hk)

/- Runs that are apart have no code point in common. -/
theorem holds_of_isApart
    (hApart : run.isApart other = true)
    (hRun : run.holds n = true) :
    other.holds n = false := by
  by_contra hHolds
  rw [Bool.not_eq_false] at hHolds
  have hBetween := between_of_holds hRun
  have hOther := between_of_holds hHolds
  unfold isApart at hApart
  simp only [Bool.or_eq_true, Bool.and_eq_true, Bool.not_eq_true',
    Nat.blt_eq, Nat.beq_eq] at hApart
  rcases hApart with (hBefore | hBehind) | ⟨hStride, hSteps⟩
  · omega
  · omega
  · rcases exists_of_holds hRun with ⟨k, hk, hCount⟩
    rcases exists_of_holds hHolds with ⟨j, -, hOtherCount⟩
    apply Nat.ne_of_beq_eq_false hSteps
    have hSame : run.first % other.stride = n % other.stride := by
      rcases hStride with hOne | hMultiple
      · rw [hOne, Nat.lt_one_iff] at hk
        rw [hCount, hk, Nat.mul_zero, Nat.add_zero]
      · rcases Nat.dvd_of_mod_eq_zero hMultiple with ⟨q, hq⟩
        rw [hCount, hq, Nat.mul_assoc, Nat.add_mul_mod_self_left]
    rw [hSame, hOtherCount, Nat.add_mul_mod_self_left]

/- The capital of a letter in a run is in the run of capitals. -/
theorem holds_capitals
    (hProper : run.isProper = true)
    (hHolds : run.holds n = true) :
    run.capitals.holds (n + run.shift).toNat = true := by
  unfold isProper at hProper
  simp only [Bool.and_eq_true, Nat.blt_eq, decide_eq_true_eq]
    at hProper
  rcases exists_of_holds hHolds with ⟨k, hk, rfl⟩
  have hStride : 0 < run.capitals.stride := hProper.1
  rw [holds_iff hStride]
  refine ⟨k, hk, ?_⟩
  unfold capitals
  dsimp only
  push_cast
  omega

theorem holds_single
    {m : Nat} :
    (single m).holds n = true ↔ n = m := by
  rw [holds_iff Nat.one_pos]
  simp [single]

theorem isValidChar_of_holds
    (hChars : run.isOfChars = true)
    (hHolds : run.holds n = true) :
    n.isValidChar := by
  have hBetween := between_of_holds hHolds
  unfold isOfChars at hChars
  simp only [Bool.or_eq_true, Bool.and_eq_true, Nat.blt_eq]
    at hChars
  unfold Nat.isValidChar
  omega

end CaseRun

------------------------------------------------------------
-- Letters And Capitals
------------------------------------------------------------

/- The code points that have capitals. -/
def letters : List CaseRun :=
  runs ++ expansions.map fun entry => .single entry.1

/- The capitals that code points have. -/
def capitals : List CaseRun :=
  runs.map CaseRun.capitals ++
    expansions.flatMap fun entry => entry.2.map .single

/- What the tables say about runs makes sense. -/
theorem isProper_of_mem_runs
    {run : CaseRun}
    (hRun : run ∈ runs) :
    run.isProper = true := by
  have hAll : runs.all CaseRun.isProper = true := by
    decide +kernel
  exact List.all_eq_true.mp hAll run hRun

/- Capitals are characters. -/
theorem isOfChars_of_mem_capitals
    {run : CaseRun}
    (hRun : run ∈ capitals) :
    run.isOfChars = true := by
  have hAll : capitals.all CaseRun.isOfChars = true := by
    decide +kernel
  exact List.all_eq_true.mp hAll run hRun

/- No capital is a letter that has capitals. -/
theorem isApart_of_mem
    {run other : CaseRun}
    (hRun : run ∈ capitals)
    (hOther : other ∈ letters) :
    run.isApart other = true := by
  have hAll :
      (capitals.all fun run => letters.all run.isApart) = true := by
    decide +kernel
  exact
    List.all_eq_true.mp (List.all_eq_true.mp hAll run hRun) other
      hOther

variable {m n : Nat} {c d : Char}

/- A code point that is no letter with capitals is its own capital. -/
theorem codePoints_eq_self
    (hNone : ∀ run ∈ letters, run.holds n = false) :
    codePoints n = [n] := by
  have hExpansions : expansions.lookup n = none := by
    rw [List.lookup_eq_none_iff]
    intro entry hEntry
    have hSingle :=
      hNone (.single entry.1)
        (List.mem_append_right _ (List.mem_map_of_mem hEntry))
    rw [bne_iff_ne]
    intro hKey
    rw [CaseRun.holds_single.mpr hKey] at hSingle
    cases hSingle
  have hRuns : runs.find? (·.holds n) = none := by
    rw [List.find?_eq_none]
    intro run hRun
    rw [hNone run (List.mem_append_left _ hRun)]
    exact Bool.false_ne_true
  unfold codePoints
  rw [hExpansions, hRuns]

/- A code point is its own capital, or its capitals are listed. -/
theorem capitals_cases
    (hMem : m ∈ codePoints n) :
    (m = n ∧ codePoints n = [n]) ∨
      ∃ run ∈ capitals, run.holds m = true := by
  unfold codePoints at hMem ⊢
  cases hExpansion : expansions.lookup n with
  | some ms =>
      rw [hExpansion] at hMem
      have hEntry : (n, ms) ∈ expansions := by
        rcases List.lookup_eq_some_iff.mp hExpansion with
          ⟨before, after, hSplit, -⟩
        rw [hSplit]
        exact List.mem_append_right _ List.mem_cons_self
      refine .inr ⟨.single m, ?_, CaseRun.holds_single.mpr rfl⟩
      apply List.mem_append_right
      rw [List.mem_flatMap]
      exact ⟨(n, ms), hEntry, List.mem_map_of_mem hMem⟩
  | none =>
      rw [hExpansion] at hMem
      cases hFound : runs.find? (·.holds n) with
      | some run =>
          rw [hFound] at hMem
          cases List.mem_singleton.mp hMem
          have hRun := List.mem_of_find?_eq_some hFound
          have hHolds : run.holds n = true :=
            List.find?_some
              (p := fun run : CaseRun => run.holds n) hFound
          exact
            .inr ⟨run.capitals,
              List.mem_append_left _ (List.mem_map_of_mem hRun),
              CaseRun.holds_capitals (isProper_of_mem_runs hRun)
                hHolds⟩
      | none =>
          rw [hFound] at hMem
          exact .inl ⟨List.mem_singleton.mp hMem, rfl⟩

/- A capital is its own capital. -/
theorem codePoints_of_mem
    (hMem : m ∈ codePoints n) :
    codePoints m = [m] := by
  rcases capitals_cases hMem with ⟨rfl, hSelf⟩ | ⟨run, hRun, hHolds⟩
  · exact hSelf
  · apply codePoints_eq_self
    intro other hOther
    exact
      CaseRun.holds_of_isApart (isApart_of_mem hRun hOther) hHolds

/- The capitals of a character are characters. -/
theorem toNat_ofNat_of_mem
    (hMem : m ∈ codePoints c.toNat) :
    (Char.ofNat m).toNat = m := by
  rcases capitals_cases hMem with ⟨rfl, -⟩ | ⟨run, hRun, hHolds⟩
  · rw [Char.ofNat_toNat]
  · have hValid :=
      CaseRun.isValidChar_of_holds (isOfChars_of_mem_capitals hRun)
        hHolds
    unfold Char.ofNat
    rw [dif_pos hValid]
    rfl

------------------------------------------------------------
-- Texts In Capitals
------------------------------------------------------------

/- A capital of a character is its own capital. -/
theorem ofChar_of_mem
    (hMem : d ∈ ofChar c) :
    ofChar d = [d] := by
  rcases List.mem_map.mp hMem with ⟨m, hCodePoint, rfl⟩
  unfold ofChar
  rw [toNat_ofNat_of_mem hCodePoint, codePoints_of_mem hCodePoint]
  rfl

theorem flatMap_ofChar_eq_self
    {cs : List Char}
    (hOwn : ∀ c ∈ cs, ofChar c = [c]) :
    cs.flatMap ofChar = cs := by
  induction cs with
  | nil => rfl
  | cons c rest ih =>
      rw [List.forall_mem_cons] at hOwn
      rw [List.flatMap_cons, hOwn.1, ih hOwn.2]
      rfl

/-
  A text is not changed by upper-casing if and only if each
  of its characters is its own capital.
-/
theorem ofText_eq_self_iff
    {s : String} :
    ofText s = s ↔ ∀ c ∈ s.toList, ofChar c = [c] := by
  unfold ofText
  constructor
  · intro hText c hMem
    rw [← hText, String.toList_ofList, List.mem_flatMap] at hMem
    rcases hMem with ⟨letter, -, hCapital⟩
    exact ofChar_of_mem hCapital
  · intro hOwn
    rw [flatMap_ofChar_eq_self hOwn, String.ofList_toList]

/- Upper-casing leaves nothing to be upper-cased. -/
theorem ofText_ofText
    (s : String) :
    ofText (ofText s) = ofText s := by
  rw [ofText_eq_self_iff]
  intro c hMem
  unfold ofText at hMem
  rw [String.toList_ofList, List.mem_flatMap] at hMem
  rcases hMem with ⟨letter, -, hCapital⟩
  exact ofChar_of_mem hCapital

end Uppercase

end OrderDesk
