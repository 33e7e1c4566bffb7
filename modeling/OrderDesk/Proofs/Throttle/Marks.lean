import Mathlib.Data.List.Infix

/-
  This file defines marks: what is noted of a throttler as
  time passes, namely which items pass and when its windows
  begin. If no more than a limit pass in a window, and
  windows begin no sooner after one another than an
  interval, then only so many items can pass in a span of
  time.

  Key definitions include:
    * `Mark`
    * `IsWindowed`
    * `IsSpaced`
    * `InSpan`

  Key theorems include:
    * `IsWindowed.append_passages`
    * `IsWindowed.begin_window`
    * `length_deliveries_le`
    * `length_le_of_isSpaced`
    * `countP_deliveries_le`
-/

namespace OrderDesk

------------------------------------------------------------
-- Marks
------------------------------------------------------------

/- An item passes, or a window begins. -/
inductive Mark (α : Type) where
  | passed (item : α) (time : Nat)
  | rolled (time : Nat)

namespace Mark

variable {α : Type}

/- When it was. -/
def time :
    Mark α → Nat
| passed _ time => time
| rolled time => time

/- A window begins. -/
def isRollover :
    Mark α → Bool
| passed _ _ => false
| rolled _ => true

/- The item that passes, and when. -/
def delivery? :
    Mark α → Option (α × Nat)
| passed item time => some (item, time)
| rolled _ => none

/- When a window begins. -/
def rollover? :
    Mark α → Option Nat
| passed _ _ => none
| rolled time => some time

end Mark

/- The marks of items that pass at a time. -/
def passages
    {α : Type}
    (items : List α)
    (time : Nat) : List (Mark α) :=
  items.map fun item => .passed item time

/- The items that pass, and when. -/
def deliveries
    {α : Type}
    (marks : List (Mark α)) : List (α × Nat) :=
  marks.filterMap Mark.delivery?

/- When windows begin. -/
def rollovers
    {α : Type}
    (marks : List (Mark α)) : List Nat :=
  marks.filterMap Mark.rollover?

/- No window begins. -/
def WithoutRollover
    {α : Type}
    (marks : List (Mark α)) : Prop :=
  ∀ mark ∈ marks, mark.isRollover = false

/- At most `limit` items pass from one rollover to the next. -/
def IsWindowed
    {α : Type}
    (limit : Nat)
    (marks : List (Mark α)) : Prop :=
  ∀ middle,
    middle <:+: marks →
      WithoutRollover middle →
        middle.length ≤ limit

/- At most `count` items have passed since the last rollover. -/
def IsRecent
    {α : Type}
    (count : Nat)
    (marks : List (Mark α)) : Prop :=
  ∀ last,
    last <:+ marks →
      WithoutRollover last →
        last.length ≤ count

/- Each time comes at least an interval after those before. -/
def IsSpaced
    (interval : Nat)
    (times : List Nat) : Prop :=
  times.Pairwise fun first second => first + interval ≤ second

/- A time is in the span that starts at `start`. -/
def InSpan
    (start length time : Nat) : Prop :=
  start ≤ time ∧ time < start + length

instance
    (start length time : Nat) :
    Decidable (InSpan start length time) :=
  inferInstanceAs
    (Decidable (start ≤ time ∧ time < start + length))

variable {α : Type}

section

variable (items : List α) (time : Nat)

@[simp] theorem length_passages :
    (passages items time).length = items.length :=
  List.length_map _

@[simp] theorem deliveries_passages :
    deliveries (passages items time) =
      items.map fun item => (item, time) := by
  induction items with
  | nil => rfl
  | cons item items ih =>
      simpa [deliveries, passages, Mark.delivery?] using ih

@[simp] theorem rollovers_passages :
    rollovers (passages items time) = [] := by
  unfold rollovers
  rw [List.filterMap_eq_nil_iff]
  intro mark hMark
  rcases List.mem_map.mp hMark with ⟨item, _, rfl⟩
  rfl

theorem time_of_mem_passages
    {mark : Mark α}
    (hMark : mark ∈ passages items time) :
    mark.time = time := by
  rcases List.mem_map.mp hMark with ⟨item, _, rfl⟩
  rfl

end

@[simp] theorem deliveries_append
    (first second : List (Mark α)) :
    deliveries (first ++ second) =
      deliveries first ++ deliveries second :=
  List.filterMap_append

@[simp] theorem rollovers_append
    (first second : List (Mark α)) :
    rollovers (first ++ second) =
      rollovers first ++ rollovers second :=
  List.filterMap_append

------------------------------------------------------------
-- Windows
------------------------------------------------------------

variable {limit count : Nat} {marks : List (Mark α)}

/- A row without a rollover has no part with one. -/
theorem WithoutRollover.of_subset
    {part : List (Mark α)}
    (hWithout : WithoutRollover marks)
    (hPart : part ⊆ marks) :
    WithoutRollover part := by
  intro mark hMark
  exact hWithout mark (hPart hMark)

/- More items pass in the present window. -/
theorem IsRecent.append_passages
    (hRecent : IsRecent count marks)
    (items : List α)
    (time : Nat) :
    IsRecent (count + items.length)
      (marks ++ passages items time) := by
  intro last hLast hWithout
  rcases List.suffix_or_suffix_of_suffix hLast
      (List.suffix_append marks (passages items time)) with
    hShort | ⟨before, rfl⟩
  · have hLength := hShort.length_le
    rw [length_passages] at hLength
    omega
  · have hBefore : before <:+ marks := by
      rcases hLast with ⟨front, hFront⟩
      rw [← List.append_assoc] at hFront
      exact ⟨front, List.append_cancel_right hFront⟩
    have hLength :=
      hRecent before hBefore
        (hWithout.of_subset (List.subset_append_left _ _))
    rw [List.length_append, length_passages]
    omega

/- More items pass in the present window, as far as it has room. -/
theorem IsWindowed.append_passages
    {items : List α}
    (hWindowed : IsWindowed limit marks)
    (hRecent : IsRecent count marks)
    (time : Nat)
    (hRoom : count + items.length ≤ limit) :
    IsWindowed limit (marks ++ passages items time) := by
  intro middle hMiddle hWithout
  rcases List.infix_append_iff.mp hMiddle with
    hBefore | hAfter | ⟨before, after, rfl, hBefore, hAfter⟩
  · exact hWindowed middle hBefore hWithout
  · have hLength := hAfter.length_le
    rw [length_passages] at hLength
    omega
  · have hCount :=
      hRecent before hBefore
        (hWithout.of_subset (List.subset_append_left _ _))
    have hLength := hAfter.length_le
    rw [length_passages] at hLength
    rw [List.length_append]
    omega

/- Nothing has passed since a window has just begun. -/
theorem isRecent_begin_window
    (marks : List (Mark α))
    (time : Nat) :
    IsRecent 0 (marks ++ [.rolled time]) := by
  intro last hLast hWithout
  rcases List.suffix_concat_iff.mp hLast with
    rfl | ⟨before, rfl, _⟩
  · exact Nat.le_refl 0
  · have hRolled := hWithout (.rolled time) (by simp)
    cases hRolled

/- A window that begins ends the one before. -/
theorem IsWindowed.begin_window
    (hWindowed : IsWindowed limit marks)
    (time : Nat) :
    IsWindowed limit (marks ++ [.rolled time]) := by
  intro middle hMiddle hWithout
  rcases List.infix_concat_iff.mp hMiddle with hLast | hBefore
  · have hLength :=
      isRecent_begin_window marks time middle hLast hWithout
    omega
  · exact hWindowed middle hBefore hWithout

/-
  Among marks with so many rollovers there are the windows
  between them, one before the first, and one after the last.
-/
theorem length_deliveries_le
    (hWindowed : IsWindowed limit marks) :
    (deliveries marks).length ≤
      ((rollovers marks).length + 1) * limit := by
  -- The window that the marks begin in may have begun before them.
  suffices hAll :
      ∀ first : List (Mark α),
        WithoutRollover first →
          IsWindowed limit (first ++ marks) →
            first.length + (deliveries marks).length ≤
              ((rollovers marks).length + 1) * limit by
    have hNone : WithoutRollover ([] : List (Mark α)) := by
      intro mark hMark
      cases hMark
    simpa using hAll [] hNone hWindowed
  clear hWindowed
  induction marks with
  | nil =>
      intro first hWithout hWindowed
      have hFirst :=
        hWindowed first (List.prefix_append _ _).isInfix hWithout
      simpa [deliveries, rollovers] using hFirst
  | cons mark marks ih =>
      intro first hWithout hWindowed
      cases mark with
      | passed item time =>
          have hLonger :
              WithoutRollover (first ++ [.passed item time]) := by
            intro mark hMark
            rcases List.mem_append.mp hMark with hOld | hNew
            · exact hWithout mark hOld
            · cases List.mem_singleton.mp hNew
              rfl
          have hRest :=
            ih (first ++ [.passed item time]) hLonger
              (by simpa using hWindowed)
          have hDeliveries :
              deliveries (.passed item time :: marks) =
                (item, time) :: deliveries marks :=
            rfl
          have hRollovers :
              rollovers (.passed item time :: marks) =
                rollovers marks :=
            rfl
          rw [List.length_append, List.length_singleton] at hRest
          rw [hDeliveries, hRollovers, List.length_cons]
          omega
      | rolled time =>
          have hFirst :=
            hWindowed first (List.prefix_append _ _).isInfix
              hWithout
          have hNone : WithoutRollover ([] : List (Mark α)) := by
            intro mark hMark
            cases hMark
          have hTail : IsWindowed limit ([] ++ marks) := by
            intro middle hMiddle
            apply hWindowed middle
            apply hMiddle.trans
            exact
              ((List.suffix_cons (.rolled time) marks).trans
                (List.suffix_append first _)).isInfix
          have hRest := ih [] hNone hTail
          have hDeliveries :
              deliveries (.rolled time :: marks) =
                deliveries marks :=
            rfl
          have hRollovers :
              rollovers (.rolled time :: marks) =
                time :: rollovers marks :=
            rfl
          rw [List.length_nil, Nat.zero_add] at hRest
          rw [hDeliveries, hRollovers, List.length_cons]
          calc
            first.length + (deliveries marks).length ≤
                limit + ((rollovers marks).length + 1) * limit :=
              Nat.add_le_add hFirst hRest
            _ = ((rollovers marks).length + 1 + 1) * limit := by
              rw [Nat.succ_mul ((rollovers marks).length + 1),
                Nat.add_comm]

------------------------------------------------------------
-- Spans Of Time
------------------------------------------------------------

/- There is no room in a span for more times than intervals. -/
theorem length_le_of_isSpaced
    {interval n start : Nat}
    {times : List Nat}
    (hSpaced : IsSpaced interval times)
    (hSpan : ∀ time ∈ times, InSpan start (n * interval) time) :
    times.length ≤ n := by
  induction times generalizing n start with
  | nil => exact Nat.zero_le n
  | cons time times ih =>
      have hTime := hSpan time List.mem_cons_self
      have hLater := List.pairwise_cons.mp hSpaced
      unfold InSpan at hTime
      cases n with
      | zero =>
          rw [Nat.zero_mul] at hTime
          omega
      | succ n =>
          have hRest :
              ∀ other ∈ times,
                InSpan (start + interval) (n * interval) other := by
            intro other hOther
            have hOwn := hSpan other (List.mem_cons_of_mem _ hOther)
            have hAfter := hLater.1 other hOther
            unfold InSpan at hOwn ⊢
            rw [Nat.succ_mul] at hOwn
            constructor
            · omega
            · omega
          exact Nat.succ_le_succ (ih hLater.2 hRest)

/- Of marks in the order of time, the early ones are at the front. -/
theorem filter_before_at_front
    {marks : List (Mark α)}
    (hSorted :
      marks.Pairwise fun first second => first.time ≤ second.time)
    (stop : Nat) :
    marks.filter (fun mark => mark.time < stop) <+: marks := by
  induction marks with
  | nil => exact List.prefix_rfl
  | cons mark marks ih =>
      have hLater := List.pairwise_cons.mp hSorted
      by_cases hEarly : mark.time < stop
      · rw [List.filter_cons_of_pos (by simpa using hEarly)]
        exact (List.prefix_cons_inj mark).mpr (ih hLater.2)
      · have hNone :
            (mark :: marks).filter
                (fun mark => mark.time < stop) =
              [] := by
          rw [List.filter_eq_nil_iff]
          intro other hOther
          rcases List.mem_cons.mp hOther with rfl | hMem
          · simpa using hEarly
          · have hAfter := hLater.1 other hMem
            simp only [decide_eq_true_eq]
            omega
        rw [hNone]
        exact List.nil_prefix

/- Of marks in the order of time, those in a span are together. -/
theorem filter_inSpan_infix
    {marks : List (Mark α)}
    (hSorted :
      marks.Pairwise fun first second => first.time ≤ second.time)
    (start length : Nat) :
    marks.filter (fun mark => InSpan start length mark.time) <:+:
      marks := by
  induction marks with
  | nil => exact List.infix_rfl
  | cons mark marks ih =>
      have hLater := List.pairwise_cons.mp hSorted
      by_cases hStart : start ≤ mark.time
      · have hSame :
            (mark :: marks).filter
                (fun mark => InSpan start length mark.time) =
              (mark :: marks).filter
                fun mark => mark.time < start + length := by
          apply List.filter_congr
          intro other hOther
          have hAfter : start ≤ other.time := by
            rcases List.mem_cons.mp hOther with rfl | hMem
            · exact hStart
            · exact hStart.trans (hLater.1 other hMem)
          simp [InSpan, hAfter]
        rw [hSame]
        exact (filter_before_at_front hSorted _).isInfix
      · rw [List.filter_cons_of_neg]
        · exact List.infix_cons (ih hLater.2)
        · intro hSpan
          exact hStart (of_decide_eq_true hSpan).1

/- What passes in a span is what is marked in it. -/
theorem countP_deliveries
    (start length : Nat)
    (marks : List (Mark α)) :
    (deliveries marks).countP
        (fun delivery => InSpan start length delivery.2) =
      (deliveries
        (marks.filter fun mark =>
          InSpan start length mark.time)).length := by
  unfold deliveries
  rw [List.countP_filterMap, List.length_filterMap_eq_countP,
    List.countP_filter]
  apply List.countP_congr
  intro mark _
  cases mark with
  | passed item time =>
      simp only [Mark.delivery?, Option.map_some, Option.getD_some,
        Option.isSome_some, Bool.true_and]
      exact Iff.rfl
  | rolled time => simp [Mark.delivery?]

/-
  In a span of so many intervals no more items pass than in
  that number of windows and one more.
-/
theorem countP_deliveries_le
    {interval : Nat}
    (hWindowed : IsWindowed limit marks)
    (hSpaced : IsSpaced interval (rollovers marks))
    (hSorted :
      marks.Pairwise fun first second => first.time ≤ second.time)
    (n start : Nat) :
    (deliveries marks).countP
        (fun delivery =>
          InSpan start (n * interval) delivery.2) ≤
      (n + 1) * limit := by
  have hInfix := filter_inSpan_infix hSorted start (n * interval)
  have hInside :
      IsWindowed limit
        (marks.filter fun mark =>
          InSpan start (n * interval) mark.time) := by
    intro middle hMiddle
    exact hWindowed middle (hMiddle.trans hInfix)
  have hFew :
      (rollovers
        (marks.filter fun mark =>
          InSpan start (n * interval) mark.time)).length ≤ n := by
    have hSpacedInside :
        IsSpaced interval
          (rollovers
            (marks.filter fun mark =>
              InSpan start (n * interval) mark.time)) :=
      hSpaced.sublist (hInfix.sublist.filterMap _)
    apply length_le_of_isSpaced hSpacedInside
    intro time hTime
    rcases List.mem_filterMap.mp hTime with ⟨mark, hMark, hRolled⟩
    have hSpan := of_decide_eq_true (List.mem_filter.mp hMark).2
    cases mark with
    | passed item other => cases hRolled
    | rolled other =>
        cases hRolled
        exact hSpan
  calc
    (deliveries marks).countP
          (fun delivery =>
            InSpan start (n * interval) delivery.2) =
        (deliveries
          (marks.filter fun mark =>
            InSpan start (n * interval) mark.time)).length :=
      countP_deliveries start (n * interval) marks
    _ ≤
        ((rollovers
          (marks.filter fun mark =>
            InSpan start (n * interval) mark.time)).length + 1) *
          limit :=
      length_deliveries_le hInside
    _ ≤ (n + 1) * limit := by
      apply Nat.mul_le_mul_right
      omega

end OrderDesk
