import OrderDesk.Proofs.Text.Calendar
import OrderDesk.Proofs.Text.Digits

/-
  This file proves that points in time are read back from
  their written form, leap seconds included.

  Key definitions include:
    * `Timestamp.IsValid`

  Key theorems include:
    * `Timestamp.readYear?_yearChars`
    * `Timestamp.readTime?_timeChars`
    * `Timestamp.ofText?_toText`
-/

namespace OrderDesk

namespace Timestamp

------------------------------------------------------------
-- Numbers With Zeros In Front
------------------------------------------------------------

theorem isDigit_eq :
    isDigit = Char.isDigit := by
  funext c
  exact isSome_digitValue? c

theorem isDigits_padded
    (length n : Nat) :
    IsDigits (padded length n) := by
  intro c hMem
  unfold padded at hMem
  rcases List.mem_append.mp hMem with hZero | hDigit
  · rw [List.eq_of_mem_replicate hZero]
    rfl
  · exact isDigits_digitChars n c hDigit

theorem padded_ne_nil
    (length n : Nat) :
    padded length n ≠ [] :=
  List.append_ne_nil_of_right_ne_nil _ (digitChars_ne_nil n)

theorem ofDigitChars_padded
    (length n : Nat) :
    Nat.ofDigitChars 10 (padded length n) 0 = n := by
  have hZeros :
      ∀ count,
        Nat.ofDigitChars 10 (List.replicate count '0') 0 = 0 := by
    intro count
    induction count with
    | zero => rfl
    | succ count ih =>
        rw [List.replicate_succ]
        exact ih
  unfold padded
  rw [Nat.ofDigitChars_append, hZeros]
  exact Nat.ofDigitChars_toDigits (by decide) (by decide)

theorem natOfDigits?_padded
    (length n : Nat) :
    natOfDigits? (padded length n) = some n := by
  rw [natOfDigits?_of_isDigits (isDigits_padded length n)
    (padded_ne_nil length n), ofDigitChars_padded]

theorem length_padded
    {length n : Nat}
    (hLength : 0 < length)
    (hShort : n < 10 ^ length) :
    (padded length n).length = length := by
  have hDigits :
      (digitChars n).length ≤ length :=
    (Nat.length_toDigits_le_iff (by decide) hLength).mpr hShort
  unfold padded
  rw [List.length_append, List.length_replicate]
  omega

------------------------------------------------------------
-- Reading Parts
------------------------------------------------------------

theorem skipBlanks_of_notBefore
    {cs : List Char}
    (hCs : NotBefore isBlank cs) :
    skipBlanks cs = cs := by
  have hNone : ∀ c ∈ ([] : List Char), isBlank c = true := nofun
  exact (takeWhile_append_of_notBefore hNone hCs).2

theorem isBlank_of_isDigit
    {c : Char}
    (hDigit : c.isDigit = true) :
    isBlank c = false := by
  have hLow : 48 ≤ c.toNat ∧ c.toNat ≤ 57 := by
    unfold Char.isDigit at hDigit
    simp only [Bool.and_eq_true, decide_eq_true_eq] at hDigit
    exact hDigit
  unfold isBlank
  simp only [Bool.or_eq_false_iff, beq_eq_false_iff_ne,
    decide_eq_false_iff_not]
  omega

theorem notBefore_padded
    (length n : Nat)
    (rest : List Char) :
    NotBefore isBlank (padded length n ++ rest) := by
  intro c hHead
  have hDigits := isDigits_padded length n
  cases hPadded : padded length n with
  | nil => exact absurd hPadded (padded_ne_nil length n)
  | cons d ds =>
      rw [hPadded] at hDigits hHead
      cases hHead
      exact isBlank_of_isDigit (hDigits c List.mem_cons_self)

theorem readNumber?_padded
    {length n : Nat}
    (hLength : 0 < length)
    (hShort : n < 10 ^ length)
    (rest : List Char) :
    readNumber? length (padded length n ++ rest) =
      some (n, rest) := by
  have hCount := length_padded hLength hShort
  have hTake :
      (padded length n ++ rest).take length = padded length n :=
    List.take_left' hCount
  have hDigits :
      (padded length n).takeWhile isDigit = padded length n := by
    rw [isDigit_eq]
    exact List.takeWhile_eq_self_iff.mpr (isDigits_padded length n)
  unfold readNumber?
  rw [skipBlanks_of_notBefore (notBefore_padded length n rest)]
  dsimp only
  rw [hTake, hDigits, natOfDigits?_padded, Option.map_some,
    List.drop_left]

theorem readMark?_cons
    {mark : Char}
    (hBlank : isBlank mark = false)
    (rest : List Char) :
    readMark? mark (mark :: rest) = some rest := by
  have hCs : NotBefore isBlank (mark :: rest) := by
    intro c hHead
    cases hHead
    exact hBlank
  unfold readMark?
  rw [skipBlanks_of_notBefore hCs]
  dsimp only
  rw [if_pos rfl]

/- A row of digits behind a sign is read to its end. -/
theorem read_signed
    (length n : Nat)
    {rest : List Char}
    (hRest : NotBefore Char.isDigit rest) :
    (padded length n ++ rest).takeWhile isDigit =
        padded length n ∧
      (padded length n ++ rest).drop (padded length n).length =
        rest := by
  rw [isDigit_eq]
  exact
    ⟨(takeWhile_append_of_notBefore (isDigits_padded length n)
      hRest).1, List.drop_left⟩

/- A year is read back. -/
theorem readYear?_yearChars
    (year : Int)
    {rest : List Char}
    (hRest : NotBefore Char.isDigit rest) :
    readYear? (yearChars year ++ rest) = some (year, rest) := by
  have hSigned := read_signed 4 year.natAbs hRest
  unfold yearChars
  by_cases hBefore : year < 0
  · have hBlank :
        NotBefore isBlank
          ('-' :: (padded 4 year.natAbs ++ rest)) := by
      intro c hHead
      cases hHead
      rfl
    rw [if_pos hBefore, List.cons_append]
    unfold readYear?
    rw [skipBlanks_of_notBefore hBlank]
    simp only [hSigned.1, hSigned.2, natOfDigits?_padded,
      Option.bind_eq_bind, Option.bind_some, Option.pure_def,
      Option.map_some]
    have hYear : -(year.natAbs : Int) = year := by omega
    rw [hYear]
  · by_cases hAfter : 9999 < year
    · have hBlank :
          NotBefore isBlank
            ('+' :: (padded 4 year.natAbs ++ rest)) := by
        intro c hHead
        cases hHead
        rfl
      rw [if_neg hBefore, if_pos hAfter, List.cons_append]
      unfold readYear?
      rw [skipBlanks_of_notBefore hBlank]
      simp only [hSigned.1, hSigned.2, natOfDigits?_padded,
        Option.bind_eq_bind, Option.bind_some, Option.pure_def,
        Option.map_some]
      have hYear : (year.natAbs : Int) = year := by omega
      rw [hYear]
    · have hShort : year.natAbs < 10 ^ 4 := by omega
      have hNumber :=
        readNumber?_padded (by decide : 0 < 4) hShort rest
      rw [if_neg hBefore, if_neg hAfter]
      unfold readYear?
      rw [skipBlanks_of_notBefore (notBefore_padded 4 _ rest)]
      have hDigits := isDigits_padded 4 year.natAbs
      cases hPadded : padded 4 year.natAbs with
      | nil => exact absurd hPadded (padded_ne_nil 4 _)
      | cons c cs =>
          rw [hPadded] at hDigits hNumber
          have hDigit := hDigits c List.mem_cons_self
          rw [List.cons_append] at hNumber ⊢
          split
          · rename_i hMinus
            cases hMinus
            cases hDigit
          · rename_i hPlus
            cases hPlus
            cases hDigit
          · have hYear : (year.natAbs : Int) = year := by omega
            rw [hNumber, Option.map_some]
            dsimp only
            rw [hYear]

theorem readDate?_dateChars
    {date : CivilDate}
    (hValid : date.isValid = true)
    (rest : List Char) :
    readDate?
        (yearChars date.year ++ '-' :: padded 2 date.month ++
          '-' :: padded 2 date.day ++ rest) =
      some (date, rest) := by
  have hMonth : date.month < 10 ^ 2 := by
    unfold CivilDate.isValid at hValid
    simp only [Bool.and_eq_true, decide_eq_true_eq] at hValid
    omega
  have hDay : date.day < 10 ^ 2 := by
    have hLength :
        CivilDate.daysInMonth date.year date.month ≤ 31 := by
      unfold CivilDate.daysInMonth
      repeat' split
      all_goals decide
    unfold CivilDate.isValid at hValid
    simp only [Bool.and_eq_true, decide_eq_true_eq] at hValid
    omega
  have hBefore :
      NotBefore Char.isDigit
        ('-' :: (padded 2 date.month ++
          '-' :: (padded 2 date.day ++ rest))) := by
    intro c hHead
    cases hHead
    rfl
  have hYear := readYear?_yearChars date.year hBefore
  have hMonthRead :=
    readNumber?_padded (by decide : 0 < 2) hMonth
      ('-' :: (padded 2 date.day ++ rest))
  have hDayRead := readNumber?_padded (by decide : 0 < 2) hDay rest
  unfold readDate?
  simp only [List.append_assoc, List.cons_append]
  rw [hYear]
  simp only [Option.bind_eq_bind, Option.bind_some]
  rw [readMark?_cons rfl]
  simp only [Option.bind_some]
  rw [hMonthRead]
  simp only [Option.bind_some]
  rw [readMark?_cons rfl]
  simp only [Option.bind_some]
  rw [hDayRead]
  simp only [Option.bind_some]
  rw [if_pos hValid]
  rfl

/- Digits behind the seconds count by their places. -/
theorem readFraction?_padded
    {places n : Nat}
    (hPlaces : 0 < places ∧ places ≤ 9)
    (hShort : n < 10 ^ places)
    {rest : List Char}
    (hRest : NotBefore Char.isDigit rest) :
    readFraction? ('.' :: padded places n ++ rest) =
      some (n * tenTo (9 - places), rest) := by
  have hLength := length_padded hPlaces.1 hShort
  have hSplit :=
    takeWhile_append_of_notBefore (isDigits_padded places n) hRest
  have hTake : (padded places n).take 9 = padded places n :=
    List.take_of_length_le (by omega)
  rw [List.cons_append]
  unfold readFraction?
  simp only [isDigit_eq, hSplit.1, hSplit.2, hTake,
    natOfDigits?_padded, hLength, Option.map_some]

theorem readFraction?_fractionChars
    {nanos : Nat}
    (hNanos : nanos < tenTo 9)
    {rest : List Char}
    (hRest : NotBefore (fun c => c.isDigit || c == '.') rest) :
    readFraction? (fractionChars nanos ++ rest) =
      some (nanos, rest) := by
  have hDigits : NotBefore Char.isDigit rest := by
    intro c hHead
    exact (Bool.or_eq_false_iff.mp (hRest c hHead)).1
  change nanos < 10 ^ 9 at hNanos
  unfold fractionChars
  by_cases hZero : nanos = 0
  · rw [if_pos hZero, List.nil_append, hZero]
    unfold readFraction?
    split
    · have hPoint := hRest '.' rfl
      cases hPoint
    · rfl
  · rw [if_neg hZero]
    by_cases hMillis : nanos % tenTo 6 = 0
    · rw [if_pos hMillis, readFraction?_padded (by decide) _ hDigits]
      · change nanos % 10 ^ 6 = 0 at hMillis
        change some (nanos / 10 ^ 6 * 10 ^ 6, rest) = _
        rw [Nat.div_mul_cancel (Nat.dvd_of_mod_eq_zero hMillis)]
      · change nanos / 10 ^ 6 < 10 ^ 3
        omega
    · rw [if_neg hMillis]
      by_cases hMicros : nanos % tenTo 3 = 0
      · rw [if_pos hMicros,
          readFraction?_padded (by decide) _ hDigits]
        · change nanos % 10 ^ 3 = 0 at hMicros
          change some (nanos / 10 ^ 3 * 10 ^ 3, rest) = _
          rw [Nat.div_mul_cancel (Nat.dvd_of_mod_eq_zero hMicros)]
        · change nanos / 10 ^ 3 < 10 ^ 6
          omega
      · rw [if_neg hMicros,
          readFraction?_padded (by decide) hNanos hDigits]
        change some (nanos * 1, rest) = _
        rw [Nat.mul_one]

/-
  A time of day is read back. The second 60 belongs to the
  second before it.
-/
theorem readTime?_timeChars
    {hour minute second nanos : Nat}
    (hHour : hour ≤ 23)
    (hMinute : minute ≤ 59)
    (hSecond : second ≤ 60)
    (hNanos : nanos < tenTo 9)
    {rest : List Char}
    (hRest : NotBefore (fun c => c.isDigit || c == '.') rest) :
    readTime?
        (padded 2 hour ++ ':' :: (padded 2 minute ++
          ':' :: (padded 2 second ++
            (fractionChars nanos ++ rest)))) =
      some
        (if second = 60 then
          (hour * 3600 + minute * 60 + 59, nanos + tenTo 9)
        else
          (hour * 3600 + minute * 60 + second, nanos), rest) := by
  have hHourRead :=
    readNumber?_padded (by decide : 0 < 2)
      (by omega : hour < 10 ^ 2)
      (':' :: (padded 2 minute ++
          ':' :: (padded 2 second ++
            (fractionChars nanos ++ rest))))
  have hMinuteRead :=
    readNumber?_padded (by decide : 0 < 2)
      (by omega : minute < 10 ^ 2)
      (':' :: (padded 2 second ++ (fractionChars nanos ++ rest)))
  have hSecondRead :=
    readNumber?_padded (by decide : 0 < 2)
      (by omega : second < 10 ^ 2) (fractionChars nanos ++ rest)
  unfold readTime?
  rw [hHourRead]
  simp only [Option.bind_eq_bind, Option.bind_some]
  rw [readMark?_cons rfl]
  simp only [Option.bind_some]
  rw [hMinuteRead]
  simp only [Option.bind_some]
  rw [readMark?_cons rfl]
  simp only [Option.bind_some]
  rw [hSecondRead]
  simp only [Option.bind_some]
  rw [readFraction?_fractionChars hNanos hRest]
  simp only [Option.bind_some]
  rw [if_neg (by omega)]
  split <;> rfl

------------------------------------------------------------
-- Points In Time
------------------------------------------------------------

/- The point in time exists and can be written. -/
def IsValid
    (t : Timestamp) : Prop :=
  ofParts? t.seconds t.nanos = some t

theorem readZone?_universal :
    readZone? (skipBlanks ['Z']) = some (0, []) := by
  decide

/- A date and a time of day in universal time are read back. -/
theorem ofChars?_universal
    {date : CivilDate}
    (hDate : date.isValid = true)
    {hour minute second nanos : Nat}
    (hHour : hour ≤ 23)
    (hMinute : minute ≤ 59)
    (hSecond : second ≤ 60)
    (hNanos : nanos < tenTo 9)
    {ofDay all : Nat}
    (hTime :
      (if second = 60 then
          (hour * 3600 + minute * 60 + 59, nanos + tenTo 9)
        else
          (hour * 3600 + minute * 60 + second, nanos)) =
        (ofDay, all))
    (hFirst : firstSecond ≤ date.toDays * 86400 + ofDay)
    (hLast : date.toDays * 86400 + ofDay ≤ lastSecond) :
    ofChars?
        (yearChars date.year ++ '-' :: padded 2 date.month ++
          '-' :: padded 2 date.day ++
          'T' :: padded 2 hour ++ ':' :: padded 2 minute ++
          ':' :: padded 2 second ++ fractionChars nanos ++ ['Z']) =
      some ⟨date.toDays * 86400 + ofDay, all⟩ := by
  have hZone : NotBefore (fun c => c.isDigit || c == '.') ['Z'] := by
    intro c hHead
    cases hHead
    rfl
  have hTimeRead :=
    readTime?_timeChars hHour hMinute hSecond hNanos hZone
  have hDateRead :=
    readDate?_dateChars hDate
      ('T' :: (padded 2 hour ++ ':' :: (padded 2 minute ++
        ':' :: (padded 2 second ++
          (fractionChars nanos ++ ['Z'])))))
  have hInRange :
      ¬ (date.toDays * 86400 + (ofDay : Int) < firstSecond ∨
        lastSecond < date.toDays * 86400 + (ofDay : Int)) := by
    omega
  rw [hTime] at hTimeRead
  simp only [List.append_assoc, List.cons_append] at hDateRead ⊢
  unfold ofChars?
  rw [hDateRead]
  simp only [Option.bind_eq_bind, Option.bind_some]
  change (readTime? _).bind _ = _
  rw [hTimeRead]
  simp only [Option.bind_some]
  rw [readZone?_universal]
  simp only [Option.bind_some, Int.sub_zero]
  rw [if_pos (by decide), if_neg hInRange, if_neg hInRange]
  rfl

/- A valid point in time is read back from its written form. -/
theorem ofText?_toText
    {t : Timestamp}
    (hValid : t.IsValid) :
    ofText? t.toText = some t := by
  rcases t with ⟨seconds, nanos⟩
  unfold IsValid ofParts? at hValid
  split at hValid
  case isFalse => cases hValid
  case isTrue hRange =>
    have hDate := CivilDate.isValid_ofDays (seconds / 86400)
    have hDays := CivilDate.toDays_ofDays (seconds / 86400)
    have hSeconds :
        seconds / 86400 * 86400 + (seconds % 86400).toNat =
          seconds := by
      omega
    have hMinute :
        (seconds % 86400).toNat % 60 = (seconds % 60).toNat := by
      omega
    have hDay : (seconds % 86400).toNat < 86400 := by omega
    unfold ofText? toText toChars
    rw [String.toList_ofList]
    dsimp only at hRange ⊢
    generalize (seconds % 86400).toNat = ofDay at *
    have hHour : ofDay / 3600 ≤ 23 := by omega
    have hMinutes : ofDay / 60 % 60 ≤ 59 := by omega
    have hFirst :
        firstSecond ≤
          (CivilDate.ofDays (seconds / 86400)).toDays * 86400 +
            ofDay := by
      rw [hDays, hSeconds]
      exact hRange.1
    have hLast :
        (CivilDate.ofDays (seconds / 86400)).toDays * 86400 +
            ofDay ≤
          lastSecond := by
      rw [hDays, hSeconds]
      exact hRange.2.1
    by_cases hLeap : tenTo 9 ≤ nanos
    · have hSecond : ofDay % 60 + 1 = 60 := by omega
      have hTime :
          (if ofDay % 60 + 1 = 60 then
              (ofDay / 3600 * 3600 + ofDay / 60 % 60 * 60 + 59,
                nanos - tenTo 9 + tenTo 9)
            else
              (ofDay / 3600 * 3600 + ofDay / 60 % 60 * 60 +
                (ofDay % 60 + 1), nanos - tenTo 9)) =
            (ofDay, nanos) := by
        rw [if_pos hSecond, Nat.sub_add_cancel hLeap]
        congr 1
        omega
      rw [if_pos hLeap, if_pos hLeap,
        ofChars?_universal hDate hHour hMinutes
          (Nat.le_of_eq hSecond) (by omega) hTime hFirst hLast,
        hDays, hSeconds]
    · have hSecond : ofDay % 60 ≠ 60 := by omega
      have hTime :
          (if ofDay % 60 = 60 then
              (ofDay / 3600 * 3600 + ofDay / 60 % 60 * 60 + 59,
                nanos + tenTo 9)
            else
              (ofDay / 3600 * 3600 + ofDay / 60 % 60 * 60 +
                ofDay % 60, nanos)) =
            (ofDay, nanos) := by
        rw [if_neg hSecond]
        congr 1
        omega
      rw [if_neg hLeap, if_neg hLeap,
        ofChars?_universal hDate hHour hMinutes (by omega)
          (Nat.not_le.mp hLeap) hTime hFirst hLast,
        hDays, hSeconds]

------------------------------------------------------------
-- What Is Read Is Valid
------------------------------------------------------------

/- A row of digits denotes a number with at most as many digits. -/
theorem lt_of_natOfDigits?
    {cs : List Char}
    {n : Nat}
    (hNumber : natOfDigits? cs = some n) :
    n < 10 ^ cs.length := by
  have hFold :
      ∀ start,
        cs.foldlM
            (fun n c => (digitValue? c).map (10 * n + ·)) start =
            some n →
          n < (start + 1) * 10 ^ cs.length := by
    clear hNumber
    induction cs with
    | nil =>
        intro start hStart
        cases hStart
        simp
    | cons c cs ih =>
        intro start hStart
        rw [List.foldlM_cons, digitValue?_eq] at hStart
        split at hStart
        case isFalse => cases hStart
        case isTrue hDigit =>
          have hRest := ih _ hStart
          have hValue : c.toNat - '0'.toNat < 10 := by
            unfold Char.isDigit at hDigit
            simp only [Bool.and_eq_true, decide_eq_true_eq]
              at hDigit
            have hHigh : c.toNat ≤ 57 := hDigit.2
            change c.toNat - 48 < 10
            omega
          rw [List.length_cons, Nat.pow_succ]
          refine Nat.lt_of_lt_of_le hRest ?_
          have hStep :
              10 * start + (c.toNat - '0'.toNat) + 1 ≤
                (start + 1) * 10 := by
            omega
          calc
            (10 * start + (c.toNat - '0'.toNat) + 1) *
                  10 ^ cs.length ≤
                (start + 1) * 10 * 10 ^ cs.length :=
              Nat.mul_le_mul_right _ hStep
            _ = (start + 1) * (10 ^ cs.length * 10) := by
              rw [Nat.mul_assoc, Nat.mul_comm 10]
  unfold natOfDigits? at hNumber
  split at hNumber
  · cases hNumber
  · have hBound := hFold 0 hNumber
    rw [Nat.zero_add, Nat.one_mul] at hBound
    exact hBound

/- A fraction of a second is less than a second. -/
theorem lt_of_readFraction?
    {cs rest : List Char}
    {nanos : Nat}
    (hRead : readFraction? cs = some (nanos, rest)) :
    nanos < tenTo 9 := by
  unfold readFraction? at hRead
  split at hRead
  · rename_i tail
    simp only [Option.map_eq_some_iff, Prod.mk.injEq] at hRead
    rcases hRead with ⟨n, hNumber, rfl, -⟩
    have hBound := lt_of_natOfDigits? hNumber
    have hCount :
        ((tail.takeWhile isDigit).take 9).length ≤ 9 :=
      List.length_take_le _ _
    calc
      n * tenTo (9 - ((tail.takeWhile isDigit).take 9).length) <
          10 ^ ((tail.takeWhile isDigit).take 9).length *
            tenTo
              (9 - ((tail.takeWhile isDigit).take 9).length) :=
        Nat.mul_lt_mul_of_pos_right hBound (tenTo_pos _)
      _ = tenTo 9 := by
        unfold tenTo
        rw [Nat.pow_eq, Nat.pow_eq, ← Nat.pow_add,
          Nat.add_sub_cancel' hCount]
  · cases hRead
    decide

/- Only the last second of a minute is read as a leap second. -/
theorem leap_of_readTime?
    {cs rest : List Char}
    {ofDay nanos : Nat}
    (hRead : readTime? cs = some ((ofDay, nanos), rest)) :
    nanos < tenTo 9 ∨ (nanos < 2 * tenTo 9 ∧ ofDay % 60 = 59) := by
  unfold readTime? at hRead
  simp only [Option.bind_eq_bind, Option.bind_eq_some_iff,
    Prod.exists] at hRead
  rcases hRead with
    ⟨hour, _, -, _, -, minute, _, -, _, -, second, _, -, fraction,
      after, hFraction, hRead⟩
  have hLess := lt_of_readFraction? hFraction
  split at hRead
  · cases hRead
  · split at hRead
    · cases hRead
      right
      omega
    · cases hRead
      exact .inl hLess

/- An offset is a number of minutes. -/
theorem minutes_of_readZone?
    {cs rest : List Char}
    {offset : Int}
    (hRead : readZone? cs = some (offset, rest)) :
    offset % 60 = 0 := by
  have hOffset :
      ∀ {cs rest : List Char} {n : Nat},
        readOffset? cs = some (n, rest) → n % 60 = 0 := by
    intro cs rest n hRead
    unfold readOffset? at hRead
    simp only [Option.bind_eq_bind, Option.bind_eq_some_iff,
      Prod.exists] at hRead
    rcases hRead with ⟨hours, _, -, minutes, _, -, hRead⟩
    split at hRead
    · cases hRead
    · cases hRead
      omega
  unfold readZone? at hRead
  split at hRead
  · cases hRead
    rfl
  · split at hRead
    · cases hRead
    · split at hRead
      · cases hRead
        rfl
      · split at hRead
        · simp only [Option.map_eq_some_iff, Prod.exists,
            Prod.mk.injEq] at hRead
          rcases hRead with ⟨n, _, hDigits, rfl, -⟩
          have hMinutes := hOffset hDigits
          omega
        · split at hRead
          · simp only [Option.map_eq_some_iff, Prod.exists,
              Prod.mk.injEq] at hRead
            rcases hRead with ⟨n, _, hDigits, rfl, -⟩
            have hMinutes := hOffset hDigits
            omega
          · cases hRead

theorem isValid_of_ofText?
    {s : String}
    {t : Timestamp}
    (hRead : ofText? s = some t) :
    t.IsValid := by
  unfold ofText? ofChars? at hRead
  simp only [Option.bind_eq_bind, Option.bind_eq_some_iff,
    Prod.exists] at hRead
  rcases hRead with
    ⟨date, _, -, _, -, ofDay, nanos, _, hTime, offset, after, hZone,
      hRead⟩
  have hLeap := leap_of_readTime? hTime
  have hMinutes := minutes_of_readZone? hZone
  split at hRead
  · split at hRead
    · cases hRead
    · split at hRead
      · cases hRead
      · rename_i hRange
        cases hRead
        unfold IsValid ofParts?
        rw [if_pos]
        dsimp only
        refine ⟨by omega, by omega, ?_⟩
        rcases hLeap with hLess | ⟨hLess, hSecond⟩
        · exact .inl hLess
        · refine .inr ⟨hLess, ?_⟩
          omega
  · cases hRead

end Timestamp

end OrderDesk
