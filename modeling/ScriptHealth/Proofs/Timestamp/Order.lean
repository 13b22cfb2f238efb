import ScriptHealth.Proofs.Text.Padded
import ScriptHealth.Proofs.Timestamp.Calendar
import Mathlib.Data.String.Basic

/-!
# The order of timestamps

A timestamp is a text, and lists of timestamps are sorted as texts. This is the order of time: the
fields of a timestamp stand in the order in which dates and times of day are compared, and each has
a fixed width. The offset of the local clock has been taken off before, so it can be seen in the
text only through the instant, and two moments that are the same instant have the same timestamp.

## Main definitions

* `LocalMoment.IsUniversally` — the date and the time of day of a moment in universal time
* `zuluFields` — the fields of a timestamp

## Main results

* `LocalMoment.IsUniversally.timestamp_eq` — the timestamp shows the universal time
* `LocalMoment.IsUniversally.cut_lt` — later fields are later milliseconds
* `LocalMoment.exists_timestamp_iff` — the moments that have a timestamp
* `timestamps_ordered_as_instants` — timestamps are compared as milliseconds
-/

namespace ScriptHealth

open Text

/-! ### Times of day -/

namespace TimeOfDay

/-- A time that a day has. -/
structure IsValid (t : TimeOfDay) : Prop where
  hour_lt : t.hour < 24
  minute_lt : t.minute < 60
  second_lt : t.second < 60
  microsecond_lt : t.microsecond < 1000000

/-- Hours, minutes, seconds and milliseconds, in the order in which times are compared. -/
def millisFields (t : TimeOfDay) : List Nat := [t.hour, t.minute, t.second, t.microsecond / 1000]

variable {t u : TimeOfDay}

theorem toMicros_lt (h : t.IsValid) : t.toMicros < dayLength := by
  obtain ⟨hhour, hminute, hsecond, hmicro⟩ := h
  unfold toMicros dayLength
  omega

/-- A time of day is found again from its microseconds. -/
theorem ofMicros_toMicros (h : t.IsValid) : ofMicros t.toMicros = t := by
  obtain ⟨hour, minute, second, microsecond⟩ := t
  obtain ⟨hhour, hminute, hsecond, hmicro⟩ := h
  dsimp only at hhour hminute hsecond hmicro
  unfold ofMicros toMicros
  congr 1 <;> dsimp only <;> omega

/-- The microseconds of a day have valid times. -/
theorem ofMicros_spec {n : Nat} (h : n < dayLength) :
    (ofMicros n).IsValid ∧ (ofMicros n).toMicros = n := by
  unfold dayLength at h
  unfold ofMicros toMicros
  refine ⟨⟨?_, ?_, ?_, ?_⟩, ?_⟩ <;> dsimp only <;> omega

/-- Later fields are later milliseconds. -/
theorem cut_lt (ht : t.IsValid) (h : t.millisFields < u.millisFields) :
    t.toMicros / 1000 < u.toMicros / 1000 := by
  obtain ⟨-, hminute, hsecond, hmicro⟩ := ht
  simp only [millisFields, List.cons_lt_cons_iff, List.not_lt_nil, and_false, or_false] at h
  unfold toMicros
  omega

theorem cut_eq (h : t.millisFields = u.millisFields) : t.toMicros / 1000 = u.toMicros / 1000 := by
  simp only [millisFields, List.cons.injEq, and_true] at h
  unfold toMicros
  omega

end TimeOfDay

/-! ### Moments in universal time -/

/-- The date and the time of day that a moment has in universal time: the calendar has them in the
years 1 to 9999, and without an offset they are the same instant. -/
structure LocalMoment.IsUniversally (m : LocalMoment) (d : Date) (t : TimeOfDay) : Prop where
  date : d.isValid = true
  time : t.IsValid
  instant : LocalMoment.instant ⟨d, t, 0⟩ = m.instant

/-- Year, month, day, hours, minutes, seconds and milliseconds. -/
def momentFields (d : Date) (t : TimeOfDay) : List Nat := d.fields ++ t.millisFields

/-- The widths of the fields of a timestamp, and what stands behind them. -/
def zuluFields : List (Nat × List Char) :=
  [(4, ['-']), (2, ['-']), (2, ['T']), (2, [':']), (2, [':']), (2, ['.']), (3, ['Z'])]

/-- The form of a timestamp, with zeros for the digits. -/
def zuluPattern : List Char := "0000-00-00T00:00:00.000Z".toList

variable {d d' : Date} {t t' : TimeOfDay}

theorem toList_zuluText (d : Date) (t : TimeOfDay) :
    (zuluText d t).toList = layout zuluFields (momentFields d t) := by
  simp [zuluText, Date.text, toList_padded, momentFields, Date.fields, TimeOfDay.millisFields,
    zuluFields, layout]

theorem fitAll_momentFields (hd : d.isValid = true) (ht : t.IsValid) :
    FitAll zuluFields (momentFields d t) := by
  have htwo {n : Nat} (h : n < 100) : Fits 2 n :=
    (Nat.length_toDigits_le_iff (by decide) (by decide)).mpr h
  have hthree {n : Nat} (h : n < 1000) : Fits 3 n :=
    (Nat.length_toDigits_le_iff (by decide) (by decide)).mpr h
  have hfour {n : Nat} (h : n < 10000) : Fits 4 n :=
    (Nat.length_toDigits_le_iff (by decide) (by decide)).mpr h
  obtain ⟨hexists, hyear⟩ := Date.isValid_iff.mp hd
  have hmonth := hexists.month_le
  have hday : d.day ≤ 31 := Nat.le_trans hexists.day_le (Date.daysInMonth_le _ _)
  obtain ⟨hhour, hminute, hsecond, hmicro⟩ := ht
  exact .cons (hfour (by omega)) (.cons (htwo (by omega)) (.cons (htwo (by omega))
    (.cons (htwo (by omega)) (.cons (htwo (by omega)) (.cons (htwo (by omega))
      (.cons (hthree (by omega)) .nil))))))

namespace LocalMoment.IsUniversally

variable {m m' : LocalMoment}

theorem instant_eq (h : m.IsUniversally d t) :
    m.instant = (d.toDays * dayLength + t.toMicros : Nat) := by
  rw [← h.instant, LocalMoment.instant, Int.sub_zero]

/-- The timestamp shows the date and the time of day in universal time. -/
theorem timestamp_eq (h : m.IsUniversally d t) : m.timestamp = .ok (zuluText d t) := by
  have hdays := Date.toDays_lt_calendarDays h.date
  have hmicros := TimeOfDay.toMicros_lt h.time
  have hrange : ¬(m.instant < 0 ∨ (calendarDays * dayLength : Nat) ≤ m.instant) := by
    rw [h.instant_eq]
    unfold dayLength at *
    omega
  have hday : (d.toDays * dayLength + t.toMicros) / dayLength = d.toDays := by
    unfold dayLength at *
    omega
  have htime : (d.toDays * dayLength + t.toMicros) % dayLength = t.toMicros := by
    unfold dayLength at *
    omega
  unfold LocalMoment.timestamp
  dsimp only
  rw [if_neg hrange, h.instant_eq, Int.toNat_natCast, hday, htime,
    Date.ofDays_toDays (Date.isValid_iff.mp h.date).1, TimeOfDay.ofMicros_toMicros h.time]

/-- Later fields are later milliseconds. -/
theorem cut_lt (h : m.IsUniversally d t) (h' : m'.IsUniversally d' t')
    (hlt : momentFields d t < momentFields d' t') : m.instant / 1000 < m'.instant / 1000 := by
  have hmicros := TimeOfDay.toMicros_lt h.time
  rw [h.instant_eq, h'.instant_eq]
  -- the dates decide unless they are the same
  rcases lt_trichotomy d.fields d'.fields with hdate | hdate | hdate
  · have hdays := Date.toDays_lt (Date.isValid_iff.mp h.date).1 hdate
    unfold dayLength at *
    omega
  · obtain rfl := Date.eq_of_fields_eq hdate
    have htime : t.millisFields < t'.millisFields := by
      simpa [momentFields, Date.fields, List.cons_lt_cons_iff] using hlt
    have hcut := TimeOfDay.cut_lt h.time htime
    unfold dayLength
    omega
  · have hlength : d'.fields.length = d.fields.length := rfl
    exact absurd hlt (lt_asymm (append_lt_append_of_length hlength hdate _ _))

theorem cut_eq (h : m.IsUniversally d t) (h' : m'.IsUniversally d' t')
    (heq : momentFields d t = momentFields d' t') : m.instant / 1000 = m'.instant / 1000 := by
  obtain ⟨hdate, htime⟩ := List.append_inj heq rfl
  obtain rfl := Date.eq_of_fields_eq hdate
  have hcut := TimeOfDay.cut_eq htime
  rw [h.instant_eq, h'.instant_eq]
  unfold dayLength
  omega

/-- Later fields give a later text. -/
theorem zuluText_lt (h : m.IsUniversally d t) (h' : m'.IsUniversally d' t')
    (hlt : momentFields d t < momentFields d' t') : zuluText d t < zuluText d' t' := by
  rw [String.lt_iff_toList_lt, toList_zuluText, toList_zuluText]
  exact layout_lt (fitAll_momentFields h.date h.time) (fitAll_momentFields h'.date h'.time) hlt

/-- Timestamps are compared as the milliseconds of their instants. -/
theorem zuluText_le_iff (h : m.IsUniversally d t) (h' : m'.IsUniversally d' t') :
    zuluText d t ≤ zuluText d' t' ↔ m.instant / 1000 ≤ m'.instant / 1000 := by
  rcases lt_trichotomy (momentFields d t) (momentFields d' t') with hlt | heq | hgt
  · have htext : zuluText d t ≤ zuluText d' t' :=
      String.not_lt.mp (String.lt_asymm (h.zuluText_lt h' hlt))
    exact iff_of_true htext (Int.le_of_lt (h.cut_lt h' hlt))
  · have htext : zuluText d t = zuluText d' t' := by
      rw [← String.toList_inj, toList_zuluText, toList_zuluText, heq]
    rw [htext]
    exact iff_of_true (String.le_refl _) (Int.le_of_eq (h.cut_eq h' heq))
  · have htext : ¬zuluText d t ≤ zuluText d' t' := String.not_le.mpr (h'.zuluText_lt h hgt)
    exact iff_of_false htext (Int.not_le.mpr (h'.cut_lt h hgt))

end LocalMoment.IsUniversally

/-- The moments that have a timestamp are those that have a date and a time in universal time. -/
theorem LocalMoment.exists_timestamp_iff {m : LocalMoment} :
    (∃ s, m.timestamp = .ok s) ↔ ∃ d t, m.IsUniversally d t := by
  constructor
  · rintro ⟨s, hs⟩
    unfold LocalMoment.timestamp at hs
    dsimp only at hs
    split at hs
    · cases hs
    · rename_i hrange
      obtain ⟨n, hn⟩ := Int.eq_ofNat_of_zero_le (Int.not_lt.mp fun h => hrange (.inl h))
      have hday : n / dayLength < calendarDays := by
        unfold dayLength at *
        omega
      obtain ⟨htime, hmicros⟩ := TimeOfDay.ofMicros_spec (Nat.mod_lt n (by decide : 0 < dayLength))
      refine ⟨_, _, Date.isValid_ofDays hday, htime, ?_⟩
      rw [hn, LocalMoment.instant, Int.sub_zero, hmicros, (Date.ofDays_spec _).2, Nat.mul_comm,
        Nat.div_add_mod]
  · rintro ⟨d, t, h⟩
    exact ⟨_, h.timestamp_eq⟩

/-- **The order of timestamps.** Of any two moments whose universal time lies in the years 1 to
9999, whatever the offsets of their clocks, the timestamps show the universal time, and they are
ordered as texts exactly as the two instants are when these are cut down to milliseconds. So one
instant has one timestamp, on whatever clock it is read; and a timestamp has the same form for all
moments. -/
theorem timestamps_ordered_as_instants {a b : LocalMoment} {d e : Date} {t u : TimeOfDay}
    (ha : a.IsUniversally d t) (hb : b.IsUniversally e u) :
    a.timestamp = .ok (zuluText d t) ∧ b.timestamp = .ok (zuluText e u) ∧
      (zuluText d t ≤ zuluText e u ↔ a.instant / 1000 ≤ b.instant / 1000) ∧
      (a.instant = b.instant → zuluText d t = zuluText e u) ∧
      Matches zuluPattern (zuluText d t).toList := by
  refine ⟨ha.timestamp_eq, hb.timestamp_eq, ha.zuluText_le_iff hb, fun heq => ?_, ?_⟩
  · apply String.le_antisymm
    · exact (ha.zuluText_le_iff hb).mpr (by rw [heq])
    · exact (hb.zuluText_le_iff ha).mpr (by rw [heq])
  · rw [toList_zuluText]
    exact matches_layout (by decide) (fitAll_momentFields ha.date ha.time)

/-- Half an hour into March on a clock that is an hour ahead. -/
def easternMoment : LocalMoment := ⟨⟨2024, 3, 1⟩, ⟨0, 30, 0, 123999⟩, 3600000000⟩

/-- Less than a millisecond earlier, on a clock that is five hours and a half behind. -/
def westernMoment : LocalMoment := ⟨⟨2024, 2, 29⟩, ⟨18, 0, 0, 123456⟩, -19800000000⟩

/-- In universal time both moments are in the same millisecond of the leap day. -/
theorem timestamps_ordered_as_instants_leapDay :
    easternMoment.timestamp = .ok "2024-02-29T23:30:00.123Z" ∧
      westernMoment.timestamp = .ok "2024-02-29T23:30:00.123Z" ∧
      easternMoment.instant / 1000 ≤ westernMoment.instant / 1000 ∧
      westernMoment.instant < easternMoment.instant := by
  have heast : easternMoment.IsUniversally ⟨2024, 2, 29⟩ ⟨23, 30, 0, 123999⟩ :=
    ⟨by decide, ⟨by decide, by decide, by decide, by decide⟩, by decide +kernel⟩
  have hwest : westernMoment.IsUniversally ⟨2024, 2, 29⟩ ⟨23, 30, 0, 123456⟩ :=
    ⟨by decide, ⟨by decide, by decide, by decide, by decide⟩, by decide +kernel⟩
  have htexts : zuluText ⟨2024, 2, 29⟩ ⟨23, 30, 0, 123999⟩ = "2024-02-29T23:30:00.123Z" ∧
      zuluText ⟨2024, 2, 29⟩ ⟨23, 30, 0, 123456⟩ = "2024-02-29T23:30:00.123Z" := by
    decide +kernel
  obtain ⟨hfirst, hsecond, horder, -⟩ := timestamps_ordered_as_instants heast hwest
  rw [htexts.1] at hfirst horder
  rw [htexts.2] at hsecond horder
  exact ⟨hfirst, hsecond, horder.mp (String.le_refl _), by decide +kernel⟩

end ScriptHealth
