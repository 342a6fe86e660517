import Mathlib.Tactic.Common
import RbiProxy.FilterPolicy

/-!
# The blocked hours

`RunTimeFilter` compares the present with two times of the present day, the second
one moved to the next day where it comes before the first. In a zone with a fixed
offset all of this is arithmetic on the seconds of the clock
(`getTime_sec`, `nextDay_sec`), and `blocked_hours_iff` says when the outcome is
the window on the dial: before `to` in an overnight window it is not, as the window
that began on the day before is not looked at.

`time.Now` is called three times. The present is any minute in which the three
calls fall, so that one instant for all of them is the special case.
-/

namespace RbiProxy

namespace Policy

/-! ## The window on the dial -/

/-- The minute of the day at which the window begins, and the one at which it
ends. -/
def GSBlockTimes.fromMinute (w : GSBlockTimes) : Int := w.fromHours * 60 + w.fromMinutes

def GSBlockTimes.toMinute (w : GSBlockTimes) : Int := w.toHours * 60 + w.toMinutes

/-- Two different times of the day. -/
structure GSBlockTimes.Valid (w : GSBlockTimes) : Prop where
  fromHours : 0 ≤ w.fromHours ∧ w.fromHours < 24
  fromMinutes : 0 ≤ w.fromMinutes ∧ w.fromMinutes < 60
  toHours : 0 ≤ w.toHours ∧ w.toHours < 24
  toMinutes : 0 ≤ w.toMinutes ∧ w.toMinutes < 60
  distinct : w.fromMinute ≠ w.toMinute

/-- A minute that is strictly within the window. -/
def GSBlockTimes.Within (w : GSBlockTimes) (minute : Int) : Prop :=
  if w.fromMinute < w.toMinute then w.fromMinute < minute ∧ minute < w.toMinute
  else w.fromMinute < minute ∨ minute < w.toMinute

/-- The minute of the day on the clock of a location. -/
def Location.minuteOfDay (loc : Location) (t : Time) : Int := loc.clock t % 86400 / 60

/-! ## Zones with a fixed offset -/

section Fixed

variable {loc : Location} {offset : Int} (hfixed : ∀ s, (loc.lookup s).1 = offset)
include hfixed

theorem date_eq (day hour min sec : Int) (nsec : Nat) :
    loc.date day hour min sec nsec
      = ⟨day * 86400 + hour * 3600 + min * 60 + sec - offset, nsec⟩ := by
  have hlookup := hfixed (day * 86400 + hour * 3600 + min * 60 + sec)
  unfold Location.date
  dsimp only
  rw [hlookup]
  split
  · rename_i hzero
    rw [hzero, Int.sub_zero]
  · split
    · rw [hfixed]
    · rfl

theorem clock_eq (t : Time) : loc.clock t = t.sec + offset := by
  rw [Location.clock, hfixed]

theorem getTime_sec (now : Time) (hour minute : Int) :
    getTime loc now hour minute
      = ⟨loc.clock now / 86400 * 86400 + hour * 3600 + minute * 60 + loc.clock now % 60 - offset,
          now.nsec⟩ := by
  rw [getTime, date_eq hfixed, Location.day]

theorem nextDay_sec (t : Time) : loc.nextDay t = ⟨t.sec + 86400, t.nsec⟩ := by
  rw [Location.nextDay, date_eq hfixed, Location.day, clock_eq hfixed]
  refine congrArg (Time.mk · t.nsec) ?_
  omega

end Fixed

/-! ## The present -/

/-- The three calls fall into one minute, in their order. -/
structure Clock.InMinute (clock : Clock) (loc : Location) : Prop where
  nowFrom : loc.clock clock.nowFrom / 60 = loc.clock clock.now / 60
  nowTo : loc.clock clock.nowTo / 60 = loc.clock clock.now / 60
  le_nowFrom : clock.nowFrom.before clock.now = false
  nowFrom_le : clock.nowTo.before clock.nowFrom = false

theorem before_iff (t u : Time) :
    t.before u = true ↔ t.sec < u.sec ∨ t.sec = u.sec ∧ t.nsec < u.nsec := by
  simp [Time.before]

theorem not_before_iff (t u : Time) :
    t.before u = false ↔ u.sec < t.sec ∨ t.sec = u.sec ∧ u.nsec ≤ t.nsec := by
  rw [← Bool.not_eq_true, before_iff]
  omega

section Run

variable {clock : Clock} {loc : Location} {offset : Int} {w : GSBlockTimes}

/-- The first of the two times, where the second one is and whether it is moved. -/
theorem before_now_iff (hfixed : ∀ s, (loc.lookup s).1 = offset) (hnow : clock.InMinute loc) :
    (getTime loc clock.nowFrom w.fromHours w.fromMinutes).before clock.now = true
      ↔ w.fromMinute < loc.minuteOfDay clock.now := by
  obtain ⟨hfrom, -, hle, -⟩ := hnow
  rw [not_before_iff] at hle
  rw [getTime_sec hfixed, before_iff]
  simp only [Location.minuteOfDay, GSBlockTimes.fromMinute, clock_eq hfixed] at *
  omega

theorem to_before_from_iff (hfixed : ∀ s, (loc.lookup s).1 = offset) (hnow : clock.InMinute loc)
    (hw : w.Valid) :
    (getTime loc clock.nowTo w.toHours w.toMinutes).before
        (getTime loc clock.nowFrom w.fromHours w.fromMinutes) = true
      ↔ w.toMinute < w.fromMinute := by
  obtain ⟨hfrom, hto, -, -⟩ := hnow
  have hne := hw.distinct
  rw [getTime_sec hfixed, getTime_sec hfixed, before_iff]
  simp only [GSBlockTimes.fromMinute, GSBlockTimes.toMinute, clock_eq hfixed] at *
  omega

theorem now_before_iff (hfixed : ∀ s, (loc.lookup s).1 = offset) (hnow : clock.InMinute loc) :
    clock.now.before (getTime loc clock.nowTo w.toHours w.toMinutes) = true
      ↔ loc.minuteOfDay clock.now < w.toMinute
        ∨ loc.minuteOfDay clock.now = w.toMinute ∧ clock.now.before clock.nowTo = true := by
  obtain ⟨-, hto, -, -⟩ := hnow
  rw [getTime_sec hfixed, before_iff, before_iff]
  simp only [Location.minuteOfDay, GSBlockTimes.toMinute, clock_eq hfixed] at *
  omega

/-- Every time of the present day comes before the next day. -/
theorem now_before_nextDay (hfixed : ∀ s, (loc.lookup s).1 = offset) (hnow : clock.InMinute loc)
    (hw : w.Valid) :
    clock.now.before (loc.nextDay (getTime loc clock.nowTo w.toHours w.toMinutes)) = true := by
  obtain ⟨-, hto, -, -⟩ := hnow
  obtain ⟨-, -, hhours, hminutes, -⟩ := hw
  rw [nextDay_sec hfixed, getTime_sec hfixed, before_iff]
  simp only [clock_eq hfixed] at *
  omega

def blockBetween (responder : GSFilterResponder) (t fromTime toTime : Time) : GSFilterResponder :=
  if fromTime.before t then if t.before toTime then { responder with blocked := true } else responder
  else responder

theorem blockBetween_iff {responder : GSFilterResponder} (hnew : responder.blocked = false)
    (t fromTime toTime : Time) :
    (blockBetween responder t fromTime toTime).blocked = true
      ↔ fromTime.before t = true ∧ t.before toTime = true := by
  unfold blockBetween
  split
  · rename_i hfrom
    split
    · rename_i hto
      exact iff_of_true rfl ⟨hfrom, hto⟩
    · rename_i hto
      rw [hnew]
      exact iff_of_false (by decide) fun h => hto h.2
  · rename_i hfrom
    rw [hnew]
    exact iff_of_false (by decide) fun h => hfrom h.1

theorem runTimeFilter_blocked_iff {responder : GSFilterResponder}
    (hnew : responder.blocked = false) {blockedTimes timezone : GoString}
    (hloc : clock.loadLocation timezone = some loc) (htimes : clock.unmarshal blockedTimes = some w)
    (hfixed : ∀ s, (loc.lookup s).1 = offset) (hw : w.Valid) (hnow : clock.InMinute loc) :
    (runTimeFilter clock responder blockedTimes timezone).blocked = true
      ↔ w.fromMinute < loc.minuteOfDay clock.now
        ∧ (w.toMinute < w.fromMinute ∨ loc.minuteOfDay clock.now < w.toMinute
          ∨ loc.minuteOfDay clock.now = w.toMinute ∧ clock.now.before clock.nowTo = true) := by
  have hrun : runTimeFilter clock responder blockedTimes timezone
      = blockBetween responder clock.now (getTime loc clock.nowFrom w.fromHours w.fromMinutes)
          (if (getTime loc clock.nowTo w.toHours w.toMinutes).before
              (getTime loc clock.nowFrom w.fromHours w.fromMinutes) = true then
            loc.nextDay (getTime loc clock.nowTo w.toHours w.toMinutes)
          else getTime loc clock.nowTo w.toHours w.toMinutes) := by
    unfold runTimeFilter
    rw [hloc, htimes]
    rfl
  have hwrap := to_before_from_iff hfixed hnow hw
  rw [hrun, blockBetween_iff hnew, before_now_iff hfixed hnow]
  refine and_congr_right fun _ => ?_
  by_cases hto : w.toMinute < w.fromMinute
  · rw [if_pos (hwrap.mpr hto)]
    exact iff_of_true (now_before_nextDay hfixed hnow hw) (.inl hto)
  · rw [if_neg (mt hwrap.mp hto), now_before_iff hfixed hnow]
    exact ⟨.inr, fun h => h.resolve_left hto⟩

/-- **The filter blocks the minutes of the window exactly if it is not yet the end
of an overnight window, and not the last minute of another one** with a clock that
goes on between the calls. -/
theorem blocked_hours_iff {responder : GSFilterResponder}
    (hnew : responder.blocked = false) {blockedTimes timezone : GoString}
    (hloc : clock.loadLocation timezone = some loc) (htimes : clock.unmarshal blockedTimes = some w)
    (hfixed : ∀ s, (loc.lookup s).1 = offset) (hw : w.Valid) (hnow : clock.InMinute loc) :
    ((runTimeFilter clock responder blockedTimes timezone).blocked = true
        ↔ w.Within (loc.minuteOfDay clock.now))
      ↔ (w.toMinute < w.fromMinute → w.toMinute ≤ loc.minuteOfDay clock.now)
        ∧ (w.fromMinute < w.toMinute → loc.minuteOfDay clock.now = w.toMinute →
          clock.now.before clock.nowTo = false) := by
  rw [runTimeFilter_blocked_iff hnew hloc htimes hfixed hw hnow, GSBlockTimes.Within,
    ← Bool.not_eq_true]
  have hne := hw.distinct
  split
  · grind
  · grind

end Run

/-- The window of the source's comment. -/
def overnight : GSBlockTimes := ⟨21, 6, 30, 45⟩

/-- A clock in UTC that stands still. -/
def clockAt (sec : Int) : Clock where
  loadLocation _ := some ⟨fun _ => (0, -2 ^ 63, 2 ^ 63 - 1)⟩
  unmarshal _ := some overnight
  now := ⟨sec, 0⟩
  nowFrom := ⟨sec, 0⟩
  nowTo := ⟨sec, 0⟩

/-- At 22:00 the filter blocks. -/
theorem blocked_hours_evening :
    (runTimeFilter (clockAt 79200) .new [] []).blocked = true ↔ overnight.Within (22 * 60) := by
  have hloc : (clockAt 79200).loadLocation [] = some ⟨fun _ => (0, -2 ^ 63, 2 ^ 63 - 1)⟩ := rfl
  have hw : overnight.Valid := ⟨by decide, by decide, by decide, by decide, by decide⟩
  refine (@blocked_hours_iff _ _ 0 _ _ rfl _ _ hloc rfl (fun _ => rfl) hw
    ⟨by decide, by decide, by decide, by decide⟩).mpr ⟨?_, ?_⟩
  · decide
  · decide

/-- At 01:00 it does not. -/
theorem early_morning_passes :
    overnight.Valid ∧ overnight.Within 60
      ∧ (runTimeFilter (clockAt 3600) .new [] []).blocked = false := by
  refine ⟨⟨by decide, by decide, by decide, by decide, by decide⟩, ?_, by decide⟩
  unfold GSBlockTimes.Within
  decide

end Policy

end RbiProxy
