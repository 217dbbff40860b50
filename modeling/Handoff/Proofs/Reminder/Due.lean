import Handoff.Proofs.Reminder.Claims

/-!
# When a reminder is due

Local days go forward with time, in any zone, and none of them lasts longer than 24 hours.  So a
reminder that is due stays due until it is claimed, and after 24 hours it is due in any case.
-/

namespace Handoff

namespace Calendar

/-- A number of seconds, cut off where it does not fit 32 bits. -/
def saturated (seconds : Int) : Int := max (-2147483648) (min 2147483647 seconds)

/-- Seconds that are cut off are a day or more before and after, so the zone is the same. -/
theorem shift_eq_of_saturated (offset : Int) :
    shift offset = if -86400 < saturated (offset * 60) ∧ saturated (offset * 60) < 86400 then
      saturated (offset * 60) * 1000 else 0 := by
  unfold shift saturated day minute
  split <;> split <;> omega

/-- After 24 hours there is another day, or none. -/
theorem dayOf_ne_of_day_later {offset : Int} {first last : Instant}
    (has_day : first.millis.toNat < dayLimit)
    (apart : first.millis.toNat + day.toNat ≤ last.millis.toNat) :
    dayOf offset first ≠ dayOf offset last := by
  have whole : (0 : Int) ≤ day := by decide
  have length : day.toNat = 86400000 := rfl
  simp only [dayOf, has_day, if_true, Int.fdiv_eq_ediv_of_nonneg _ whole]
  simp only [day]
  split
  · rw [ne_eq, Option.some.injEq]
    omega
  · exact Option.some_ne_none _

end Calendar

namespace Reminder

variable {offset : Int}

/-- What follows a moment is still followed by what comes after it. -/
theorem Follows.later {last now later : Instant} (follows : Follows offset last now)
    (after : now.millis.toNat ≤ later.millis.toNat) : Follows offset last later := by
  obtain ⟨gap, differs⟩ := follows
  refine ⟨by omega, fun same => differs ?_⟩
  exact (Calendar.dayOf_eq_of_between (by omega) after same).symm

theorem isDue_later {last : Option Instant} {now later : Instant}
    (after : now.millis.toNat ≤ later.millis.toNat) (due : isDue now last offset = true) :
    isDue later last offset = true := by
  cases last with
  | none => rfl
  | some last => exact isDue_some_iff.mpr ((isDue_some_iff.mp due).later after)

theorem follows_of_day_later {last now : Instant} (has_day : last.millis.toNat < Calendar.dayLimit)
    (apart : last.millis.toNat + Calendar.day.toNat ≤ now.millis.toNat) :
    Follows offset last now := by
  have hours : Calendar.hour ≤ Calendar.day.toNat := by decide
  exact ⟨by omega, Calendar.dayOf_ne_of_day_later has_day apart⟩

/-- A reminder that is due stays due until it is claimed.  After a moment that has a day, it is due
24 hours later in every zone.  It is not due on the same local day, nor within an hour, nor before
the last one. -/
theorem due_until_claimed (offset : Int) :
    (∀ last now later, now.millis ≤ later.millis → isDue now last offset = true →
      isDue later last offset = true) ∧
    (∀ last now, last.millis.toNat < Calendar.dayLimit →
      last.millis.toNat + Calendar.day.toNat ≤ now.millis.toNat →
        isDue now (some last) offset = true) ∧
    ∀ last now, Calendar.dayOf offset now = Calendar.dayOf offset last ∨
        (now.millis.toNat < last.millis.toNat + Calendar.hour ∧
          last.millis.toNat < now.millis.toNat + Calendar.hour) ∨
        now.millis < last.millis →
      isDue now (some last) offset = false := by
  refine ⟨fun last now later after => isDue_later (UInt64.le_iff_toNat_le.mp after),
    fun last now has_day apart => isDue_some_iff.mpr (follows_of_day_later has_day apart), ?_⟩
  intro last now close
  rw [Bool.eq_false_iff, ne_eq, isDue_some_iff]
  rintro ⟨gap, differs⟩
  rcases close with same | ⟨within, _⟩ | before
  · exact differs same.symm
  · omega
  · have := UInt64.lt_iff_toNat_lt.mp before
    omega

/-- A user was reminded at half past eleven in the evening, nine hours ahead of UTC.  The next
reminder is due an hour later and from then on, although in UTC it is still the same day; half an
hour later it is not yet due. -/
theorem due_past_local_midnight :
    let last : Instant := ⟨52200000⟩
    let now : Instant := ⟨55800000⟩
    isDue now (some last) 540 = true ∧ isDue ⟨55800001⟩ (some last) 540 = true ∧
      isDue ⟨138600000⟩ (some last) 540 = true ∧ isDue ⟨54000000⟩ (some last) 540 = false ∧
      isDue now (some last) 0 = false := by
  intro last now
  have due : isDue now (some last) 540 = true := by decide
  obtain ⟨stays, daily, never⟩ := due_until_claimed 540
  exact ⟨due, stays (some last) now _ (by decide) due, daily last _ (by decide) (by decide),
    never last _ (.inr (.inl (by decide))), (due_until_claimed 0).2.2 last now (.inl (by decide))⟩

end Reminder
end Handoff
