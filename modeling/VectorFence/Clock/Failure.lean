import VectorFence.Clock.Basic

/-! A clock that does not answer. `IICRead` returns `(u8)-1` without an acknowledge, and
    `PCF8563_Get` and `PCF8563_Get_Str` compare what it returns with `ERROR`, which is 0:

        acknowledge missing ─▶ 255 ≠ ERROR ─▶ the bytes that were on the stack are decoded
        11 bytes read       ─▶  11 ≠ ERROR ─▶ the bytes that were read are decoded

    So the way out after an error is taken by no reading at all. -/

namespace VectorFence

namespace Iic

open CStr RtcTd

/-- A reading that begins after `t` takes the way out after an error when it failed, leaving what
    the caller handed over as it was, and does not take it when it is complete. -/
structure Detects (dev : IicSlaves) (t : List IicEvent) : Prop where
  failed : ¬Acked dev pcf8563SlaveAddr 0x00 t → ∀ (stack : List UInt8) (rtc : RtcTd) (rtcTDStr : CStr),
    (∃ b, (readTime dev stack).run ⟨false, t⟩ = some (none, b)) ∧
      (∃ b, (pcf8563Get dev stack rtc).run ⟨false, t⟩ = some (rtc, b)) ∧
      ∃ b, (pcf8563GetStr dev stack rtcTDStr).run ⟨false, t⟩ = some (rtcTDStr, b)
  completed : Acked dev pcf8563SlaveAddr 0x00 t → ∀ stack : List UInt8,
    ∃ readTime b, (Iic.readTime dev stack).run ⟨false, t⟩ = some (some readTime, b)

/-- Failures are found out only where there are none. -/
theorem detects_iff (dev : IicSlaves) (t : List IicEvent) :
    Detects dev t ↔ Acked dev pcf8563SlaveAddr 0x00 t := by
  constructor
  · rintro ⟨hfailed, -⟩
    by_contra hnack
    obtain ⟨⟨b, hrun⟩, -⟩ := hfailed hnack [] ⟨0, 0, 0, 0, 0, 0⟩ []
    obtain ⟨b', hrun'⟩ := run_readTime_nacked (b := ⟨false, t⟩) rfl hnack []
    rw [hrun] at hrun'
    simp at hrun'
  · intro hack
    refine ⟨fun hnack => absurd hack hnack, fun _ stack => ?_⟩
    obtain ⟨b, hrun⟩ := run_readTime_acked (b := ⟨false, t⟩) rfl hack stack
    exact ⟨_, b, hrun⟩

/-- What is shown after a failed reading is what was on the stack. -/
theorem getStr_nacked {dev : IicSlaves} {t : List IicEvent} (h : ¬Acked dev pcf8563SlaveAddr 0x00 t)
    (stack : List UInt8) (rtcTDStr : CStr) :
    ∃ b, (pcf8563GetStr dev stack rtcTDStr).run ⟨false, t⟩ = some (readTimeStr stack, b) := by
  obtain ⟨b, hrun⟩ := run_readTime_nacked (b := ⟨false, t⟩) rfl h stack
  refine ⟨b, ?_⟩
  rw [pcf8563GetStr, run_bind_of hrun]
  rfl

/-- A bus without a clock. -/
def noClock : IicSlaves where
  nack _ := true
  byte _ := 0xff

/-- With `0x21` everywhere on the stack the string for the caller becomes "2021-01-21 21:21:21". -/
theorem not_detects : ¬∀ (dev : IicSlaves) (t : List IicEvent), Detects dev t := by
  intro h
  have hnack : ¬Acked noClock pcf8563SlaveAddr 0x00 [] := by decide
  obtain ⟨-, -, b, hrun⟩ := (h noClock []).failed hnack (List.replicate 11 0x21) ⟨0, 0, 0, 0, 0, 0⟩
    (lit "2018-03-31 16:27:00")
  obtain ⟨b', hrun'⟩ := getStr_nacked hnack (List.replicate 11 0x21) (lit "2018-03-31 16:27:00")
  have hsame := Option.some.inj (hrun.symm.trans hrun')
  rw [Prod.mk.injEq] at hsame
  exact absurd hsame.1 (by decide)

end Iic

end VectorFence
