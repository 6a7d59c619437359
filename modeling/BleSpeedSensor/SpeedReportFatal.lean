import BleSpeedSensor.RunSystem
import BleSpeedSensor.GattsLink

namespace BleSpeedSensor

open RunSystem

inductive ReportAction
  | link (a : LinkAction)
  | speedEvent (speedData : UInt32)
  deriving Repr

def reportStep (l : SpeedLink) : ReportAction → Except ErrCode SpeedLink
  | .link a => l.raise a
  | .speedEvent speedData => l.speedEvent speedData

/-- No speed event is handled while a connected peer's system attributes are missing,
nor while its notifications are on and no buffer is free. -/
def OutsideFatalWindows (l : SpeedLink) (a : ReportAction) : Prop :=
  ∀ speedData, a = .speedEvent speedData →
    (∀ handle txFree, l.gatts.link ≠ .connected handle .missing txFree) ∧
    (∀ handle, l.gatts.link ≠ .connected handle (.set true) 0)

theorem Link.not_hvxFatal_iff {link : Link} :
    ¬link.HvxFatal ↔ (∀ handle txFree, link ≠ .connected handle .missing txFree) ∧
      (∀ handle, link ≠ .connected handle (.set true) 0) := by
  cases link with
  | disconnected => simp [HvxFatal]
  | connected handle attrs txFree =>
    cases attrs with
    | missing => simp [HvxFatal]
    | set notify => cases notify <;> simp [HvxFatal]

theorem reportStep_ok_iff {l : SpeedLink} (h : l.Agree) (a : ReportAction) :
    (∃ m, reportStep l a = .ok m) ↔ OutsideFatalWindows l a := by
  cases a with
  | link a =>
    obtain ⟨m, hm, _⟩ := h.raise a
    exact iff_of_true ⟨m, hm⟩ fun speedData hs => by cases hs
  | speedEvent speedData =>
    constructor
    · rintro ⟨m, hm⟩ v hv
      refine Link.not_hvxFatal_iff.mp fun fatal => ?_
      obtain ⟨c, hc⟩ := h.speedEvent_fatal fatal speedData
      cases hc.symm.trans hm
    · intro outside
      obtain ⟨m, hm, _⟩ := h.speedEvent_ok
        (Link.not_hvxFatal_iff.mpr (outside speedData rfl)) speedData
      exact ⟨m, hm⟩

theorem reportStep_agree {l m : SpeedLink} (h : l.Agree) {a : ReportAction}
    (outside : OutsideFatalWindows l a) (step : reportStep l a = .ok m) : m.Agree := by
  cases a with
  | link a =>
    obtain ⟨n, hn, hagree, _⟩ := h.raise a
    exact Except.ok.inj (hn.symm.trans step) ▸ hagree
  | speedEvent speedData =>
    obtain ⟨n, hn, hagree, _⟩ := h.speedEvent_ok
      (Link.not_hvxFatal_iff.mpr (outside speedData rfl)) speedData
    exact Except.ok.inj (hn.symm.trans step) ▸ hagree

/-- A run is free of fatal reports exactly when every report falls outside the two windows. -/
theorem no_report_fatal_iff (valueHandle : UInt16) (as : List ReportAction) :
    (∃ l, runHalting reportStep (SpeedLink.boot valueHandle) as = .ok l) ↔
      EveryLiveStep reportStep OutsideFatalWindows (SpeedLink.boot valueHandle) as := by
  rw [runHalting_ok_iff]
  exact everyLiveStep_congr (boot_agree valueHandle)
    (fun _ _ _ h outside step => reportStep_agree h outside step)
    (fun _ a h => reportStep_ok_iff h a) as

theorem early_report_fatal :
    ¬∀ (valueHandle : UInt16) (as : List ReportAction),
      ∃ l, runHalting reportStep (SpeedLink.boot valueHandle) as = .ok l := by
  intro h
  have halts : runHalting reportStep (SpeedLink.boot 12)
      [.link (.connected 0 ⟨24, 40, 0, 400⟩ 7), .speedEvent 12] =
        .error bleErrorGattsSysAttrMissing := rfl
  obtain ⟨l, hl⟩ := h 12 _
  cases halts.symm.trans hl

end BleSpeedSensor
