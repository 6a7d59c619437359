namespace BleSpeedSensor

abbrev ErrCode := Nat

def nrfSuccess : ErrCode := 0
def nrfErrorNoMem : ErrCode := 4
def nrfErrorNotFound : ErrCode := 5
def nrfErrorInvalidParam : ErrCode := 7
def nrfErrorInvalidState : ErrCode := 8
def nrfErrorInvalidLength : ErrCode := 9
def nrfErrorDataSize : ErrCode := 12
def nrfErrorBusy : ErrCode := 17
def bleErrorInvalidConnHandle : ErrCode := 0x3002
def bleErrorNoTxBuffers : ErrCode := 0x3004
def bleErrorGattsSysAttrMissing : ErrCode := 0x3401

/-- `app_error_handler` disables interrupts and loops forever: the run ends with its code. -/
def appErrorHandler {α : Type} (errorCode : ErrCode) : Except ErrCode α := .error errorCode

def appErrorCheck (errCode : ErrCode) : Except ErrCode Unit :=
  if errCode ≠ nrfSuccess then appErrorHandler errCode else .ok ()

def appErrorCheckBool (value : Bool) : Except ErrCode Unit :=
  if !value then appErrorHandler 0 else .ok ()

@[simp] theorem appErrorCheck_success : appErrorCheck nrfSuccess = .ok () := rfl

theorem ok_of_map {α β : Type} {x : Except ErrCode α} {f : α → β} {b : β}
    (h : x.map f = .ok b) : ∃ a, x = .ok a ∧ f a = b := by
  cases x with
  | error c => cases h
  | ok a => exact ⟨a, rfl, Except.ok.inj h⟩

theorem ok_of_bind {α β : Type} {x : Except ErrCode α} {f : α → Except ErrCode β} {b : β}
    (h : (x >>= f) = .ok b) : ∃ a, x = .ok a ∧ f a = .ok b := by
  cases x with
  | error c => cases h
  | ok a => exact ⟨a, rfl, h⟩

theorem map_ok_iff {α β : Type} {x : Except ErrCode α} {f : α → β} :
    (∃ b, x.map f = .ok b) ↔ ∃ a, x = .ok a := by
  cases x with
  | error c => exact iff_of_false (fun ⟨b, hb⟩ => by cases hb) fun ⟨a, ha⟩ => by cases ha
  | ok a => exact iff_of_true ⟨f a, rfl⟩ ⟨a, rfl⟩

theorem appErrorCheck_ok_iff {errCode : ErrCode} :
    (∃ u, appErrorCheck errCode = .ok u) ↔ errCode = nrfSuccess := by
  unfold appErrorCheck
  split
  next hbad => exact iff_of_false (fun ⟨_, hu⟩ => by cases hu) hbad
  next hok => exact iff_of_true ⟨(), rfl⟩ (by simpa using hok)

end BleSpeedSensor
