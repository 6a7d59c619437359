import BleSpeedSensor.SeggerRtt

namespace BleSpeedSensor

def seggerRttPrintfBufferSize : Nat := 64

/-- Where the function does what C leaves undefined. -/
inductive PrintfFault
  | pastTerminator
  | noArgument
  | signedOverflow
  | divisionByZero
  | digitTable
  | endless
  deriving DecidableEq, Repr

/-- `SEGGER_RTT_PRINTF_DESC`: the characters in the buffer, and the blocks handed to `SEGGER_RTT_Write`
so far. -/
structure PrintfDesc where
  buffer : List UInt8
  returnValue : Int
  written : List (List UInt8)
  deriving DecidableEq, Repr

/-- `SEGGER_RTT_Write` on the chosen buffer: of a block the number of bytes stored, which may depend
on what was written before. -/
abbrev RttSink := List (List UInt8) → List UInt8 → Nat

/-- The block is handed over; unless all of it is stored it stays in the buffer. -/
def PrintfDesc.flush (sink : RttSink) (p : PrintfDesc) : PrintfDesc :=
  if sink p.written p.buffer ≠ p.buffer.length then
    { p with written := p.written ++ [p.buffer], returnValue := -1 }
  else { p with written := p.written ++ [p.buffer], buffer := [] }

def storeChar (sink : RttSink) (p : PrintfDesc) (c : UInt8) : PrintfDesc :=
  let p := if p.buffer.length + 1 ≤ seggerRttPrintfBufferSize then
      { p with buffer := p.buffer ++ [c], returnValue := p.returnValue + 1 }
    else p
  if p.buffer.length = seggerRttPrintfBufferSize then p.flush sink else p

/-- The `Base` of the calls in the file. -/
inductive PrintBase
  | ten
  | sixteen
  deriving DecidableEq, Repr

def PrintBase.val : PrintBase → Nat
  | .ten => 10
  | .sixteen => 16

theorem PrintBase.one_lt (base : PrintBase) : 1 < base.val := by cases base <;> decide

structure FormatFlags where
  leftJustify : Bool
  padZero : Bool
  printSign : Bool
  alternate : Bool
  deriving DecidableEq, Repr

/-- The characters `0` to `9` and `A` to `F`. -/
def aV2C : List UInt8 := [48, 49, 50, 51, 52, 53, 54, 55, 56, 57, 65, 66, 67, 68, 69, 70]

def charZero : UInt8 := 48
def charSpace : UInt8 := 32
def charMinus : UInt8 := 45
def charPlus : UInt8 := 43
def charHash : UInt8 := 35
def charPoint : UInt8 := 46
def charPercent : UInt8 := 37

/-- An `unsigned` taken as an `int`. -/
def intOf (n : Nat) : Int := if n < 2147483648 then n else n - 4294967296

def numberWidth (base : PrintBase) (number : Nat) : Nat :=
  if base.val ≤ number then numberWidth base (number / base.val) + 1 else 1
  termination_by number
  decreasing_by exact Nat.div_lt_self (Nat.lt_of_lt_of_le (Nat.zero_lt_of_lt base.one_lt) ‹_›) base.one_lt

/-- The loops that fill a field: what is left of `FieldWidth`, and a return on a failed write. -/
def padLoop (sink : RttSink) (c : UInt8) (width : Nat) : Nat → PrintfDesc → Nat × PrintfDesc
  | 0, p => (0, p)
  | fieldWidth + 1, p =>
    if width < fieldWidth + 1 then
      let p := storeChar sink p c
      if p.returnValue < 0 then (fieldWidth, p) else padLoop sink c width fieldWidth p
    else (fieldWidth, p)

/-- The weight of the first digit. Either base being even, the product of 32 bits is zero after 32
rounds at the latest. -/
def weightLoop (base : PrintBase) (v : Nat) : Nat → Nat → Int → Except PrintfFault Nat
  | 0, _, _ => .error .endless
  | rounds + 1, digit, numDigits =>
    if digit = 0 then .error .divisionByZero
    else if numDigits = -2147483648 then .error .signedOverflow
    else if base.val ≤ v / digit ∨ 1 < numDigits then
      weightLoop base v rounds (digit * base.val % 4294967296) (numDigits - 1)
    else .ok digit

def outputLoop (sink : RttSink) (base : PrintBase) (p : PrintfDesc) (v digit : Nat) :
    Except PrintfFault PrintfDesc :=
  let div := v / digit
  match aV2C[div]? with
  | none => .error .digitTable
  | some c =>
    let p := storeChar sink p c
    if p.returnValue < 0 then .ok p
    else if digit / base.val = 0 then .ok p
    else outputLoop sink base p (v - div * digit) (digit / base.val)
  termination_by digit
  decreasing_by exact Nat.div_lt_self (Nat.pos_of_ne_zero (by rintro rfl; simp_all)) base.one_lt

def printUnsigned (sink : RttSink) (p : PrintfDesc) (v : Nat) (base : PrintBase)
    (numDigits fieldWidth : Nat) (flags : FormatFlags) : Except PrintfFault PrintfDesc :=
  let width := if numberWidth base v < numDigits then numDigits else numberWidth base v
  let c := if flags.padZero ∧ numDigits = 0 then charZero else charSpace
  let leading := if flags.leftJustify then (fieldWidth, p) else padLoop sink c width fieldWidth p
  let fieldWidth := leading.1
  let p := leading.2
  if p.returnValue < 0 then .ok p
  else (weightLoop base v 33 1 (intOf numDigits)).bind fun digit =>
    -- after a failed write the digits stop, but the trailing spaces are begun
    (outputLoop sink base p v digit).map fun p =>
      if flags.leftJustify then (padLoop sink charSpace width fieldWidth p).2 else p

/-- The sign, if there is one to print. -/
def signChars (v : Int) (flags : FormatFlags) : List UInt8 :=
  if v < 0 then [charMinus] else if flags.printSign then [charPlus] else []

def printInt (sink : RttSink) (p : PrintfDesc) (v : Int) (base : PrintBase)
    (numDigits fieldWidth : Nat) (flags : FormatFlags) : Except PrintfFault PrintfDesc :=
  if v = -2147483648 then .error .signedOverflow
  else
    let number := v.natAbs
    let width := if numberWidth base number < numDigits then numDigits else numberWidth base number
    let fieldWidth :=
      if 0 < fieldWidth ∧ (v < 0 ∨ flags.printSign) then fieldWidth - 1 else fieldWidth
    let spaces := if (!flags.padZero || numDigits ≠ 0) && !flags.leftJustify then
        padLoop sink charSpace width fieldWidth p
      else (fieldWidth, p)
    if spaces.2.returnValue < 0 then .ok spaces.2
    else
      let p := (signChars v flags).foldl (storeChar sink) spaces.2
      if p.returnValue < 0 then .ok p
      else
        let zeros := if flags.padZero && !flags.leftJustify && numDigits = 0 then
            padLoop sink charZero width spaces.1 p
          else (spaces.1, p)
        if zeros.2.returnValue < 0 then .ok zeros.2
        else printUnsigned sink zeros.2 number base numDigits zeros.1 flags

/-- What stands behind a `%`. -/
structure Directive where
  flags : FormatFlags
  fieldWidth : Nat
  numDigits : Nat
  specifier : UInt8
  deriving DecidableEq, Repr

def filterFlags : List UInt8 → FormatFlags → FormatFlags × List UInt8
  | [], flags => (flags, [])
  | c :: s, flags =>
    if c = charMinus then filterFlags s { flags with leftJustify := true }
    else if c = charZero then filterFlags s { flags with padZero := true }
    else if c = charPlus then filterFlags s { flags with printSign := true }
    else if c = charHash then filterFlags s { flags with alternate := true }
    else (flags, c :: s)

def isDigit (c : UInt8) : Bool := charZero ≤ c && c ≤ 57

/-- A number of `unsigned`, which wraps. -/
def filterNumber : List UInt8 → Nat → Nat × List UInt8
  | [], n => (n, [])
  | c :: s, n =>
    if isDigit c then filterNumber s ((n * 10 + (c.toNat - 48)) % 4294967296) else (n, c :: s)

def filterPrecision (s : List UInt8) : Nat × List UInt8 :=
  if s.head? = some charPoint then filterNumber s.tail 0 else (0, s)

def isModifier (c : UInt8) : Bool := c = 108 || c = 104

/-- The loop takes `c` from behind `sFormat`: with a modifier it ends with the pointer behind the
specifier, without one at it. -/
def modifierLoop : List UInt8 → UInt8 × Option (List UInt8)
  | [] => (0, none)
  | c :: s => if isModifier c then modifierLoop s else (c, some s)

def filterModifiers : List UInt8 → UInt8 × Option (List UInt8)
  | [] => (0, some [])
  | c :: s => if isModifier c then modifierLoop (c :: s) else (c, some (c :: s))

/-- `sFormat++`; behind the terminator nothing may be read. -/
def advanceFormat : List UInt8 → Option (List UInt8)
  | [] => none
  | _ :: s => some s

/-- The directive behind a `%`, and where the format goes on. -/
def directive (s : List UInt8) : Directive × Option (List UInt8) :=
  let flags := filterFlags s ⟨false, false, false, false⟩
  let fieldWidth := filterNumber flags.2 0
  let numDigits := filterPrecision fieldWidth.2
  let specifier := filterModifiers numDigits.2
  (⟨flags.1, fieldWidth.1, numDigits.1, specifier.1⟩, specifier.2.bind advanceFormat)

/-- An argument: a word, or a pointer to a string with what is in memory up to its terminator. -/
inductive PrintfArg
  | word (v : UInt32)
  | string (s : List UInt8)
  deriving DecidableEq, Repr

def vaArgInt : List PrintfArg → Except PrintfFault (Nat × List PrintfArg)
  | .word v :: args => .ok (v.toNat, args)
  | _ => .error .noArgument

def vaArgString : List PrintfArg → Except PrintfFault (List UInt8 × List PrintfArg)
  | .string s :: args => .ok (s, args)
  | _ => .error .noArgument

def storeString (sink : RttSink) : List UInt8 → PrintfDesc → PrintfDesc
  | [], p => p
  | c :: s, p =>
    if c = 0 then p
    else
      let p := storeChar sink p c
      if p.returnValue < 0 then p else storeString sink s p

/-- The specifiers; any other character prints nothing. -/
def handleSpecifier (sink : RttSink) (p : PrintfDesc) (d : Directive) (args : List PrintfArg) :
    Except PrintfFault (PrintfDesc × List PrintfArg) :=
  if d.specifier = 99 then
    (vaArgInt args).map fun r => (storeChar sink p (UInt8.ofNat r.1), r.2)
  else if d.specifier = 100 then
    (vaArgInt args).bind fun r =>
      (printInt sink p (intOf r.1) .ten d.numDigits d.fieldWidth d.flags).map fun p => (p, r.2)
  else if d.specifier = 117 then
    (vaArgInt args).bind fun r =>
      (printUnsigned sink p r.1 .ten d.numDigits d.fieldWidth d.flags).map fun p => (p, r.2)
  else if d.specifier = 120 ∨ d.specifier = 88 then
    (vaArgInt args).bind fun r =>
      (printUnsigned sink p r.1 .sixteen d.numDigits d.fieldWidth d.flags).map fun p => (p, r.2)
  else if d.specifier = 115 then
    (vaArgString args).map fun r => (storeString sink r.1 p, r.2)
  else if d.specifier = 112 then
    (vaArgInt args).bind fun r =>
      (printUnsigned sink p r.1 .sixteen 8 8 ⟨false, false, false, false⟩).map fun p => (p, r.2)
  else if d.specifier = charPercent then .ok (storeChar sink p charPercent, args)
  else .ok (p, args)

theorem filterFlags_length (s : List UInt8) (flags : FormatFlags) :
    (filterFlags s flags).2.length ≤ s.length := by
  induction s generalizing flags with
  | nil => exact Nat.le_refl _
  | cons c s ih =>
    unfold filterFlags
    split
    · exact Nat.le_succ_of_le (ih _)
    · split
      · exact Nat.le_succ_of_le (ih _)
      · split
        · exact Nat.le_succ_of_le (ih _)
        · split
          · exact Nat.le_succ_of_le (ih _)
          · exact Nat.le_refl _

theorem filterNumber_length (s : List UInt8) (n : Nat) :
    (filterNumber s n).2.length ≤ s.length := by
  induction s generalizing n with
  | nil => exact Nat.le_refl _
  | cons c s ih =>
    unfold filterNumber
    split
    · exact Nat.le_succ_of_le (ih _)
    · exact Nat.le_refl _

theorem filterPrecision_length (s : List UInt8) : (filterPrecision s).2.length ≤ s.length := by
  unfold filterPrecision
  split
  · have htail : s.tail.length ≤ s.length := by
      rw [List.length_tail]
      exact Nat.sub_le _ _
    exact Nat.le_trans (filterNumber_length _ _) htail
  · exact Nat.le_refl _

theorem modifierLoop_length {s t : List UInt8} (h : (modifierLoop s).2 = some t) :
    t.length ≤ s.length := by
  induction s with
  | nil => cases h
  | cons c s ih =>
    unfold modifierLoop at h
    split at h
    · exact Nat.le_succ_of_le (ih h)
    · cases h
      exact Nat.le_succ _

theorem filterModifiers_length {s t : List UInt8} (h : (filterModifiers s).2 = some t) :
    t.length ≤ s.length := by
  cases s with
  | nil =>
    cases h
    exact Nat.le_refl _
  | cons c s =>
    simp only [filterModifiers] at h
    split at h
    · exact modifierLoop_length h
    · cases h
      exact Nat.le_refl _

theorem directive_length {s t : List UInt8} (h : (directive s).2 = some t) : t.length ≤ s.length := by
  unfold directive at h
  obtain ⟨u, hu, ht⟩ := Option.bind_eq_some_iff.mp h
  have hstep : t.length ≤ u.length := by
    cases u with
    | nil => cases ht
    | cons c u =>
      cases ht
      exact Nat.le_succ _
  refine Nat.le_trans hstep (Nat.le_trans (filterModifiers_length hu) ?_)
  exact Nat.le_trans (filterPrecision_length _)
    (Nat.le_trans (filterNumber_length _ _) (filterFlags_length _ _))

/-- The loop over the format, its characters up to the terminator and none of them 0, until a write
fails. -/
def vprintfLoop (sink : RttSink) (s : List UInt8) (args : List PrintfArg) (p : PrintfDesc) :
    Except PrintfFault PrintfDesc :=
  match s with
  | [] => .ok p
  | c :: s =>
    if c = charPercent then
      (handleSpecifier sink p (directive s).1 args).bind fun r =>
        if r.1.returnValue < 0 then .ok r.1
        else match _h : (directive s).2 with
          | none => .error .pastTerminator
          | some t => vprintfLoop sink t r.2 r.1
    else
      let p := storeChar sink p c
      if p.returnValue < 0 then .ok p else vprintfLoop sink s args p
  termination_by s.length
  decreasing_by
    · exact Nat.lt_succ_of_le (directive_length ‹_›)
    · exact Nat.lt_succ_self _

/-- `SEGGER_RTT_vprintf`: its result and the blocks it has handed to `SEGGER_RTT_Write`. What the last
one, of the characters left in the buffer, comes to is not looked at. -/
def seggerRttVprintf (sink : RttSink) (sFormat : List UInt8) (args : List PrintfArg) :
    Except PrintfFault (Int × List (List UInt8)) :=
  (vprintfLoop sink sFormat args ⟨[], 0, []⟩).map fun p =>
    if 0 < p.returnValue then
      (p.returnValue + p.buffer.length,
        if p.buffer ≠ [] then p.written ++ [p.buffer] else p.written)
    else (p.returnValue, p.written)

end BleSpeedSensor
