import BleSpeedSensor.DigitText
import BleSpeedSensor.PrintfOutput

namespace BleSpeedSensor

open DigitText

def digitChar (d : Nat) : UInt8 := aV2C.getD d 0

/-- How many digits of a base a weight of 32 bits allows. -/
def PrintBase.maxDigits : PrintBase → Nat
  | .ten => 10
  | .sixteen => 8

def digitChars (base : PrintBase) (numDigits v : Nat) : List UInt8 :=
  (digitText base.val numDigits v).map digitChar

def unsignedText (base : PrintBase) (v numDigits fieldWidth : Nat) (flags : FormatFlags) :
    List UInt8 :=
  let digits := digitChars base numDigits v
  let fill := fieldWidth - digits.length
  if flags.leftJustify then digits ++ List.replicate fill charSpace
  else
    List.replicate fill (if flags.padZero ∧ numDigits = 0 then charZero else charSpace) ++ digits

def intText (base : PrintBase) (v : Int) (numDigits fieldWidth : Nat) (flags : FormatFlags) :
    List UInt8 :=
  let sign := signChars v flags
  let digits := digitChars base numDigits v.natAbs
  let fill := fieldWidth - (sign.length + digits.length)
  if flags.leftJustify then sign ++ (digits ++ List.replicate fill charSpace)
  else if flags.padZero ∧ numDigits = 0 then sign ++ (List.replicate fill charZero ++ digits)
  else List.replicate fill charSpace ++ (sign ++ digits)

section Numbers

variable {sink : RttSink} {base : PrintBase} {p q : PrintfDesc} {v numDigits : Nat}

theorem numberWidth_eq (base : PrintBase) (v : Nat) :
    numberWidth base v = max 1 (Nat.digits base.val v).length := by
  induction v using Nat.strongRecOn with
  | ind v ih =>
    have hb := base.one_lt
    rw [numberWidth]
    by_cases hle : base.val ≤ v
    · have hlt : v / base.val < v := Nat.div_lt_self (by omega) hb
      rw [if_pos hle, ih _ hlt, digits_length_of_le hb hle]
      have hpos : 0 < v / base.val := Nat.div_pos hle (by omega)
      have hne : (Nat.digits base.val (v / base.val)).length ≠ 0 := by
        rw [Ne, List.length_eq_zero_iff]
        exact Nat.digits_ne_nil_iff_ne_zero.mpr (Nat.ne_of_gt hpos)
      omega
    · rw [if_neg hle, digits_length_of_lt hb (Nat.lt_of_not_le hle)]

theorem width_eq (base : PrintBase) (v numDigits : Nat) :
    (if numberWidth base v < numDigits then numDigits else numberWidth base v) =
      (digitChars base numDigits v).length := by
  rw [numberWidth_eq, digitChars, List.length_map, length_digitText]
  split <;> omega

theorem digits_length_le (base : PrintBase) (hv : v < 4294967296) :
    (Nat.digits base.val v).length ≤ base.maxDigits := by
  rw [Nat.digits_length_le_iff base.one_lt]
  refine Nat.lt_of_lt_of_le hv ?_
  cases base <;> decide

theorem weight_lt {k : Nat} (hk : k < base.maxDigits) : base.val ^ k < 4294967296 := by
  refine Nat.lt_of_le_of_lt (Nat.pow_le_pow_right (Nat.zero_lt_of_lt base.one_lt)
    (Nat.le_sub_one_of_lt hk)) ?_
  cases base <;> decide

theorem weightLoop_cons (base : PrintBase) (v rounds digit : Nat) (numDigits : Int) :
    weightLoop base v (rounds + 1) digit numDigits =
      if digit = 0 then .error .divisionByZero
      else if numDigits = -2147483648 then .error .signedOverflow
      else if base.val ≤ v / digit ∨ 1 < numDigits then
        weightLoop base v rounds (digit * base.val % 4294967296) (numDigits - 1)
      else .ok digit := rfl

/-- The weight of the first digit, round by round. -/
theorem weightLoop_eq {k rounds j : Nat} (hk : k + 1 = max (max numDigits 1)
      (Nat.digits base.val v).length) (hmax : k < base.maxDigits) (hj : j ≤ k)
    (hrounds : k - j < rounds) :
    weightLoop base v rounds (base.val ^ j) ((numDigits : Int) - j) = .ok (base.val ^ k) := by
  have hten : base.maxDigits ≤ 10 := by cases base <;> decide
  induction rounds generalizing j with
  | zero => exact absurd hrounds (Nat.not_lt_zero _)
  | succ rounds ih =>
    have hpos : base.val ^ j ≠ 0 := Nat.ne_of_gt (Nat.pow_pos (Nat.zero_lt_of_lt base.one_lt))
    have hmore := @base_le_div_iff base.val j v base.one_lt
    rw [weightLoop_cons, if_neg hpos, if_neg (by omega)]
    rcases Nat.lt_or_ge j k with hlt | hge
    · have hnext : (numDigits : Int) - j - 1 = (numDigits : Int) - (j + 1 : Nat) := by omega
      have hweight : base.val ^ j * base.val % 4294967296 = base.val ^ (j + 1) := by
        rw [← Nat.pow_succ]
        exact Nat.mod_eq_of_lt (weight_lt (by omega))
      rw [if_pos (by rw [hmore]; omega), hweight, hnext]
      exact ih hlt (by omega)
    · obtain rfl : j = k := Nat.le_antisymm hj hge
      rw [if_neg (by rw [hmore]; omega)]

theorem aV2C_digit {d : Nat} (h : d < base.val) : aV2C[d]? = some (digitChar d) := by
  have hlt : d < aV2C.length := Nat.lt_of_lt_of_le h (by cases base <;> decide)
  rw [digitChar, List.getD_eq_getElem?_getD, List.getElem?_eq_getElem hlt]
  rfl

/-- From the weight `base ^ k` down the digits are those that are peeled off. -/
theorem outputLoop_eq {k : Nat} (hv : v < base.val ^ (k + 1)) (p : PrintfDesc) :
    outputLoop sink base p v (base.val ^ k) =
      .ok (storeWhile sink ((peel base.val (k + 1) v).map digitChar) p) := by
  have hpos : 0 < base.val := Nat.zero_lt_of_lt base.one_lt
  induction k generalizing v p with
  | zero =>
    rw [Nat.zero_add, Nat.pow_one] at hv
    have hdigit := aV2C_digit hv
    have hone : 1 / base.val = 0 := Nat.div_eq_of_lt base.one_lt
    rw [outputLoop, Nat.pow_zero, Nat.div_one, hdigit]
    simp only [hone, if_true, peel, Nat.pow_zero, Nat.div_one, List.map_cons, List.map_nil,
      storeWhile_cons]
    split <;> rfl
  | succ k ih =>
    have hpow : 0 < base.val ^ (k + 1) := Nat.pow_pos hpos
    have hlt : v / base.val ^ (k + 1) < base.val := by
      rw [Nat.div_lt_iff_lt_mul hpow, Nat.mul_comm, ← Nat.pow_succ]
      exact hv
    have hdigit := aV2C_digit hlt
    have hweight : base.val ^ (k + 1) / base.val = base.val ^ k := by
      rw [Nat.pow_succ, Nat.mul_div_cancel _ hpos]
    have hrest : v - v / base.val ^ (k + 1) * base.val ^ (k + 1) = v % base.val ^ (k + 1) := by
      rw [Nat.mod_eq_sub_div_mul]
    have hne : base.val ^ k ≠ 0 := Nat.ne_of_gt (Nat.pow_pos hpos)
    rw [outputLoop, hdigit]
    simp only [hweight, hne, if_false, hrest]
    rw [peel, List.map_cons, storeWhile_cons]
    split
    · rfl
    · exact ih (Nat.mod_lt v hpow) _

/-- The digits of a number, when no more are asked for than the base allows. -/
theorem digits_output (hv : v < 4294967296) (hmax : numDigits ≤ base.maxDigits) (p : PrintfDesc) :
    ((weightLoop base v 33 1 (intOf numDigits)).bind fun digit => outputLoop sink base p v digit) =
      .ok (storeWhile sink (digitChars base numDigits v) p) := by
  have hlen := digits_length_le base hv
  have hten : base.maxDigits ≤ 10 ∧ 1 ≤ base.maxDigits := by cases base <;> decide
  obtain ⟨k, hk⟩ : ∃ k, k + 1 = max (max numDigits 1) (Nat.digits base.val v).length :=
    ⟨max (max numDigits 1) (Nat.digits base.val v).length - 1, by omega⟩
  have hint : intOf numDigits = (numDigits : Int) - (0 : Nat) := by
    unfold intOf
    rw [if_pos (by omega)]
    omega
  have hloop := @weightLoop_eq base v numDigits k 33 0 hk (by omega) (Nat.zero_le _) (by omega)
  have hlt : v < base.val ^ (k + 1) := (Nat.digits_length_le_iff base.one_lt v).mp (by omega)
  rw [Nat.pow_zero] at hloop
  rw [hint, hloop]
  show outputLoop sink base p v (base.val ^ k) = _
  rw [outputLoop_eq hlt p, digitChars, digitText_eq_peel base.one_lt hk]

/-- The leading field is stored, unless the number is to be on the left. -/
theorem printUnsigned_eq (hv : v < 4294967296) (hmax : numDigits ≤ base.maxDigits)
    (p : PrintfDesc) (fieldWidth : Nat) (flags : FormatFlags) {leading : Nat × PrintfDesc}
    (hleading : (if flags.leftJustify then (fieldWidth, p)
      else padLoop sink (if flags.padZero ∧ numDigits = 0 then charZero else charSpace)
        (digitChars base numDigits v).length fieldWidth p) = leading) :
    printUnsigned sink p v base numDigits fieldWidth flags =
      if leading.2.returnValue < 0 then .ok leading.2
      else .ok
        (let p := storeWhile sink (digitChars base numDigits v) leading.2
        if flags.leftJustify then
          (padLoop sink charSpace (digitChars base numDigits v).length leading.1 p).2
        else p) := by
  unfold printUnsigned
  rw [width_eq]
  dsimp only
  rw [hleading]
  by_cases hstop : leading.2.returnValue < 0
  · rw [if_pos hstop, if_pos hstop]
  · rw [if_neg hstop, if_neg hstop]
    have hdigits := @digits_output sink base v numDigits hv hmax leading.2
    cases hweight : weightLoop base v 33 1 (intOf numDigits) with
    | error e =>
      rw [hweight] at hdigits
      cases hdigits
    | ok digit =>
      rw [hweight] at hdigits
      have hout : outputLoop sink base leading.2 v digit =
          .ok (storeWhile sink (digitChars base numDigits v) leading.2) := hdigits
      show (outputLoop sink base leading.2 v digit).map _ = _
      rw [hout]
      rfl

theorem printUnsigned_stores (hp : p.Open) (hv : v < 4294967296)
    (hmax : numDigits ≤ base.maxDigits) (fieldWidth : Nat) (flags : FormatFlags) :
    ∃ q, printUnsigned sink p v base numDigits fieldWidth flags = .ok q ∧
      Stores sink p (unsignedText base v numDigits fieldWidth flags) q := by
  have heq := @printUnsigned_eq sink base v numDigits hv hmax p fieldWidth flags _ rfl
  unfold unsignedText
  cases hleft : flags.leftJustify with
  | true =>
    simp only [hleft, if_true, if_neg hp.running] at heq ⊢
    have hdigits : Stores sink p (digitChars base numDigits v)
        (storeWhile sink (digitChars base numDigits v) p) := Stores.stored
    refine ⟨_, heq, ?_⟩
    obtain hopen | hfailed := @PrintfDesc.Open.storeWhile sink p hp (digitChars base numDigits v)
    · rw [padLoop_stores]
      exact hdigits.trans hp hopen Stores.stored
    · obtain hsame | hagain := @PrintfDesc.Failed.padLoop sink _ charSpace hfailed
        (digitChars base numDigits v).length fieldWidth
      · rw [hsame]
        exact hdigits.stop hp hfailed.stopped _
      · rw [hagain]
        exact (Stores.again hfailed).stop hp (@PrintfDesc.Failed.store sink _ charSpace hfailed).1 _
  | false =>
    simp only [hleft, Bool.false_eq_true, if_false] at heq ⊢
    rw [padLoop_stores] at heq
    obtain hopen | hfailed := @PrintfDesc.Open.storeWhile sink p hp
      (List.replicate (fieldWidth - (digitChars base numDigits v).length)
        (if flags.padZero = true ∧ numDigits = 0 then charZero else charSpace))
    · rw [if_neg hopen.running] at heq
      exact ⟨_, heq, Stores.stored.trans hp hopen Stores.stored⟩
    · rw [if_pos hfailed.stopped] at heq
      exact ⟨_, heq, Stores.stored.stop hp hfailed.stopped _⟩

/-- A field that is no wider than its number is not filled. -/
theorem unsignedText_narrow {fieldWidth : Nat} {flags : FormatFlags}
    (h : fieldWidth ≤ (digitChars base numDigits v).length) :
    unsignedText base v numDigits fieldWidth flags = digitChars base numDigits v := by
  unfold unsignedText
  dsimp only
  rw [Nat.sub_eq_zero_of_le h]
  split
  · exact List.append_nil _
  · rfl

theorem signChars_stores (v : Int) (flags : FormatFlags) (p : PrintfDesc) :
    (signChars v flags).foldl (storeChar sink) p = storeWhile sink (signChars v flags) p := by
  unfold signChars
  split
  · exact (storeWhile_one _ p).symm
  · split
    · exact (storeWhile_one _ p).symm
    · rfl

/-- A sign takes a place of the field, if there is one. -/
theorem sign_width (v : Int) (flags : FormatFlags) (fieldWidth : Nat) :
    (if 0 < fieldWidth ∧ (v < 0 ∨ flags.printSign) then fieldWidth - 1 else fieldWidth) =
      fieldWidth - (signChars v flags).length := by
  unfold signChars
  by_cases hneg : v < 0
  · simp only [hneg, true_or, and_true, if_true, List.length_cons, List.length_nil]
    split <;> omega
  · cases flags.printSign with
    | true =>
      simp only [hneg, or_true, and_true, if_true, if_false, List.length_cons, List.length_nil]
      split <;> omega
    | false => simp [hneg]

theorem printInt_stores {i : Int} (hp : p.Open) (hi : -2147483648 < i ∧ i < 4294967296)
    (hmax : numDigits ≤ base.maxDigits) (fieldWidth : Nat) (flags : FormatFlags) :
    ∃ q, printInt sink p i base numDigits fieldWidth flags = .ok q ∧
      Stores sink p (intText base i numDigits fieldWidth flags) q := by
  have hv : i.natAbs < 4294967296 := by omega
  have hsign : ∀ {q : PrintfDesc}, Stores sink q (signChars i flags)
      ((signChars i flags).foldl (storeChar sink) q) :=
    fun {q} => Stores.of_eq (signChars_stores i flags q)
  have hfill : fieldWidth - ((signChars i flags).length + (digitChars base numDigits i.natAbs).length) =
      fieldWidth - (signChars i flags).length - (digitChars base numDigits i.natAbs).length :=
    Nat.sub_add_eq _ _ _
  unfold printInt intText
  rw [if_neg (Int.ne_of_gt hi.1)]
  dsimp only
  rw [width_eq, sign_width, hfill]
  cases hleft : flags.leftJustify with
  | true =>
    simp only [Bool.not_true, Bool.and_false, Bool.false_and, Bool.false_eq_true, if_true, if_false,
      if_neg hp.running]
    refine hsign.seq hp fun hq => ?_
    rw [if_neg hq.running]
    have hrest := @printUnsigned_stores sink base _ i.natAbs numDigits hq hv hmax
      (fieldWidth - (signChars i flags).length) flags
    simpa only [unsignedText, hleft, if_true] using hrest
  | false =>
    -- the field is used up by now, so that the digits are all that is left
    have hdigits : ∀ {q : PrintfDesc} {rest : Nat}, q.Open →
        rest ≤ (digitChars base numDigits i.natAbs).length →
        ∃ r, printUnsigned sink q i.natAbs base numDigits rest flags = .ok r ∧
          Stores sink q (digitChars base numDigits i.natAbs) r := by
      intro q rest hq hrest
      rw [← unsignedText_narrow hrest]
      exact printUnsigned_stores hq hv hmax rest flags
    by_cases hpad : flags.padZero = true ∧ numDigits = 0
    · obtain ⟨hzero, rfl⟩ := hpad
      simp only [hzero, if_true, if_neg hp.running, Bool.not_true, Bool.not_false, Bool.and_true,
        Bool.false_or, Bool.false_eq_true, if_false, ne_eq, not_true_eq_false, decide_false,
        decide_true, and_self]
      refine hsign.seq hp fun hq => ?_
      refine Stores.seq hq (Stores.of_eq (padLoop_stores _ _ _)) fun hr => ?_
      exact hdigits hr (padLoop_rest hr.running)
    · have hspaces : ((!flags.padZero || decide (numDigits ≠ 0)) && !false) = true := by
        cases hzero : flags.padZero <;> simp_all
      have hzeros : ¬ (flags.padZero && !false && decide (numDigits = 0)) = true := by
        cases hzero : flags.padZero <;> simp_all
      rw [if_pos hspaces, if_neg hzeros, if_neg hpad, if_neg Bool.false_ne_true]
      refine Stores.seq hp (Stores.of_eq (padLoop_stores _ _ _)) fun hq => ?_
      refine hsign.seq hq fun hr => ?_
      rw [if_neg hr.running]
      exact hdigits hr (padLoop_rest hq.running)

theorem returned_of_bind {α β : Type} {x : Except PrintfFault α} {f : α → Except PrintfFault β} {b : β}
    (h : x.bind f = .ok b) : ∃ a, x = .ok a ∧ f a = .ok b := by
  cases x with
  | error e => cases h
  | ok a => exact ⟨a, rfl, h⟩

theorem returned_of_map {α β : Type} {x : Except PrintfFault α} {f : α → β} {b : β}
    (h : x.map f = .ok b) : ∃ a, x = .ok a ∧ f a = b := by
  cases x with
  | error e => cases h
  | ok a => exact ⟨a, rfl, Except.ok.inj h⟩

/-- `Digit` stays a number of 32 bits. -/
theorem weightLoop_bound {rounds digit weight : Nat} {n : Int} (hdigit : digit < 4294967296)
    (h : weightLoop base v rounds digit n = .ok weight) : weight < 4294967296 := by
  induction rounds generalizing digit n with
  | zero => cases h
  | succ rounds ih =>
    rw [weightLoop_cons] at h
    split at h
    · cases h
    · split at h
      · cases h
      · split at h
        · exact ih (Nat.mod_lt _ (by decide)) h
        · cases h
          exact hdigit

/-- Either base being even, 32 rounds leave nothing of the product. -/
theorem weightLoop_ends {n : Int} : weightLoop base v 33 1 n ≠ .error .endless := by
  have hmain : ∀ (j : Nat) (n : Int), j ≤ 32 →
      weightLoop base v (33 - j) (base.val ^ j % 4294967296) n ≠ .error .endless := by
    intro j n hj
    induction hr : 32 - j generalizing j n with
    | zero =>
      obtain rfl : j = 32 := by omega
      have hzero : base.val ^ 32 % 4294967296 = 0 := by cases base <;> rfl
      rw [hzero, weightLoop_cons, if_pos rfl]
      nofun
    | succ r ih =>
      have hround : 33 - j = 33 - (j + 1) + 1 := by omega
      rw [hround, weightLoop_cons]
      split
      · nofun
      · split
        · nofun
        · split
          · rw [Nat.mod_mul_mod, ← Nat.pow_succ]
            exact ih (j + 1) _ (by omega) (by omega)
          · nofun
  exact hmain 0 n (Nat.zero_le _)

/-- The digits that are printed are as many as the weight has. -/
theorem outputLoop_length {digit : Nat} (h : outputLoop sink base p v digit = .ok q) :
    ∃ ds, q = storeWhile sink ds p ∧ ds.length ≤ max 1 (Nat.digits base.val digit).length := by
  have hb := base.one_lt
  induction digit using Nat.strongRecOn generalizing p v with
  | ind digit ih =>
    rw [outputLoop] at h
    cases hc : aV2C[v / digit]? with
    | none =>
      rw [hc] at h
      cases h
    | some c =>
      rw [hc] at h
      dsimp only at h
      split at h
      · cases h
        exact ⟨[c], (storeWhile_one c p).symm, Nat.le_max_left _ _⟩
      next hgo =>
        split at h
        · cases h
          exact ⟨[c], (storeWhile_one c p).symm, Nat.le_max_left _ _⟩
        next hmore =>
          have hle : base.val ≤ digit := by
            by_contra hlt
            exact hmore (Nat.div_eq_of_lt (Nat.lt_of_not_le hlt))
          have hless : digit / base.val < digit := Nat.div_lt_self (by omega) hb
          obtain ⟨ds, rfl, hds⟩ := ih _ hless h
          refine ⟨c :: ds, ?_, ?_⟩
          · rw [storeWhile_cons, if_neg hgo]
          · have hlen := digits_length_of_le hb hle
            have hne : (Nat.digits base.val (digit / base.val)).length ≠ 0 := by
              rw [Ne, List.length_eq_zero_iff]
              exact Nat.digits_ne_nil_iff_ne_zero.mpr hmore
            rw [List.length_cons]
            omega

theorem unsignedText_length (base : PrintBase) (v numDigits fieldWidth : Nat) (flags : FormatFlags) :
    (unsignedText base v numDigits fieldWidth flags).length =
      (fieldWidth - (digitChars base numDigits v).length) + (digitChars base numDigits v).length := by
  unfold unsignedText
  dsimp only
  split <;> simp [Nat.add_comm]

/-- Beyond the digits a weight allows, a number is printed too short, if the function returns. -/
theorem printUnsigned_short (htakes : TakesBlocks sink) (hp : p.Open)
    (hmax : base.maxDigits < numDigits) (fieldWidth : Nat) (flags : FormatFlags)
    (h : printUnsigned sink p v base numDigits fieldWidth flags = .ok q) :
    q.output.length < (p.output ++ unsignedText base v numDigits fieldWidth flags).length := by
  have hten : 1 ≤ base.maxDigits := by cases base <;> decide
  have hwide : numDigits ≤ (digitChars base numDigits v).length := by
    rw [digitChars, List.length_map, length_digitText]
    omega
  have hdigits : ∀ {p q : PrintfDesc} {weight : Nat}, p.Open →
      weightLoop base v 33 1 (intOf numDigits) = .ok weight →
      outputLoop sink base p v weight = .ok q →
      q.Open ∧ q.output.length ≤ p.output.length + base.maxDigits := by
    intro p q weight hp hweight hout
    obtain ⟨ds, rfl, hds⟩ := outputLoop_length hout
    have hlen := digits_length_le base (weightLoop_bound (by decide) hweight)
    obtain ⟨hopen, houtput⟩ := htakes.storeWhile hp ds
    refine ⟨hopen, ?_⟩
    rw [houtput, List.length_append]
    omega
  have hpad : ∀ {p : PrintfDesc} {c : UInt8} {width fieldWidth : Nat}, p.Open →
      (padLoop sink c width fieldWidth p).2.Open ∧
        (padLoop sink c width fieldWidth p).2.output.length = p.output.length + (fieldWidth - width) := by
    intro p c width fieldWidth hp
    rw [padLoop_stores]
    obtain ⟨hopen, houtput⟩ := htakes.storeWhile hp (List.replicate (fieldWidth - width) c)
    refine ⟨hopen, ?_⟩
    rw [houtput, List.length_append, List.length_replicate]
  rw [List.length_append, unsignedText_length]
  unfold printUnsigned at h
  rw [width_eq] at h
  dsimp only at h
  cases hleft : flags.leftJustify with
  | true =>
    simp only [hleft, if_true, if_neg hp.running] at h
    obtain ⟨weight, hweight, h⟩ := returned_of_bind h
    obtain ⟨r, hr, rfl⟩ := returned_of_map h
    obtain ⟨hopen, hlen⟩ := hdigits hp hweight hr
    have hlast := (@hpad r charSpace (digitChars base numDigits v).length fieldWidth hopen).2
    omega
  | false =>
    simp only [hleft, Bool.false_eq_true, if_false] at h
    obtain ⟨hopen, hlen⟩ := @hpad p (if flags.padZero = true ∧ numDigits = 0 then charZero else charSpace)
      (digitChars base numDigits v).length fieldWidth hp
    rw [if_neg hopen.running] at h
    obtain ⟨weight, hweight, h⟩ := returned_of_bind h
    obtain ⟨r, hr, rfl⟩ := returned_of_map h
    have hlast := (hdigits hopen hweight hr).2
    omega

/-- A number is printed as asked for exactly up to the digits a weight of 32 bits allows. -/
theorem printUnsigned_precision (htakes : TakesBlocks sink) (hp : p.Open) (hv : v < 4294967296)
    (fieldWidth : Nat) (flags : FormatFlags) :
    (∃ q, printUnsigned sink p v base numDigits fieldWidth flags = .ok q ∧
        q.output = p.output ++ unsignedText base v numDigits fieldWidth flags) ↔
      numDigits ≤ base.maxDigits := by
  constructor
  · rintro ⟨q, hq, houtput⟩
    by_contra hmax
    have hshort := printUnsigned_short htakes hp (Nat.lt_of_not_le hmax) fieldWidth flags hq
    rw [houtput] at hshort
    exact Nat.lt_irrefl _ hshort
  · intro hmax
    obtain ⟨q, hq, hstores⟩ := @printUnsigned_stores sink base p v numDigits hp hv hmax fieldWidth flags
    obtain ⟨-, rfl⟩ := hstores.of_takes htakes hp
    exact ⟨_, hq, (htakes.storeWhile hp _).2⟩

theorem printUnsigned_precision_eight : ∃ q,
    printUnsigned (fun _ b => b.length) ⟨[], 0, []⟩ 48879 .sixteen 8 10 ⟨false, true, false, false⟩ =
        .ok q ∧
      q.output = [] ++ unsignedText .sixteen 48879 8 10 ⟨false, true, false, false⟩ :=
  (@printUnsigned_precision (fun _ b => b.length) .sixteen ⟨[], 0, []⟩ 48879 8
    (fun _ _ _ => rfl) ⟨Int.le_refl 0, Nat.zero_lt_succ 63⟩ (by decide) 10
    ⟨false, true, false, false⟩).mpr (by decide)

end Numbers

end BleSpeedSensor
