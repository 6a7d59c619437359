import BleSpeedSensor.PrintfNumbers

namespace BleSpeedSensor

open DigitText

inductive FormatFlag
  | leftJustify
  | padZero
  | printSign
  | alternate
  deriving DecidableEq, Repr

def FormatFlag.char : FormatFlag → UInt8
  | .leftJustify => charMinus
  | .padZero => charZero
  | .printSign => charPlus
  | .alternate => charHash

def FormatFlag.set : FormatFlag → FormatFlags → FormatFlags
  | .leftJustify, flags => { flags with leftJustify := true }
  | .padZero, flags => { flags with padZero := true }
  | .printSign, flags => { flags with printSign := true }
  | .alternate, flags => { flags with alternate := true }

def isFlag (c : UInt8) : Bool := c = charMinus || c = charZero || c = charPlus || c = charHash

def isSpecifier (c : UInt8) : Bool :=
  c = 99 || c = 100 || c = 117 || c = 120 || c = 88 || c = 115 || c = 112 || c = charPercent

/-- The specifiers, and the characters that stand for none. -/
inductive Specifier
  | c
  | d
  | u
  | x
  | X
  | s
  | p
  | percent
  | other (char : UInt8) (plain : isFlag char = false ∧ isDigit char = false ∧
      char ≠ charPoint ∧ isModifier char = false ∧ isSpecifier char = false)

def Specifier.char : Specifier → UInt8
  | .c => 99
  | .d => 100
  | .u => 117
  | .x => 120
  | .X => 88
  | .s => 115
  | .p => 112
  | .percent => charPercent
  | .other char _ => char

/-- `%[flags][FieldWidth][.Precision]ConversionSpecifier`. A field width does not begin with `0`, which
is a flag. -/
structure Conversion where
  flags : List FormatFlag
  fieldWidth : List (Fin 10)
  precision : Option (List (Fin 10))
  specifier : Specifier
  fieldWidth_head : fieldWidth.head? ≠ some 0

def numberChars (ds : List (Fin 10)) : List UInt8 := ds.map fun d => UInt8.ofNat (48 + d.val)

def decimal (ds : List (Fin 10)) : Nat := Nat.ofDigits 10 (ds.map Fin.val).reverse

/-- A number is read into 32 bits. -/
def numberValue (ds : List (Fin 10)) : Nat := decimal ds % 4294967296

def precisionChars : Option (List (Fin 10)) → List UInt8
  | none => []
  | some ds => charPoint :: numberChars ds

def precisionValue : Option (List (Fin 10)) → Nat
  | none => 0
  | some ds => numberValue ds

def Conversion.directive (conv : Conversion) : Directive where
  flags := conv.flags.foldl (fun flags flag => flag.set flags) ⟨false, false, false, false⟩
  fieldWidth := numberValue conv.fieldWidth
  numDigits := precisionValue conv.precision
  specifier := conv.specifier.char

/-- What stands between the `%` and the specifier. -/
def Conversion.options (conv : Conversion) : List UInt8 :=
  conv.flags.map FormatFlag.char ++ (numberChars conv.fieldWidth ++ precisionChars conv.precision)

/-- A format: characters that stand for themselves, and conversions. -/
inductive FormatItem
  | char (c : UInt8) (plain : c ≠ charPercent)
  | conversion (conv : Conversion)

def FormatItem.render : FormatItem → List UInt8
  | .char c _ => [c]
  | .conversion conv => charPercent :: (conv.options ++ [conv.specifier.char])

def renderFormat (items : List FormatItem) : List UInt8 := items.flatMap FormatItem.render

/-- What the function prints for a conversion and the arguments it leaves; nothing where no argument of
its kind is there, or where it asks for more than the function can print. A character, a string and a
pointer fill no field. -/
def Conversion.printed (conv : Conversion) (args : List PrintfArg) :
    Option (List UInt8 × List PrintfArg) :=
  let d := conv.directive
  match conv.specifier, args with
  | .c, .word v :: args => some ([UInt8.ofNat v.toNat], args)
  | .d, .word v :: args =>
    if v = 2147483648 ∨ 10 < d.numDigits then none
    else some (intText .ten (intOf v.toNat) d.numDigits d.fieldWidth d.flags, args)
  | .u, .word v :: args =>
    if 10 < d.numDigits then none
    else some (unsignedText .ten v.toNat d.numDigits d.fieldWidth d.flags, args)
  | .x, .word v :: args | .X, .word v :: args =>
    if 8 < d.numDigits then none
    else some (unsignedText .sixteen v.toNat d.numDigits d.fieldWidth d.flags, args)
  | .s, .string s :: args => some (s.takeWhile (· ≠ 0), args)
  | .p, .word v :: args => some (digitChars .sixteen 8 v.toNat, args)
  | .percent, args => some ([charPercent], args)
  | .other _ _, args => some ([], args)
  | _, _ => none

def Conversion.width (conv : Conversion) : Nat := decimal conv.fieldWidth

/-- A conversion without a precision asks for no digits. -/
def Conversion.digits (conv : Conversion) : Nat := (conv.precision.map decimal).getD 0

/-- The flag `0` is ignored beside a precision. -/
def Conversion.documentedFlags (conv : Conversion) : FormatFlags :=
  { conv.directive.flags with padZero := conv.directive.flags.padZero && conv.precision.isNone }

/-- A text in its field, on the left of it with the flag `-`. -/
def Conversion.inField (conv : Conversion) (text : List UInt8) : List UInt8 :=
  let spaces := List.replicate (conv.width - text.length) charSpace
  if conv.documentedFlags.leftJustify then text ++ spaces else spaces ++ text

/-- The text a conversion is documented to print. The flag `#`, a precision of what is no number and any
other specifier are not documented; `X` is taken as `x`, and `%` as a character. -/
def Conversion.documented (conv : Conversion) (args : List PrintfArg) :
    Option (List UInt8 × List PrintfArg) :=
  let flags := conv.documentedFlags
  if flags.alternate then none
  else match conv.specifier, conv.precision, args with
  | .c, none, .word v :: args => some (conv.inField [UInt8.ofNat v.toNat], args)
  | .d, _, .word v :: args => some (intText .ten (intOf v.toNat) conv.digits conv.width flags, args)
  | .u, _, .word v :: args => some (unsignedText .ten v.toNat conv.digits conv.width flags, args)
  | .x, _, .word v :: args | .X, _, .word v :: args =>
    some (unsignedText .sixteen v.toNat conv.digits conv.width flags, args)
  | .s, none, .string s :: args => some (conv.inField (s.takeWhile (· ≠ 0)), args)
  | .p, none, .word v :: args => some (conv.inField (digitChars .sixteen 8 v.toNat), args)
  | .percent, none, args => some (conv.inField [charPercent], args)
  | _, _, _ => none

/-- Numbers are printed as documented up to the digits of a 32-bit weight, in a field of 32 bits, and
unless a precision of 0 should turn the flag `0` off. -/
def Conversion.numberKept (conv : Conversion) (base : PrintBase) : Bool :=
  conv.digits ≤ base.maxDigits && conv.width < 4294967296 &&
    (conv.precision.isNone || conv.digits ≠ 0 || !conv.directive.flags.padZero)

/-- Where the function follows its documentation. What is no number it prints without a field. -/
def Conversion.followed (conv : Conversion) (args : List PrintfArg) : Bool :=
  match conv.specifier, args with
  | .d, .word v :: _ => v ≠ 2147483648 && conv.numberKept .ten
  | .u, _ => conv.numberKept .ten
  | .x, _ | .X, _ => conv.numberKept .sixteen
  | .s, .string s :: _ => conv.width ≤ (s.takeWhile (· ≠ 0)).length
  | .p, _ => conv.width ≤ 8
  | _, _ => conv.width ≤ 1

def Conversion.text (conv : Conversion) (args : List PrintfArg) :
    Option (List UInt8 × List PrintfArg) :=
  if conv.followed args then conv.documented args else none

abbrev ConversionText := Conversion → List PrintfArg → Option (List UInt8 × List PrintfArg)

/-- The texts of the items, each with the arguments that those before it leave. -/
def itemsText (conversionText : ConversionText) :
    List FormatItem → List PrintfArg → Option (List UInt8 × List PrintfArg)
  | [], args => some ([], args)
  | .char c _ :: items, args => (itemsText conversionText items args).map fun r => (c :: r.1, r.2)
  | .conversion conv :: items, args =>
    (conversionText conv args).bind fun r =>
      (itemsText conversionText items r.2).map fun t => (r.1 ++ t.1, t.2)

abbrev printedText := itemsText Conversion.printed

/-- The documented text of a format. -/
abbrev formatText := itemsText Conversion.text

/-- A pointer takes the whole of its field. -/
theorem pointer_width (v : UInt32) : (digitChars .sixteen 8 v.toNat).length = 8 := by
  have hle := digits_length_le .sixteen v.toNat_lt
  rw [digitChars, List.length_map, length_digitText]
  exact Nat.max_eq_left hle

section Documented

variable {conv : Conversion} {args rest : List PrintfArg} {text : List UInt8}

theorem itemsText_of_conversions {f g : ConversionText} {items : List FormatItem}
    (h : ∀ {conv args r}, f conv args = some r → g conv args = some r)
    (hitems : itemsText f items args = some (text, rest)) :
    itemsText g items args = some (text, rest) := by
  induction items generalizing args text with
  | nil => exact hitems
  | cons item items ih =>
    cases item with
    | char c plain =>
      obtain ⟨⟨more, left⟩, hmore, heq⟩ := Option.map_eq_some_iff.mp hitems
      obtain ⟨rfl, rfl⟩ := Prod.mk.inj heq
      exact Option.map_eq_some_iff.mpr ⟨(more, left), ih hmore, rfl⟩
    | conversion conv =>
      obtain ⟨⟨first, middle⟩, hfirst, hrest⟩ := Option.bind_eq_some_iff.mp hitems
      obtain ⟨⟨more, left⟩, hmore, heq⟩ := Option.map_eq_some_iff.mp hrest
      obtain ⟨rfl, rfl⟩ := Prod.mk.inj heq
      refine Option.bind_eq_some_iff.mpr ⟨(first, middle), h hfirst, ?_⟩
      exact Option.map_eq_some_iff.mpr ⟨(more, left), ih hmore, rfl⟩

/-- A field that is filled needs no spaces. -/
theorem Conversion.inField_eq (h : conv.width ≤ text.length) : conv.inField text = text := by
  unfold inField
  dsimp only
  rw [Nat.sub_eq_zero_of_le h]
  split
  · exact List.append_nil _
  · rfl

/-- What a number is printed with, read into 32 bits, is then what is documented. -/
theorem Conversion.directive_kept {base : PrintBase} (h : conv.numberKept base = true) :
    conv.directive.numDigits = conv.digits ∧ conv.directive.fieldWidth = conv.width ∧
      conv.digits ≤ base.maxDigits ∧
      (conv.directive.flags.padZero = true ∧ conv.digits = 0 ↔
        conv.documentedFlags.padZero = true ∧ conv.digits = 0) := by
  simp only [numberKept, Bool.and_eq_true, decide_eq_true_eq] at h
  obtain ⟨⟨hdigits, hwidth⟩, hzero⟩ := h
  have hten : base.maxDigits ≤ 10 := by cases base <;> decide
  refine ⟨?_, Nat.mod_eq_of_lt hwidth, hdigits, ?_⟩
  · cases hp : conv.precision with
    | none => simp only [directive, digits, hp, precisionValue, Option.map_none, Option.getD_none]
    | some ds =>
      rw [digits, hp, Option.map_some, Option.getD_some] at hdigits
      simp only [directive, digits, hp, precisionValue, Option.map_some, Option.getD_some]
      exact Nat.mod_eq_of_lt (by omega)
  · unfold documentedFlags
    cases hpad : conv.directive.flags.padZero <;> cases hp : conv.precision <;> simp_all

theorem Conversion.unsigned_kept {base : PrintBase} (h : conv.numberKept base = true) (v : Nat) :
    (if base.maxDigits < conv.directive.numDigits then none
      else some (unsignedText base v conv.directive.numDigits conv.directive.fieldWidth
        conv.directive.flags, args)) =
      some (unsignedText base v conv.digits conv.width conv.documentedFlags, args) := by
  obtain ⟨hdigits, hwidth, hmax, hzero⟩ := directive_kept h
  rw [hdigits, hwidth, if_neg (Nat.not_lt.mpr hmax)]
  unfold unsignedText
  simp only [hzero]
  rfl

theorem Conversion.int_kept (h : conv.numberKept .ten = true) {v : UInt32} (hv : v ≠ 2147483648) :
    (if v = 2147483648 ∨ 10 < conv.directive.numDigits then none
      else some (intText .ten (intOf v.toNat) conv.directive.numDigits conv.directive.fieldWidth
        conv.directive.flags, args)) =
      some (intText .ten (intOf v.toNat) conv.digits conv.width conv.documentedFlags, args) := by
  obtain ⟨hdigits, hwidth, hmax, hzero⟩ := directive_kept h
  have hten : ¬ 10 < conv.digits := Nat.not_lt.mpr hmax
  rw [hdigits, hwidth, if_neg (not_or.mpr ⟨hv, hten⟩)]
  unfold intText
  simp only [hzero]
  rfl

/-- What is documented and followed is printed. -/
theorem Conversion.text_printed {r : List UInt8 × List PrintfArg} (h : conv.text args = some r) :
    conv.printed args = some r := by
  unfold text at h
  split at h
  next hfollowed =>
    unfold documented at h
    unfold followed at hfollowed
    unfold printed
    dsimp only at h ⊢
    split at h
    · cases h
    · split at h
      next hspecifier _ =>
        rw [hspecifier] at hfollowed ⊢
        rw [inField_eq (of_decide_eq_true hfollowed)] at h
        exact h
      next hspecifier =>
        rw [hspecifier] at hfollowed ⊢
        obtain ⟨hv, hkept⟩ := Bool.and_eq_true_iff.mp hfollowed
        exact (int_kept hkept (of_decide_eq_true hv)).trans h
      next hspecifier =>
        rw [hspecifier] at hfollowed ⊢
        exact (@unsigned_kept conv _ .ten hfollowed _).trans h
      next hspecifier =>
        rw [hspecifier] at hfollowed ⊢
        exact (@unsigned_kept conv _ .sixteen hfollowed _).trans h
      next hspecifier =>
        rw [hspecifier] at hfollowed ⊢
        exact (@unsigned_kept conv _ .sixteen hfollowed _).trans h
      next hspecifier _ =>
        rw [hspecifier] at hfollowed ⊢
        rw [inField_eq (of_decide_eq_true hfollowed)] at h
        exact h
      next v _ hspecifier _ =>
        rw [hspecifier] at hfollowed ⊢
        have hlen := pointer_width v
        rw [inField_eq (by rw [hlen]; exact of_decide_eq_true hfollowed)] at h
        exact h
      next hspecifier _ =>
        rw [hspecifier] at hfollowed ⊢
        rw [inField_eq (of_decide_eq_true hfollowed)] at h
        exact h
      · cases h
  · cases h

theorem formatText_printed {items : List FormatItem} (h : formatText items args = some (text, rest)) :
    printedText items args = some (text, rest) :=
  itemsText_of_conversions Conversion.text_printed h

end Documented

section Reading

variable {s t : List UInt8}

theorem filterFlags_chars (flags : List FormatFlag) (start : FormatFlags)
    (h : ∀ c ∈ s.head?, isFlag c = false) :
    filterFlags (flags.map FormatFlag.char ++ s) start =
      (flags.foldl (fun flags flag => flag.set flags) start, s) := by
  induction flags generalizing start with
  | nil =>
    cases s with
    | nil => rfl
    | cons c s =>
      have hc := h c rfl
      simp only [isFlag, Bool.or_eq_false_iff, decide_eq_false_iff_not] at hc
      obtain ⟨⟨⟨hminus, hzero⟩, hplus⟩, hhash⟩ := hc
      rw [List.map_nil, List.nil_append, List.foldl_nil, filterFlags, if_neg hminus, if_neg hzero,
        if_neg hplus, if_neg hhash]
  | cons flag flags ih =>
    rw [List.map_cons, List.cons_append, List.foldl_cons, ← ih]
    cases flag <;> rfl

theorem isDigit_number (d : Fin 10) : isDigit (UInt8.ofNat (48 + d.val)) = true := by
  revert d
  decide

theorem isFlag_number {d : Fin 10} (h : d ≠ 0) : isFlag (UInt8.ofNat (48 + d.val)) = false := by
  revert d
  decide

theorem numberChar_toNat (d : Fin 10) : (UInt8.ofNat (48 + d.val)).toNat - 48 = d.val := by
  revert d
  decide

theorem filterNumber_chars (ds : List (Fin 10)) (n : Nat) (h : ∀ c ∈ s.head?, isDigit c = false) :
    filterNumber (numberChars ds ++ s) n =
      (ds.foldl (fun n d => (n * 10 + d.val) % 4294967296) n, s) := by
  induction ds generalizing n with
  | nil =>
    cases s with
    | nil => rfl
    | cons c s =>
      have hc : ¬ isDigit c = true := by
        rw [h c rfl]
        exact Bool.false_ne_true
      rw [numberChars, List.map_nil, List.nil_append, List.foldl_nil, filterNumber, if_neg hc]
  | cons d ds ih =>
    rw [numberChars, List.map_cons, List.cons_append, filterNumber, if_pos (isDigit_number d),
      numberChar_toNat, List.foldl_cons]
    exact ih _

/-- Wrapping after every digit or once comes to the same. -/
theorem numberValue_eq (ds : List (Fin 10)) :
    ds.foldl (fun n d => (n * 10 + d.val) % 4294967296) 0 = numberValue ds := by
  have hmain : ∀ n, ds.foldl (fun n d => (n * 10 + d.val) % 4294967296) (n % 4294967296) =
      (Nat.ofDigits 10 (ds.map Fin.val).reverse + n * 10 ^ ds.length) % 4294967296 := by
    induction ds with
    | nil => simp
    | cons d ds ih =>
      intro n
      have hstep : (n % 4294967296 * 10 + d.val) % 4294967296 = (n * 10 + d.val) % 4294967296 := by
        omega
      rw [List.foldl_cons, hstep, ih, List.map_cons, Nat.ofDigits_reverse_cons, List.length_map,
        List.length_cons, Nat.pow_succ]
      congr 1
      ring
  have hzero := hmain 0
  rw [Nat.zero_mul, Nat.add_zero] at hzero
  exact hzero

theorem filterPrecision_chars (precision : Option (List (Fin 10)))
    (hpoint : s.head? ≠ some charPoint) (h : ∀ c ∈ s.head?, isDigit c = false) :
    filterPrecision (precisionChars precision ++ s) = (precisionValue precision, s) := by
  cases precision with
  | none =>
    unfold filterPrecision
    rw [precisionChars, List.nil_append, if_neg hpoint]
    rfl
  | some ds =>
    unfold filterPrecision
    rw [precisionChars, List.cons_append, List.head?_cons, if_pos rfl, List.tail_cons,
      filterNumber_chars ds 0 h, numberValue_eq]
    rfl

/-- The letter is not a modifier. Behind modifiers the loop has stepped over it. -/
theorem filterModifiers_chars {modifiers : List UInt8} {c : UInt8} (hc : isModifier c = false)
    (h : ∀ m ∈ modifiers, isModifier m = true) :
    filterModifiers (modifiers ++ c :: s) = (c, some (if modifiers = [] then c :: s else s)) := by
  have hnot : ¬ isModifier c = true := by
    rw [hc]
    exact Bool.false_ne_true
  have hloop : ∀ modifiers : List UInt8, (∀ m ∈ modifiers, isModifier m = true) →
      modifierLoop (modifiers ++ c :: s) = (c, some s) := by
    intro modifiers h
    induction modifiers with
    | nil => rw [List.nil_append, modifierLoop, if_neg hnot]
    | cons m modifiers ih =>
      rw [List.cons_append, modifierLoop, if_pos (h m List.mem_cons_self)]
      exact ih fun m hm => h m (List.mem_cons_of_mem _ hm)
  cases modifiers with
  | nil =>
    rw [List.nil_append, filterModifiers, if_neg hnot, if_pos rfl]
  | cons m modifiers =>
    rw [List.cons_append, filterModifiers, if_pos (h m List.mem_cons_self),
      if_neg (List.cons_ne_nil m modifiers)]
    exact hloop (m :: modifiers) h

/-- No character that an earlier part of a directive would take. -/
def EndsOptions (c : UInt8) : Prop := isFlag c = false ∧ isDigit c = false ∧ c ≠ charPoint

theorem Specifier.endsOptions (specifier : Specifier) :
    EndsOptions specifier.char ∧ isModifier specifier.char = false := by
  cases specifier with
  | other char plain =>
    obtain ⟨hflag, hdigit, hpoint, hmodifier, -⟩ := plain
    exact ⟨⟨hflag, hdigit, hpoint⟩, hmodifier⟩
  | c | d | u | x | X | s | p | percent => exact ⟨⟨rfl, rfl, by decide⟩, rfl⟩

theorem endsOptions_of_modifier {c : UInt8} (h : isModifier c = true) : EndsOptions c := by
  simp only [isModifier, Bool.or_eq_true, decide_eq_true_eq] at h
  obtain rfl | rfl := h
  · exact ⟨rfl, rfl, by decide⟩
  · exact ⟨rfl, rfl, by decide⟩

/-- A directive is read as it is documented. Behind a length modifier a character is passed over. -/
theorem directive_options (conv : Conversion) {modifiers : List UInt8}
    (h : ∀ m ∈ modifiers, isModifier m = true) (s : List UInt8) :
    directive (conv.options ++ (modifiers ++ conv.specifier.char :: s)) =
      (conv.directive, if modifiers = [] then some s else advanceFormat s) := by
  have hspecifier := conv.specifier.endsOptions
  have hrest : ∀ c ∈ (modifiers ++ conv.specifier.char :: s).head?, EndsOptions c := by
    intro c hc
    cases modifiers with
    | nil =>
      obtain rfl := Option.some.inj hc
      exact hspecifier.1
    | cons m modifiers =>
      obtain rfl := Option.some.inj hc
      exact endsOptions_of_modifier (h m List.mem_cons_self)
  have hprecision : ∀ c ∈ (precisionChars conv.precision ++
      (modifiers ++ conv.specifier.char :: s)).head?, isFlag c = false ∧ isDigit c = false := by
    intro c hc
    cases hp : conv.precision with
    | none =>
      rw [hp] at hc
      exact ⟨(hrest c hc).1, (hrest c hc).2.1⟩
    | some ds =>
      rw [hp] at hc
      obtain rfl := Option.some.inj hc
      exact ⟨rfl, rfl⟩
  have hwidth : ∀ c ∈ (numberChars conv.fieldWidth ++ (precisionChars conv.precision ++
      (modifiers ++ conv.specifier.char :: s))).head?, isFlag c = false := by
    intro c hc
    cases hw : conv.fieldWidth with
    | nil =>
      rw [hw] at hc
      exact (hprecision c hc).1
    | cons d ds =>
      rw [hw] at hc
      obtain rfl := Option.some.inj hc
      have hhead := conv.fieldWidth_head
      rw [hw] at hhead
      exact isFlag_number fun hzero => hhead (congrArg some hzero)
  have hpoint : (modifiers ++ conv.specifier.char :: s).head? ≠ some charPoint :=
    fun hsome => (hrest charPoint hsome).2.2 rfl
  unfold directive
  rw [Conversion.options, List.append_assoc, List.append_assoc, filterFlags_chars _ _ hwidth]
  dsimp only
  rw [filterNumber_chars _ _ fun c hc => (hprecision c hc).2, numberValue_eq]
  dsimp only
  rw [filterPrecision_chars _ hpoint fun c hc => (hrest c hc).2.1]
  dsimp only
  rw [filterModifiers_chars hspecifier.2 h]
  split <;> rfl

end Reading

end BleSpeedSensor
