import BleSpeedSensor.PrintfFormat

namespace BleSpeedSensor

open DigitText

section Printing

variable {sink : RttSink} {p : PrintfDesc} {args rest : List PrintfArg} {text : List UInt8}

theorem storeChar_stores (c : UInt8) : Stores sink p [c] (storeChar sink p c) :=
  Stores.of_eq (storeWhile_one c p).symm

theorem unsigned_stores (hp : p.Open) {base : PrintBase} {v : UInt32} {d : Directive}
    (h : d.numDigits ≤ base.maxDigits) :
    ∃ q, ((printUnsigned sink p v.toNat base d.numDigits d.fieldWidth d.flags).map fun p =>
        (p, rest)) = .ok (q, rest) ∧
      Stores sink p (unsignedText base v.toNat d.numDigits d.fieldWidth d.flags) q := by
  obtain ⟨q, hq, hstores⟩ := @printUnsigned_stores sink base p v.toNat d.numDigits hp v.toNat_lt h
    d.fieldWidth d.flags
  rw [hq]
  exact ⟨q, rfl, hstores⟩

theorem intOf_range {v : UInt32} (h : v ≠ 2147483648) :
    -2147483648 < intOf v.toNat ∧ intOf v.toNat < 4294967296 := by
  have hlt := v.toNat_lt
  have hne : v.toNat ≠ 2147483648 := fun heq => h (UInt32.toNat_inj.mp heq)
  unfold intOf
  split <;> omega

/-- A specifier takes its argument and stores its text. -/
def Prints (sink : RttSink) (p : PrintfDesc) (d : Directive) (args : List PrintfArg)
    (r : List UInt8 × List PrintfArg) : Prop :=
  ∃ q, handleSpecifier sink p d args = .ok (q, r.2) ∧ Stores sink p r.1 q

section Specifiers

variable {d : Directive} {v : UInt32} {r : List UInt8 × List PrintfArg}

theorem char_prints (h : d.specifier = 99) :
    Prints sink p d (.word v :: rest) ([UInt8.ofNat v.toNat], rest) := by
  unfold Prints handleSpecifier
  rw [h]
  exact ⟨_, rfl, storeChar_stores _⟩

theorem int_prints (hp : p.Open) (h : d.specifier = 100)
    (hr : (if v = 2147483648 ∨ 10 < d.numDigits then none
      else some (intText .ten (intOf v.toNat) d.numDigits d.fieldWidth d.flags, rest)) = some r) :
    Prints sink p d (.word v :: rest) r := by
  split at hr
  · cases hr
  next hlimit =>
    obtain rfl := Option.some.inj hr
    obtain ⟨hleast, hdigits⟩ := not_or.mp hlimit
    obtain ⟨q, hq, hstores⟩ := @printInt_stores sink .ten p d.numDigits _ hp (intOf_range hleast)
      (Nat.le_of_not_lt hdigits) d.fieldWidth d.flags
    refine ⟨q, ?_, hstores⟩
    unfold handleSpecifier
    rw [h]
    show (printInt sink p (intOf v.toNat) .ten _ _ _).map _ = _
    rw [hq]
    rfl

theorem unsigned_prints {base : PrintBase} (hp : p.Open)
    (h : d.specifier = 117 ∧ base = .ten ∨ (d.specifier = 120 ∨ d.specifier = 88) ∧ base = .sixteen)
    (hr : (if base.maxDigits < d.numDigits then none
      else some (unsignedText base v.toNat d.numDigits d.fieldWidth d.flags, rest)) = some r) :
    Prints sink p d (.word v :: rest) r := by
  split at hr
  · cases hr
  next hdigits =>
    obtain rfl := Option.some.inj hr
    have hstores := @unsigned_stores sink p rest hp base v d (Nat.le_of_not_lt hdigits)
    unfold Prints handleSpecifier
    obtain ⟨h, rfl⟩ | ⟨h | h, rfl⟩ := h
    all_goals
      rw [h]
      exact hstores

theorem string_prints {s : List UInt8} (h : d.specifier = 115) :
    Prints sink p d (.string s :: rest) (s.takeWhile (· ≠ 0), rest) := by
  unfold Prints handleSpecifier
  rw [h]
  exact ⟨_, rfl, Stores.of_eq (storeString_stores s p)⟩

/-- A pointer is a number of 8 digits in a field of 8. -/
theorem pointer_prints (hp : p.Open) (h : d.specifier = 112) :
    Prints sink p d (.word v :: rest) (digitChars .sixteen 8 v.toNat, rest) := by
  have height := @unsigned_stores sink p rest hp .sixteen v
    ⟨⟨false, false, false, false⟩, 8, 8, 112⟩ (Nat.le_refl 8)
  rw [unsignedText_narrow (Nat.le_of_eq (pointer_width v).symm)] at height
  unfold Prints handleSpecifier
  rw [h]
  exact height

theorem percent_prints (h : d.specifier = charPercent) : Prints sink p d args ([charPercent], args) := by
  unfold Prints handleSpecifier
  rw [h]
  exact ⟨_, rfl, storeChar_stores _⟩

theorem other_prints (h : isSpecifier d.specifier = false) : Prints sink p d args ([], args) := by
  simp only [isSpecifier, Bool.or_eq_false_iff, decide_eq_false_iff_not] at h
  obtain ⟨⟨⟨⟨⟨⟨⟨hc, hd⟩, hu⟩, hx⟩, hX⟩, hs⟩, hp⟩, hpercent⟩ := h
  refine ⟨p, ?_, Stores.stored⟩
  unfold handleSpecifier
  simp only [hc, hd, hu, hx, hX, hs, hp, hpercent, or_self, if_false]

end Specifiers

/-- Each specifier prints its argument. -/
theorem handleSpecifier_stores {conv : Conversion} (hp : p.Open)
    (h : conv.printed args = some (text, rest)) :
    ∃ q, handleSpecifier sink p conv.directive args = .ok (q, rest) ∧ Stores sink p text q := by
  have hspecifier : conv.directive.specifier = conv.specifier.char := rfl
  show Prints sink p conv.directive args (text, rest)
  unfold Conversion.printed at h
  dsimp only at h
  split at h
  next hs =>
    rw [← Option.some.inj h]
    exact char_prints (hspecifier.trans (congrArg _ hs))
  next hs => exact int_prints hp (hspecifier.trans (congrArg _ hs)) h
  next hs =>
    refine @unsigned_prints sink p _ _ _ _ .ten hp (Or.inl ⟨?_, rfl⟩) h
    exact hspecifier.trans (congrArg _ hs)
  next hs =>
    refine @unsigned_prints sink p _ _ _ _ .sixteen hp (Or.inr ⟨Or.inl ?_, rfl⟩) h
    exact hspecifier.trans (congrArg _ hs)
  next hs =>
    refine @unsigned_prints sink p _ _ _ _ .sixteen hp (Or.inr ⟨Or.inr ?_, rfl⟩) h
    exact hspecifier.trans (congrArg _ hs)
  next hs =>
    rw [← Option.some.inj h]
    exact string_prints (hspecifier.trans (congrArg _ hs))
  next hs =>
    rw [← Option.some.inj h]
    exact pointer_prints hp (hspecifier.trans (congrArg _ hs))
  next hs =>
    rw [← Option.some.inj h]
    exact percent_prints (hspecifier.trans (congrArg _ hs))
  next char plain hs =>
    rw [← Option.some.inj h]
    apply other_prints
    rw [hspecifier, hs]
    exact plain.2.2.2.2
  · cases h

theorem vprintfLoop_nil : vprintfLoop sink [] args p = .ok p := by
  rw [vprintfLoop]

theorem vprintfLoop_char {c : UInt8} (hc : c ≠ charPercent) (s : List UInt8) :
    vprintfLoop sink (c :: s) args p =
      if (storeChar sink p c).returnValue < 0 then .ok (storeChar sink p c)
      else vprintfLoop sink s args (storeChar sink p c) := by
  rw [vprintfLoop, if_neg hc]

/-- Behind a directive the loop goes on where it ends, if it ends within the format. -/
theorem vprintfLoop_directive {s : List UInt8} {next : Option (List UInt8)} {d : Directive}
    (hdirective : directive s = (d, next)) :
    vprintfLoop sink (charPercent :: s) args p =
      (handleSpecifier sink p d args).bind fun r =>
        if r.1.returnValue < 0 then .ok r.1
        else next.elim (.error .pastTerminator) fun t => vprintfLoop sink t r.2 r.1 := by
  have hfirst : (directive s).1 = d := congrArg Prod.fst hdirective
  have hnext : next = (directive s).2 := (congrArg Prod.snd hdirective).symm
  rw [vprintfLoop, if_pos rfl, hfirst, hnext]
  congr 1
  funext r
  split
  · rfl
  · split
    next hnone =>
      rw [hnone]
      rfl
    next t hsome =>
      rw [hsome]
      rfl

/-- Whatever stands behind a format, its text is stored first. -/
theorem printedText_stores {items : List FormatItem} (hp : p.Open)
    (h : printedText items args = some (text, rest)) (s : List UInt8) :
    ∃ q, Stores sink p text q ∧ vprintfLoop sink (renderFormat items ++ s) args p =
      if q.returnValue < 0 then .ok q else vprintfLoop sink s rest q := by
  induction items generalizing p args text with
  | nil =>
    obtain ⟨rfl, rfl⟩ := Prod.mk.inj (Option.some.inj h)
    exact ⟨p, Stores.stored, (if_neg hp.running).symm⟩
  | cons item items ih =>
    cases item with
    | char c plain =>
      obtain ⟨⟨more, left⟩, hmore, heq⟩ := Option.map_eq_some_iff.mp h
      obtain ⟨rfl, rfl⟩ := Prod.mk.inj heq
      have hfirst := @storeChar_stores sink p c
      show ∃ q, _ ∧ vprintfLoop sink (c :: (renderFormat items ++ s)) args p = _
      rw [vprintfLoop_char plain]
      obtain ⟨hopen, -⟩ | ⟨hstop, -⟩ := hfirst.open_or_stopped hp
      · obtain ⟨q, hstores, hloop⟩ := ih hopen hmore
        rw [if_neg hopen.running]
        exact ⟨q, hfirst.trans hp hopen hstores, hloop⟩
      · rw [if_pos hstop]
        exact ⟨_, hfirst.stop hp hstop more, (if_pos hstop).symm⟩
    | conversion conv =>
      obtain ⟨⟨first, middle⟩, hfirst, hrest⟩ := Option.bind_eq_some_iff.mp h
      obtain ⟨⟨more, left⟩, hmore, heq⟩ := Option.map_eq_some_iff.mp hrest
      obtain ⟨rfl, rfl⟩ := Prod.mk.inj heq
      obtain ⟨q, hhandle, hstores⟩ := @handleSpecifier_stores sink p args middle first conv hp hfirst
      have hdirective := @directive_options conv [] (fun m hm => absurd hm List.not_mem_nil)
        (renderFormat items ++ s)
      have hrender : renderFormat (.conversion conv :: items) ++ s = charPercent ::
          (conv.options ++ ([] ++ conv.specifier.char :: (renderFormat items ++ s))) := by
        simp [renderFormat, FormatItem.render]
      rw [hrender, vprintfLoop_directive hdirective, hhandle]
      show ∃ r, _ ∧ (if q.returnValue < 0 then _ else vprintfLoop sink _ middle q) = _
      obtain ⟨hopen, -⟩ | ⟨hstop, -⟩ := hstores.open_or_stopped hp
      · obtain ⟨r, hmore, hloop⟩ := ih hopen hmore
        rw [if_neg hopen.running]
        exact ⟨r, hstores.trans hp hopen hmore, hloop⟩
      · rw [if_pos hstop]
        exact ⟨q, hstores.stop hp hstop more, (if_pos hstop).symm⟩

/-- What a whole format comes to, and what then becomes of the buffer. -/
theorem seggerRttVprintf_stores {items : List FormatItem}
    (h : printedText items args = some (text, rest)) :
    ∃ q, Stores sink ⟨[], 0, []⟩ text q ∧ seggerRttVprintf sink (renderFormat items) args =
      .ok (if 0 < q.returnValue then
        (q.returnValue + q.buffer.length,
          if q.buffer ≠ [] then q.written ++ [q.buffer] else q.written)
      else (q.returnValue, q.written)) := by
  have hopen : PrintfDesc.Open ⟨[], 0, []⟩ := ⟨Int.le_refl 0, Nat.zero_lt_succ 63⟩
  obtain ⟨q, hstores, hloop⟩ := @printedText_stores sink _ args rest text items hopen h []
  refine ⟨q, hstores, ?_⟩
  rw [List.append_nil, vprintfLoop_nil, ite_self] at hloop
  unfold seggerRttVprintf
  rw [hloop]
  rfl

/-- A text in full blocks: how much of it is left for the last one. -/
theorem Emitted.rest_length (h : Emitted sink text p) : p.buffer.length = text.length % 64 := by
  have hsum : (p.written.map List.length).sum = (p.written.map List.length).length * 64 := by
    apply List.sum_eq_card_nsmul
    intro n hn
    obtain ⟨b, hb, rfl⟩ := List.mem_map.mp hn
    exact h.full b hb
  have htext : text.length = (p.written.map List.length).length * 64 + p.buffer.length := by
    rw [← h.stream, List.length_append, List.length_flatten, hsum]
  have hroom : p.buffer.length < 64 := h.room
  omega

/-- The blocks handed over at the end: the full ones and what is left of the text. -/
theorem Emitted.blocks (h : Emitted sink text p) :
    let blocks := if p.buffer ≠ [] then p.written ++ [p.buffer] else p.written
    blocks.flatten = text ∧ (∀ b ∈ blocks, 0 < b.length ∧ b.length ≤ 64) ∧
      ∀ b ∈ blocks.dropLast, b.length = 64 := by
  have hfull : ∀ b ∈ p.written, 0 < b.length ∧ b.length ≤ 64 := by
    intro b hb
    rw [h.full b hb]
    exact ⟨by decide, Nat.le_refl 64⟩
  have hstream := h.stream
  dsimp only
  split
  next hrest =>
    refine ⟨by simpa using hstream, ?_, ?_⟩
    · intro b hb
      obtain hb | hb := List.mem_append.mp hb
      · exact hfull b hb
      · obtain rfl := List.mem_singleton.mp hb
        exact ⟨List.length_pos_iff.mpr hrest, Nat.le_of_lt h.room⟩
    · rw [List.dropLast_concat]
      exact h.full
  next hempty =>
    obtain hnil : p.buffer = [] := Decidable.not_not.mp hempty
    rw [hnil, List.append_nil] at hstream
    exact ⟨hstream, hfull, fun b hb => h.full b (List.mem_of_mem_dropLast hb)⟩

/-- Blocks of one size in the order of a text are the first ones it is cut into. -/
theorem blocks_prefix {α : Type} {n : Nat} {xs ys : List (List α)} {left : List α}
    (hx : ∀ x ∈ xs, x.length = n) (hy : ∀ y ∈ ys, y.length = n) (hleft : left.length < n)
    (h : xs.flatten <+: ys.flatten ++ left) : xs <+: ys := by
  induction xs generalizing ys with
  | nil => exact List.nil_prefix
  | cons x xs ih =>
    have hlen : x.length = n := hx x List.mem_cons_self
    obtain ⟨more, hmore⟩ := h
    cases ys with
    | nil =>
      have hsize := congrArg List.length hmore
      simp only [List.flatten_cons, List.flatten_nil, List.nil_append, List.length_append] at hsize
      omega
    | cons y ys =>
      rw [List.flatten_cons, List.flatten_cons, List.append_assoc, List.append_assoc] at hmore
      have hsame : x.length = y.length := hlen.trans (hy y List.mem_cons_self).symm
      obtain ⟨rfl, hrest⟩ := List.append_inj hmore hsame
      refine List.cons_prefix_cons.mpr ⟨rfl, ih ?_ ?_ ⟨more, hrest⟩⟩
      · exact fun z hz => hx z (List.mem_cons_of_mem _ hz)
      · exact fun z hz => hy z (List.mem_cons_of_mem _ hz)

/-- A full block of a text that is not taken, after the blocks before it. -/
structure RefusedBlock (sink : RttSink) (text : List UInt8) (before : List (List UInt8))
    (b : List UInt8) : Prop where
  start : (before ++ [b]).flatten <+: text
  full : ∀ x ∈ before ++ [b], x.length = seggerRttPrintfBufferSize
  refused : sink before b ≠ b.length

theorem Emitted.not_refused (h : Emitted sink text p) {before : List (List UInt8)} {b : List UInt8} :
    ¬ RefusedBlock sink text before b := by
  intro hrefused
  have hstart := hrefused.start
  rw [← h.stream] at hstart
  obtain ⟨after, hafter⟩ := blocks_prefix hrefused.full h.full h.room hstart
  refine hrefused.refused (h.accepted before b after ?_)
  rw [← hafter, List.append_assoc]
  rfl

/-- Either the whole text is handed over, or a full block of it was refused. -/
theorem seggerRttVprintf_cases {items : List FormatItem}
    (h : printedText items args = some (text, rest)) :
    (∃ q, Emitted sink text q ∧ seggerRttVprintf sink (renderFormat items) args =
      .ok (q.returnValue + q.buffer.length,
        if q.buffer ≠ [] then q.written ++ [q.buffer] else q.written)) ∨
    ∃ result blocks before b, seggerRttVprintf sink (renderFormat items) args = .ok (result, blocks) ∧
      result < 0 ∧ RefusedBlock sink text before b ∧ Accepted sink before ∧
      (blocks = before ++ [b] ∨ blocks = before ++ [b, b]) := by
  obtain ⟨q, hstores, hq⟩ := @seggerRttVprintf_stores sink args rest text items h
  have hopen := (@Emitted.start sink).open
  obtain hemitted | ⟨hfailed, hrefused⟩ := @Emitted.storeWhile sink _ [] Emitted.start text
  · rw [List.nil_append] at hemitted
    obtain ⟨-, rfl⟩ | ⟨-, hfailed⟩ := hstores.open_or_stopped hopen
    · refine Or.inl ⟨_, hemitted, hq.trans (congrArg Except.ok ?_)⟩
      split
      · rfl
      next hzero =>
        have hcount := hemitted.count
        have hnil : text = [] := by
          rw [← List.length_eq_zero_iff]
          omega
        subst hnil
        rfl
    · exact absurd hfailed.stopped hemitted.open.running
  · obtain ⟨before, b, hblocks, hnot, haccepted⟩ := hrefused.refused
    have hstart := hrefused.start
    have hfull := hrefused.full
    rw [hblocks] at hstart hfull
    rw [List.nil_append] at hstart
    obtain ⟨hrunning, rfl⟩ | ⟨hstop, -⟩ := hstores.open_or_stopped hopen
    · exact absurd hfailed.stopped hrunning.running
    rw [if_neg (by omega)] at hq
    refine Or.inr ⟨q.returnValue, q.written, before, b, hq, hstop, ⟨hstart, hfull, hnot⟩, haccepted, ?_⟩
    cases hstores with
    | stored => exact Or.inl hblocks
    | again =>
      have hlast := hfailed.handed
      rw [hblocks, List.getLast?_concat] at hlast
      obtain rfl := Option.some.inj hlast
      rw [(@PrintfDesc.Failed.store sink _ charSpace hfailed).2, hblocks]
      exact Or.inr (List.append_assoc _ _ _)

/-- A documented format with its arguments prints its documented text, in blocks of 64 bytes and a
shorter last one. That last block is counted twice in the result. -/
theorem seggerRttVprintf_text {items : List FormatItem} (htakes : TakesBlocks sink)
    (hint : text.length + text.length % 64 < 2147483648)
    (h : formatText items args = some (text, rest)) :
    ∃ result blocks, seggerRttVprintf sink (renderFormat items) args = .ok (result, blocks) ∧
      result = (text.length : Int) + (text.length % 64 : Nat) ∧ result < 2147483648 ∧
      blocks.flatten = text ∧ (∀ b ∈ blocks, 0 < b.length ∧ b.length ≤ 64) ∧
      ∀ b ∈ blocks.dropLast, b.length = 64 := by
  obtain ⟨q, hemitted, hq⟩ | ⟨_, _, before, b, -, -, hrefused, -⟩ :=
    @seggerRttVprintf_cases sink args rest text items (formatText_printed h)
  · rw [hemitted.count, hemitted.rest_length] at hq
    exact ⟨_, _, hq, rfl, by omega, hemitted.blocks⟩
  · have hfull := hrefused.full b (List.mem_append_right _ List.mem_cons_self)
    exact absurd (htakes before b hfull) hrefused.refused

theorem seggerRttVprintf_text_speed : ∃ result blocks,
    seggerRttVprintf (fun _ b => b.length) (renderFormat [.char 118 (by decide),
        .conversion ⟨[], [5], none, .u, by decide⟩, .conversion ⟨[], [], none, .s, by decide⟩])
        [.word 42, .string [107, 109]] = .ok (result, blocks) ∧
      result = 8 + (8 % 64 : Nat) ∧ result < 2147483648 ∧
      blocks.flatten = [118, 32, 32, 32, 52, 50, 107, 109] ∧
      (∀ b ∈ blocks, 0 < b.length ∧ b.length ≤ 64) ∧ ∀ b ∈ blocks.dropLast, b.length = 64 :=
  @seggerRttVprintf_text (fun _ b => b.length) [.word 42, .string [107, 109]] []
    [118, 32, 32, 32, 52, 50, 107, 109] _ (fun _ _ _ => rfl) (by decide) rfl

/-- A call fails exactly when a full block of its text is refused. What is stored then is the text
before that block, which may have been handed over twice. -/
theorem seggerRttVprintf_refused {items : List FormatItem}
    (hint : text.length + text.length % 64 < 2147483648)
    (h : printedText items args = some (text, rest)) :
    ∃ result blocks, seggerRttVprintf sink (renderFormat items) args = .ok (result, blocks) ∧
      result < 2147483648 ∧ (result < 0 ↔ ∃ before b, RefusedBlock sink text before b) ∧
      (result < 0 → ∃ before b, RefusedBlock sink text before b ∧ Accepted sink before ∧
        (blocks = before ++ [b] ∨ blocks = before ++ [b, b])) := by
  obtain ⟨q, hemitted, hq⟩ | ⟨result, blocks, before, b, hq, hneg, hrefused, hrest⟩ :=
    @seggerRttVprintf_cases sink args rest text items h
  · have hcount := hemitted.count
    have hrest := hemitted.rest_length
    have hpos : ¬ q.returnValue + q.buffer.length < 0 := by omega
    refine ⟨_, _, hq, by omega, iff_of_false hpos ?_, fun hneg => absurd hneg hpos⟩
    rintro ⟨before, b, hrefused⟩
    exact hemitted.not_refused hrefused
  · refine ⟨result, blocks, hq, by omega, iff_of_true hneg ⟨before, b, hrefused⟩, fun _ => ?_⟩
    exact ⟨before, b, hrefused, hrest⟩

theorem seggerRttVprintf_refused_string : ∃ result blocks,
    seggerRttVprintf (fun _ _ => 0) (renderFormat [.conversion ⟨[], [], none, .s, by decide⟩])
        [.string (List.replicate 64 65)] = .ok (result, blocks) ∧ result < 2147483648 ∧
      (result < 0 ↔ ∃ before b, RefusedBlock (fun _ _ => 0) (List.replicate 64 65) before b) ∧
      (result < 0 → ∃ before b, RefusedBlock (fun _ _ => 0) (List.replicate 64 65) before b ∧
        Accepted (fun _ _ => 0) before ∧ (blocks = before ++ [b] ∨ blocks = before ++ [b, b])) :=
  @seggerRttVprintf_refused (fun _ _ => 0) [.string (List.replicate 64 65)] []
    (List.replicate 64 65) _ (by decide) rfl

theorem itemsText_append (conversionText : ConversionText) (items more : List FormatItem)
    (args : List PrintfArg) :
    itemsText conversionText (items ++ more) args =
      (itemsText conversionText items args).bind fun r =>
        (itemsText conversionText more r.2).map fun t => (r.1 ++ t.1, t.2) := by
  induction items generalizing args with
  | nil =>
    show itemsText _ more args = (itemsText _ more args).map fun t => ([] ++ t.1, t.2)
    exact Option.map_id'.symm
  | cons item items ih =>
    cases item with
    | char c plain =>
      show (itemsText _ (items ++ more) args).map _ = ((itemsText _ items args).map _).bind _
      rw [ih]
      cases itemsText conversionText items args with
      | none => rfl
      | some r => cases hmore : itemsText conversionText more r.2 <;> simp [hmore]
    | conversion conv =>
      show ((conversionText conv args).bind fun r => (itemsText _ (items ++ more) r.2).map _) =
        ((conversionText conv args).bind _).bind _
      cases conversionText conv args with
      | none => rfl
      | some first =>
        show (itemsText _ (items ++ more) first.2).map _ = ((itemsText _ items first.2).map _).bind _
        rw [ih]
        cases itemsText conversionText items first.2 with
        | none => rfl
        | some r => cases hmore : itemsText conversionText more r.2 <;> simp [hmore]

/-- Where everything is taken, the loop comes to the rest of a format with its start stored. -/
theorem vprintfLoop_rest {items : List FormatItem} (htakes : TakesBlocks sink) (hp : p.Open)
    (h : printedText items args = some (text, rest)) (s : List UInt8) :
    vprintfLoop sink (renderFormat items ++ s) args p =
      vprintfLoop sink s rest (storeWhile sink text p) := by
  obtain ⟨q, hstores, hloop⟩ := @printedText_stores sink p args rest text items hp h s
  obtain ⟨hopen, rfl⟩ := hstores.of_takes htakes hp
  rw [hloop, if_neg hopen.running]

/-- `l` and `h` make the function pass over the character behind the specifier: the rest of a format
is printed without it, and where there is none the function reads past the terminator. -/
theorem seggerRttVprintf_modifiers {items : List FormatItem} {conv : Conversion}
    {modifiers : List UInt8} (htakes : TakesBlocks sink)
    (h : printedText (items ++ [.conversion conv]) args = some (text, rest))
    (hmodifiers : ∀ m ∈ modifiers, isModifier m = true) (hne : modifiers ≠ []) :
    (∀ c s, seggerRttVprintf sink (renderFormat items ++ charPercent ::
          (conv.options ++ (modifiers ++ conv.specifier.char :: c :: s))) args =
        seggerRttVprintf sink (renderFormat items ++ charPercent ::
          (conv.options ++ conv.specifier.char :: s)) args) ∧
      seggerRttVprintf sink (renderFormat items ++ charPercent ::
        (conv.options ++ (modifiers ++ [conv.specifier.char]))) args = .error .pastTerminator := by
  have hstart := (@Emitted.start sink).open
  rw [printedText, itemsText_append] at h
  obtain ⟨⟨before, middle⟩, hitems, hlast⟩ := Option.bind_eq_some_iff.mp h
  obtain ⟨⟨more, left⟩, hmore, -⟩ := Option.map_eq_some_iff.mp hlast
  obtain ⟨⟨printed, behind⟩, hconv, -⟩ := Option.bind_eq_some_iff.mp hmore
  constructor
  · intro c s
    have hwith := directive_options conv hmodifiers (c :: s)
    have hwithout := @directive_options conv [] (fun m hm => absurd hm List.not_mem_nil) s
    rw [if_neg hne] at hwith
    rw [if_pos rfl, List.nil_append] at hwithout
    unfold seggerRttVprintf
    rw [vprintfLoop_rest htakes hstart hitems, vprintfLoop_rest htakes hstart hitems,
      vprintfLoop_directive hwith, vprintfLoop_directive hwithout]
    rfl
  · have hdirective := directive_options conv hmodifiers []
    rw [if_neg hne] at hdirective
    have hopen := (htakes.storeWhile hstart before).1
    obtain ⟨q, hhandle, hstores⟩ := @handleSpecifier_stores sink _ middle behind printed conv hopen hconv
    have hrunning := (hstores.of_takes htakes hopen).1.running
    unfold seggerRttVprintf
    rw [vprintfLoop_rest htakes hstart hitems, vprintfLoop_directive hdirective, hhandle]
    show Except.map _ (if q.returnValue < 0 then _ else _) = _
    rw [if_neg hrunning]
    rfl

theorem seggerRttVprintf_modifiers_long :
    (∀ c s, seggerRttVprintf (fun _ b => b.length) (renderFormat [] ++ charPercent ::
          ([] ++ ([108] ++ 100 :: c :: s))) [.word 5] =
        seggerRttVprintf (fun _ b => b.length) (renderFormat [] ++ charPercent ::
          ([] ++ 100 :: s)) [.word 5]) ∧
      seggerRttVprintf (fun _ b => b.length) (renderFormat [] ++ charPercent ::
        ([] ++ ([108] ++ [100]))) [.word 5] = .error .pastTerminator :=
  @seggerRttVprintf_modifiers (fun _ b => b.length) [.word 5] []
    (intText .ten 5 0 0 ⟨false, false, false, false⟩ ++ []) []
    ⟨[], [], none, .d, by decide⟩ [108] (fun _ _ _ => rfl) rfl
    (fun m hm => by rw [List.mem_singleton.mp hm]; rfl) (List.cons_ne_nil 108 [])

end Printing

end BleSpeedSensor
