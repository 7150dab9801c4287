import Mathlib.Data.List.TakeWhile
import SvgPage.Number.Decimal

/-!
# Numerals

Which texts are numerals and what number each of them spells. Scanning takes a numeral off the head
of a text, and none that starts there is longer. It fails where no numeral starts, and where the
longest one is followed by a letter of an exponent that never comes.
-/

namespace SvgPage.Decimal

inductive Sign : List Char → Bool → Prop
  | absent : Sign [] false
  | plus : Sign ['+'] false
  | minus : Sign ['-'] true

def Digits (ds : List Char) : Prop := ∀ d ∈ ds, isDigit d = true

/-- Whole digits and digits of a fraction, at least one in all. A point may stand at either end. -/
inductive Mantissa : List Char → List Char → List Char → Prop
  | whole {ds} : Digits ds → ds ≠ [] → Mantissa ds ds []
  | pointed {ds fs} : Digits ds → Digits fs → ds ≠ [] ∨ fs ≠ [] → Mantissa (ds ++ '.' :: fs) ds fs

def IsExponentLetter (c : Char) : Prop := c = 'e' ∨ c = 'E'

inductive Exponent : List Char → Int → Prop
  | absent : Exponent [] 0
  | written {letter sign negative ds} : IsExponentLetter letter → Sign sign negative →
      Digits ds → ds ≠ [] →
        Exponent (letter :: (sign ++ ds))
          (if negative then -(Nat.ofDigitChars 10 ds 0 : Int) else Nat.ofDigitChars 10 ds 0)

/-- A text that spells a number. -/
inductive Numeral : List Char → Decimal → Prop
  | spelled {sign negative mantissa whole fraction exponent n} : Sign sign negative →
      Mantissa mantissa whole fraction → Exponent exponent n →
        Numeral (sign ++ (mantissa ++ exponent))
          ⟨negative, Nat.ofDigitChars 10 (whole ++ fraction) 0, n - fraction.length⟩

/-- A text starts with a numeral that leaves a rest, and with none that is longer. -/
def Munched (cs : List Char) (d : Decimal) (rest : List Char) : Prop :=
  (∃ text, cs = text ++ rest ∧ Numeral text d) ∧
    ∀ text' d' rest', cs = text' ++ rest' → Numeral text' d' → rest.length ≤ rest'.length

inductive Unscaled : List Char → Prop
  | spelled {sign negative mantissa whole fraction} : Sign sign negative →
      Mantissa mantissa whole fraction → Unscaled (sign ++ mantissa)

def Begins (p : Char → Prop) (cs : List Char) : Prop := ∃ c ∈ cs.head?, p c

@[simp]
theorem begins_cons {p : Char → Prop} {c : Char} {cs : List Char} : Begins p (c :: cs) ↔ p c := by
  simp [Begins]

@[simp]
theorem not_begins_nil {p : Char → Prop} : ¬Begins p [] := by simp [Begins]

/-- A text starts with a sign and a mantissa, and then there is the letter of an exponent, but not
the digits that make it one. -/
structure Unfinished (cs text rest : List Char) : Prop where
  split : cs = text ++ rest
  unscaled : Unscaled text
  letter : Begins IsExponentLetter rest
  noExponent : ∀ exponent n after, rest = exponent ++ after → Exponent exponent n → exponent = []

theorem digitRun_eq (cs : List Char) :
    cs = (digitRun cs).1 ++ (digitRun cs).2 ∧ Digits (digitRun cs).1 :=
  ⟨List.takeWhile_append_dropWhile.symm, fun _ member => List.mem_takeWhile_imp member⟩

theorem digitRun_append {ds : List Char} (h : Digits ds) (cs : List Char) :
    digitRun (ds ++ cs) = (ds ++ (digitRun cs).1, (digitRun cs).2) :=
  Prod.ext (List.takeWhile_append_of_pos h) (List.dropWhile_append_of_pos h)

theorem digitRun_of_not_begins {cs : List Char} (h : ¬Begins (isDigit · = true) cs) :
    digitRun cs = ([], cs) := by
  cases cs with
  | nil => rfl
  | cons c cs =>
    rw [begins_cons] at h
    simp [digitRun, h]

theorem digitRun_suffix (cs : List Char) : (digitRun cs).2 <:+ cs := List.dropWhile_suffix _

theorem fractionRun_suffix (cs : List Char) : (fractionRun cs).2 <:+ cs := by
  unfold fractionRun
  split
  · exact (digitRun_suffix _).trans (List.suffix_cons ..)
  · exact List.suffix_refl _

theorem signOf_eq (cs : List Char) :
    ∃ sign, cs = sign ++ (signOf cs).2 ∧ Sign sign (signOf cs).1 := by
  unfold signOf
  split
  · exact ⟨['-'], rfl, .minus⟩
  · exact ⟨['+'], rfl, .plus⟩
  · exact ⟨[], rfl, .absent⟩

theorem signOf_append {sign cs : List Char} {negative : Bool} (h : Sign sign negative)
    (unsigned : ¬Begins (fun c => c = '-' ∨ c = '+') cs) :
    signOf (sign ++ cs) = (negative, cs) := by
  cases h with
  | plus | minus => rfl
  | absent =>
    rw [List.nil_append]
    unfold signOf
    split
    · exact absurd (begins_cons.mpr (.inl rfl)) unsigned
    · exact absurd (begins_cons.mpr (.inr rfl)) unsigned
    · rfl

theorem not_begins_sign {ds : List Char} (h : Digits ds) (some : ds ≠ []) (cs : List Char) :
    ¬Begins (fun c => c = '-' ∨ c = '+') (ds ++ cs) := by
  obtain ⟨d, ds, rfl⟩ := List.exists_cons_of_ne_nil some
  rw [List.cons_append, begins_cons]
  rintro (rfl | rfl) <;> exact absurd (h _ List.mem_cons_self) (by decide)

theorem signOf_mantissa {sign mantissa ds fs : List Char} {negative : Bool}
    (isSign : Sign sign negative) (isMantissa : Mantissa mantissa ds fs) (cs : List Char) :
    signOf (sign ++ mantissa ++ cs) = (negative, mantissa ++ cs) := by
  rw [List.append_assoc]
  apply signOf_append isSign
  cases isMantissa with
  | whole digits some => exact not_begins_sign digits some cs
  | pointed digits _ _ =>
    rw [List.append_assoc, List.cons_append]
    by_cases none : ds = []
    · rw [none, List.nil_append, begins_cons]
      decide
    · exact not_begins_sign digits none _

/-- The digits before and after a point at the head of a text, and what follows them. -/
def mantissaRun (cs : List Char) : List Char × List Char × List Char :=
  ((digitRun cs).1, fractionRun (digitRun cs).2)

theorem scan_eq (cs : List Char) : scan cs =
    let (whole, fraction, rest) := mantissaRun (signOf cs).2
    if whole.isEmpty && fraction.isEmpty then .error .digits
    else
      match scanExponent rest with
      | .error e => .error e
      | .ok (n, rest) =>
        .ok (⟨(signOf cs).1, wholeOfDigits (whole ++ fraction), n - fraction.length⟩, rest) := rfl

theorem mantissa_of_run {cs ds fs rest : List Char} (h : mantissaRun cs = (ds, fs, rest))
    (digits : ds ≠ [] ∨ fs ≠ []) : ∃ mantissa, cs = mantissa ++ rest ∧ Mantissa mantissa ds fs := by
  obtain ⟨split, whole⟩ := digitRun_eq cs
  obtain ⟨rfl, after⟩ := Prod.ext_iff.mp h
  change fractionRun (digitRun cs).2 = (fs, rest) at after
  unfold fractionRun at after
  split at after
  · next tail point =>
    obtain ⟨split', fraction⟩ := digitRun_eq tail
    rw [after] at split' fraction
    refine ⟨(digitRun cs).1 ++ '.' :: fs, ?_, .pointed whole fraction digits⟩
    rw [List.append_assoc, List.cons_append, ← split', ← point, ← split]
  · cases after
    exact ⟨(digitRun cs).1, split, .whole whole (digits.resolve_right (absurd rfl))⟩

/-- The run takes the mantissa and goes no further, unless a digit or the first point comes next. -/
theorem run_of_mantissa {mantissa ds fs : List Char} (h : Mantissa mantissa ds fs)
    (cs : List Char) : ∃ ds' fs' rest, mantissaRun (mantissa ++ cs) = (ds', fs', rest) ∧
      (ds' ≠ [] ∨ fs' ≠ []) ∧ rest <:+ cs ∧
        (¬Begins (fun c => isDigit c = true ∨ c = '.') cs → ds' = ds ∧ fs' = fs ∧ rest = cs) := by
  cases h with
  | whole whole some =>
    refine ⟨mantissa ++ (digitRun cs).1, (fractionRun (digitRun cs).2).1,
      (fractionRun (digitRun cs).2).2, by rw [mantissaRun, digitRun_append whole],
      .inl (by simp [some]), (fractionRun_suffix _).trans (digitRun_suffix _), fun stops => ?_⟩
    have noDigit : ¬Begins (isDigit · = true) cs :=
      fun ⟨c, head, digit⟩ => stops ⟨c, head, .inl digit⟩
    rw [digitRun_of_not_begins noDigit, List.append_nil]
    have noPoint : fractionRun cs = ([], cs) := by
      unfold fractionRun
      split
      · exact absurd (begins_cons.mpr (.inr rfl)) stops
      · rfl
    simp [noPoint]
  | pointed whole fraction some =>
    have point : ¬Begins (isDigit · = true) ('.' :: (fs ++ cs)) := by
      rw [begins_cons]
      decide
    refine ⟨ds, fs ++ (digitRun cs).1, (digitRun cs).2, ?_, some.imp_right (by simp +contextual),
      digitRun_suffix cs, fun stops => ?_⟩
    · rw [mantissaRun, List.append_assoc, List.cons_append, digitRun_append whole,
        digitRun_of_not_begins point, List.append_nil, fractionRun, digitRun_append fraction]
    · have noDigit : ¬Begins (isDigit · = true) cs :=
        fun ⟨c, head, digit⟩ => stops ⟨c, head, .inl digit⟩
      simp [digitRun_of_not_begins noDigit]

theorem scanExponent_of_letter {c : Char} (h : IsExponentLetter c) (cs : List Char) :
    scanExponent (c :: cs) =
      let (ds, rest) := digitRun (signOf cs).2
      if ds.isEmpty then .error (.exponent (c :: cs))
      else .ok (if (signOf cs).1 then -(wholeOfDigits ds : Int) else wholeOfDigits ds, rest) :=
  if_pos h

theorem scanExponent_of_not_begins {cs : List Char} (h : ¬Begins IsExponentLetter cs) :
    scanExponent cs = .ok (0, cs) := by
  cases cs with
  | nil => rfl
  | cons c cs =>
    rw [begins_cons] at h
    exact if_neg h

theorem scanExponent_cases (cs : List Char) :
    (∃ exponent n rest, scanExponent cs = .ok (n, rest) ∧ cs = exponent ++ rest ∧
      Exponent exponent n ∧ (Begins IsExponentLetter cs → exponent ≠ [])) ∨
    scanExponent cs = .error (.exponent cs) ∧ Begins IsExponentLetter cs := by
  by_cases begins : Begins IsExponentLetter cs
  · cases cs with
    | nil => exact absurd begins not_begins_nil
    | cons c cs =>
      have letter := begins_cons.mp begins
      obtain ⟨sign, signed, isSign⟩ := signOf_eq cs
      obtain ⟨split, digits⟩ := digitRun_eq (signOf cs).2
      rw [scanExponent_of_letter letter]
      generalize digitRun (signOf cs).2 = run at split digits ⊢
      obtain ⟨ds, rest⟩ := run
      by_cases none : ds = []
      · exact .inr ⟨if_pos (List.isEmpty_iff.mpr none), begins⟩
      · have nonempty : ¬ds.isEmpty = true := by simpa using none
        refine .inl ⟨_, _, rest, if_neg nonempty, ?_, .written letter isSign digits none,
          fun _ => List.cons_ne_nil _ _⟩
        dsimp only at split
        rw [List.cons_append, List.append_assoc, ← split, ← signed]
  · exact .inl ⟨[], 0, cs, scanExponent_of_not_begins begins, rfl, .absent,
      fun letter => absurd letter begins⟩

/-- The scan takes the exponent and goes no further, unless a digit comes next. -/
theorem scanExponent_append {exponent : List Char} {n : Int} (h : Exponent exponent n)
    (present : exponent ≠ []) (cs : List Char) :
    ∃ n', scanExponent (exponent ++ cs) = .ok (n', (digitRun cs).2) ∧
      ((digitRun cs).1 = [] → n' = n) := by
  cases h with
  | absent => exact absurd rfl present
  | @written letter sign negative ds isLetter isSign digits some =>
    have after : signOf (sign ++ ds ++ cs) = (negative, ds ++ cs) := by
      rw [List.append_assoc, signOf_append isSign (not_begins_sign digits some cs)]
    have nonempty : ¬(ds ++ (digitRun cs).1).isEmpty = true := by simp [some]
    rw [List.cons_append, scanExponent_of_letter isLetter, after, digitRun_append digits]
    refine ⟨_, if_neg nonempty, fun none => ?_⟩
    rw [none, List.append_nil]
    rfl

/-- What a scan leaves, unless no numeral starts there. -/
def left? : Except Missing (Decimal × List Char) → Option (List Char)
  | .ok (_, rest) => some rest
  | .error (.exponent rest) => some rest
  | .error .digits => none

section

variable {cs text rest : List Char} {d : Decimal}

theorem scan_cases (cs : List Char) :
    scan cs = .error .digits ∨ ∃ text d rest, cs = text ++ rest ∧ Numeral text d ∧
      (scan cs = .ok (d, rest) ∨
        scan cs = .error (.exponent rest) ∧ Unfinished cs text rest) := by
  obtain ⟨sign, signed, isSign⟩ := signOf_eq cs
  rcases run : mantissaRun (signOf cs).2 with ⟨ds, fs, after⟩
  rw [scan_eq, run]
  by_cases none : ds = [] ∧ fs = []
  · exact .inl (if_pos (by simp [none]))
  have digits : ds ≠ [] ∨ fs ≠ [] := by grind
  have nonempty : ¬(ds.isEmpty && fs.isEmpty) = true := by grind
  obtain ⟨mantissa, split, isMantissa⟩ := mantissa_of_run run digits
  dsimp only
  rw [if_neg nonempty]
  obtain ⟨exponent, n, rest, scanned, split', isExponent, -⟩ | ⟨scanned, letter⟩ :=
    scanExponent_cases after <;> rw [scanned]
  · refine .inr ⟨_, _, rest, ?_, .spelled isSign isMantissa isExponent, .inl rfl⟩
    rw [List.append_assoc, List.append_assoc, ← split', ← split, ← signed]
  · have whole : cs = sign ++ mantissa ++ after := by
      rw [List.append_assoc, ← split, ← signed]
    have isNumeral : Numeral (sign ++ mantissa) ⟨(signOf cs).1, wholeOfDigits (ds ++ fs),
        0 - fs.length⟩ := by
      have spelled := Numeral.spelled isSign isMantissa .absent
      rwa [List.append_nil] at spelled
    refine .inr ⟨_, _, after, whole, isNumeral, .inr ⟨rfl, whole, ⟨isSign, isMantissa⟩, letter, ?_⟩⟩
    intro exponent n tail split' isExponent
    by_contra present
    obtain ⟨n', found, -⟩ := scanExponent_append isExponent present tail
    rw [split', found] at scanned
    cases scanned

/-- What is left after a scan is left after every numeral at the head. Where nothing else follows
the numeral, the scan finds just that. -/
theorem left?_of_numeral (h : Numeral text d) (cs : List Char) :
    (∃ rest, left? (scan (text ++ cs)) = some rest ∧ rest <:+ cs) ∧
      (cs = [] → scan (text ++ cs) = .ok (d, [])) := by
  obtain @⟨sign, negative, mantissa, ds, fs, exponent, n, isSign, isMantissa, isExponent⟩ := h
  have signed : signOf (sign ++ (mantissa ++ exponent) ++ cs) =
      (negative, mantissa ++ (exponent ++ cs)) := by
    rw [← signOf_mantissa isSign isMantissa]
    simp only [List.append_assoc]
  obtain ⟨ds', fs', after, run, digits, suffix, exactly⟩ :=
    run_of_mantissa isMantissa (exponent ++ cs)
  have nonempty : ¬(ds'.isEmpty && fs'.isEmpty) = true := by grind
  rw [scan_eq, signed, run]
  dsimp only
  rw [if_neg nonempty]
  by_cases present : exponent = []
  · subst present
    cases isExponent
    refine ⟨?_, ?_⟩
    · obtain ⟨exponent, n, rest, scanned, split, -, -⟩ | ⟨scanned, -⟩ :=
        scanExponent_cases after <;> rw [scanned]
      · exact ⟨rest, rfl, .trans ⟨exponent, split.symm⟩ suffix⟩
      · exact ⟨after, rfl, suffix⟩
    · rintro rfl
      obtain ⟨rfl, rfl, rfl⟩ := exactly not_begins_nil
      rfl
  · have letter : ¬Begins (fun c => isDigit c = true ∨ c = '.') (exponent ++ cs) := by
      cases isExponent with
      | absent => exact absurd rfl present
      | written letter _ _ _ =>
        rw [List.cons_append, begins_cons]
        obtain rfl | rfl := letter <;> decide
    obtain ⟨rfl, rfl, rfl⟩ := exactly letter
    obtain ⟨n', scanned, same⟩ := scanExponent_append isExponent present cs
    rw [scanned]
    refine ⟨⟨_, rfl, digitRun_suffix cs⟩, ?_⟩
    rintro rfl
    rw [same rfl]
    rfl

def IsNumeralStart (c : Char) : Prop := isDigit c = true ∨ c = '.' ∨ c = '-' ∨ c = '+'

theorem Numeral.begins (h : Numeral text d) (cs : List Char) :
    Begins IsNumeralStart (text ++ cs) := by
  obtain @⟨sign, negative, mantissa, ds, fs, exponent, n, isSign, isMantissa, -⟩ := h
  cases isSign with
  | plus | minus => simp [IsNumeralStart]
  | absent =>
    have first {ds : List Char} (digits : Digits ds) (some : ds ≠ []) (cs : List Char) :
        Begins IsNumeralStart (ds ++ cs) := by
      obtain ⟨d, ds, rfl⟩ := List.exists_cons_of_ne_nil some
      exact begins_cons.mpr (.inl (digits d List.mem_cons_self))
    rw [List.nil_append, List.append_assoc]
    cases isMantissa with
    | whole digits some => exact first digits some _
    | pointed digits _ _ =>
      rw [List.append_assoc, List.cons_append]
      by_cases none : ds = []
      · rw [none]
        exact begins_cons.mpr (.inr (.inl rfl))
      · exact first digits none _

/-- A text spells at most one number. -/
theorem Numeral.unique {d' : Decimal} (h : Numeral text d) (h' : Numeral text d') : d = d' := by
  have scanned := (left?_of_numeral h []).2 rfl
  rw [(left?_of_numeral h' []).2 rfl] at scanned
  cases scanned
  rfl

theorem Munched.begins (h : Munched cs d rest) : Begins IsNumeralStart cs := by
  obtain ⟨⟨text, rfl, isNumeral⟩, -⟩ := h
  exact isNumeral.begins rest

theorem Munched.length_lt (h : Munched cs d rest) : rest.length < cs.length := by
  obtain ⟨⟨text, rfl, isNumeral⟩, -⟩ := h
  have nonempty : text ≠ [] := by
    rintro rfl
    exact not_begins_nil (isNumeral.begins [])
  have := List.length_pos_iff.mpr nonempty
  rw [List.length_append]
  omega

/-- A scan takes the longest numeral. -/
theorem munched_of_scan (h : scan cs = .ok (d, rest)) : Munched cs d rest := by
  obtain no | ⟨text, d', rest', split, isNumeral, found | ⟨no, -⟩⟩ := scan_cases cs
  · cases no.symm.trans h
  · cases found.symm.trans h
    refine ⟨⟨text, split, isNumeral⟩, fun text' d' rest' split' isNumeral' => ?_⟩
    obtain ⟨left, isLeft, suffix⟩ := (left?_of_numeral isNumeral' rest').1
    rw [← split', h] at isLeft
    cases isLeft
    exact suffix.length_le
  · cases no.symm.trans h

theorem scan_eq_digits_iff : scan cs = .error .digits ↔
    ∀ text d rest, cs = text ++ rest → ¬Numeral text d := by
  constructor
  · intro missing text d rest split isNumeral
    obtain ⟨left, isLeft, -⟩ := (left?_of_numeral isNumeral rest).1
    rw [← split, missing] at isLeft
    cases isLeft
  · intro none
    obtain missing | ⟨text, d, rest, split, isNumeral, -⟩ := scan_cases cs
    · exact missing
    · exact absurd isNumeral (none text d rest split)

/-- A scan stops at the letter of an exponent that never comes. -/
theorem scan_eq_exponent_iff : scan cs = .error (.exponent rest) ↔ ∃ text, Unfinished cs text rest := by
  constructor
  · intro stuck
    obtain missing | ⟨text, d, rest', -, -, found | ⟨stuck', unfinished⟩⟩ := scan_cases cs
    · cases missing.symm.trans stuck
    · cases found.symm.trans stuck
    · cases stuck'.symm.trans stuck
      exact ⟨text, unfinished⟩
  · rintro ⟨text, rfl, @⟨sign, negative, mantissa, whole, fraction, isSign, isMantissa⟩, letter,
      noExponent⟩
    have stops : ¬Begins (fun c => isDigit c = true ∨ c = '.') rest := by
      obtain ⟨c, head, rfl | rfl⟩ := letter <;> rintro ⟨c', head', digit⟩ <;>
        cases head.symm.trans head' <;> revert digit <;> decide
    obtain ⟨ds, fs, after, run, digits, -, exactly⟩ := run_of_mantissa isMantissa rest
    obtain ⟨rfl, rfl, rfl⟩ := exactly stops
    have nonempty : ¬(ds.isEmpty && fs.isEmpty) = true := by grind
    have stuck : scanExponent after = .error (.exponent after) := by
      obtain ⟨exponent, n, tail, -, split, isExponent, some⟩ | ⟨stuck, -⟩ := scanExponent_cases after
      · exact absurd (noExponent exponent n tail split isExponent) (some letter)
      · exact stuck
    rw [scan_eq, signOf_mantissa isSign isMantissa, run]
    dsimp only
    rw [if_neg nonempty, stuck]

/-- A scan takes the longest numeral, and gives it up only for the letter of an exponent. -/
theorem scan_eq_ok_iff : scan cs = .ok (d, rest) ↔
    Munched cs d rest ∧ ∀ text, ¬Unfinished cs text rest := by
  constructor
  · intro found
    refine ⟨munched_of_scan found, fun text unfinished => ?_⟩
    cases (scan_eq_exponent_iff.mpr ⟨text, unfinished⟩).symm.trans found
  · rintro ⟨⟨⟨text, rfl, isNumeral⟩, longest⟩, finished⟩
    obtain ⟨left, isLeft, suffix⟩ := (left?_of_numeral isNumeral rest).1
    -- What the scan leaves is no longer than the rest, and no shorter since it takes a numeral.
    have exactly {text' d'} (split : text ++ rest = text' ++ left) (isNumeral' : Numeral text' d') :
        left = rest ∧ d' = d := by
      have same : left = rest :=
        suffix.eq_of_length (Nat.le_antisymm suffix.length_le (longest _ _ _ split isNumeral'))
      rw [same] at split
      rw [← List.append_cancel_right split] at isNumeral'
      exact ⟨same, isNumeral'.unique isNumeral⟩
    obtain missing | ⟨text', d', rest', split, isNumeral', found | ⟨stuck, unfinished⟩⟩ :=
      scan_cases (text ++ rest)
    · rw [missing] at isLeft
      cases isLeft
    · rw [found] at isLeft
      cases isLeft
      obtain ⟨rfl, rfl⟩ := exactly split isNumeral'
      exact found
    · rw [stuck] at isLeft
      cases isLeft
      obtain ⟨rfl, -⟩ := exactly split isNumeral'
      exact absurd unfinished (finished text')

end

end SvgPage.Decimal
