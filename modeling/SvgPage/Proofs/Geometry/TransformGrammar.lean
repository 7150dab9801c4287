import Mathlib
import SvgPage.Geometry.TransformList
import SvgPage.Proofs.Geometry.Affine
import SvgPage.Proofs.Number.Numeral
import SvgPage.Proofs.Text.Pieces

/-!
# The grammar of transform lists

A transform list is a run of separators and then calls, each followed by separators. Reading
accepts just these texts and gives the matrices of the calls in written order, so that lists which
are joined denote the product of what each denotes.
-/

namespace SvgPage

namespace Decimal

theorem read?_eq_some_iff {cs : List Char} {d : Decimal} : read? cs = some d ↔ Numeral cs d := by
  constructor
  · intro h
    unfold read? at h
    split at h
    · next d' scanned =>
      cases h
      obtain ⟨⟨text, split, isNumeral⟩, -⟩ := munched_of_scan scanned
      rw [split, List.append_nil]
      exact isNumeral
    · cases h
  · intro h
    have scanned := (left?_of_numeral h []).2 rfl
    rw [List.append_nil] at scanned
    simp [read?, scanned]

def IsNumeralChar (c : Char) : Prop :=
  isDigit c = true ∨ c = '.' ∨ c = '-' ∨ c = '+' ∨ c = 'e' ∨ c = 'E'

theorem Numeral.isNumeralChar {cs : List Char} {d : Decimal} (h : Numeral cs d) :
    ∀ c ∈ cs, IsNumeralChar c := by
  have ofSign {sign : List Char} {negative : Bool} (h : Sign sign negative) :
      ∀ c ∈ sign, IsNumeralChar c := by
    cases h <;> simp [IsNumeralChar]
  have ofDigits {ds : List Char} (h : Digits ds) : ∀ c ∈ ds, IsNumeralChar c :=
    fun c inside => .inl (h c inside)
  obtain ⟨isSign, isMantissa, isExponent⟩ := h
  rw [List.forall_mem_append, List.forall_mem_append]
  refine ⟨ofSign isSign, ?_, ?_⟩
  · cases isMantissa with
    | whole digits _ => exact ofDigits digits
    | pointed digits fraction _ =>
      rw [List.forall_mem_append, List.forall_mem_cons]
      exact ⟨ofDigits digits, by simp [IsNumeralChar], ofDigits fraction⟩
  · cases isExponent with
    | absent => simp
    | written letter isSign digits _ =>
      rw [List.forall_mem_cons, List.forall_mem_append]
      refine ⟨?_, ofSign isSign, ofDigits digits⟩
      obtain rfl | rfl := letter <;> simp [IsNumeralChar]

theorem IsNumeralChar.inside {c : Char} (h : IsNumeralChar c) :
    Text.isSeparator c = false ∧ c ≠ ')' := by
  obtain digit | rfl | rfl | rfl | rfl | rfl := h
  · simp only [isDigit, Bool.and_eq_true, decide_eq_true_eq, Char.le_def,
      UInt32.le_iff_toNat_le] at digit
    change 48 ≤ c.toNat ∧ c.toNat ≤ 57 at digit
    have apart {d : Char} (other : d.toNat < 48) : c ≠ d := by
      rintro rfl
      omega
    refine ⟨?_, apart (by decide)⟩
    have comma : c ≠ ',' := apart (by decide)
    simp only [Text.isSeparator, Text.isBlank, Bool.or_eq_false_iff, Bool.and_eq_false_iff,
      decide_eq_false_iff_not, beq_eq_false_iff_ne]
    refine ⟨?_, comma⟩
    omega
  all_goals decide

end Decimal

namespace TransformList

open Text

variable {α : Type} [Scalar α]

structure Argument (text : List Char) (a : α) : Prop where
  numeral : ∃ d, Decimal.Numeral text d ∧ Scalar.ofDecimal d = a
  finite : Scalar.isFinite a = true

def Arguments (text : List Char) (as : List α) : Prop :=
  ∃ words, Separated isSeparator text words ∧ List.Forall₂ Argument words as

/-- The functions with the arguments that they take, and the matrices of a call. -/
inductive Call : String → List α → List (Matrix α) → Prop
  | matrix {a b c d e f} : Call "matrix" [a, b, c, d, e, f] [⟨a, b, c, d, e, f⟩]
  | translateAlong {x} : Call "translate" [x] [.translate x 0]
  | translate {x y} : Call "translate" [x, y] [.translate x y]
  | translateX {x} : Call "translateX" [x] [.translate x 0]
  | translateY {y} : Call "translateY" [y] [.translate 0 y]
  | rotate {a} : Call "rotate" [a] [.rotate a]
  | rotateAbout {a x y} : Call "rotate" [a, x, y] [.translate x y, .rotate a, .translate (-x) (-y)]
  | scaleEvenly {k} : Call "scale" [k] [.scale k k]
  | scale {x y} : Call "scale" [x, y] [.scale x y]
  | scaleX {x} : Call "scaleX" [x] [.scale x 1]
  | scaleY {y} : Call "scaleY" [y] [.scale 1 y]
  | skewEvenly {a} : Call "skew" [a] [.skew a a]
  | skew {a b} : Call "skew" [a, b] [.skew a b]
  | skewX {a} : Call "skewX" [a] [.skew a 0]
  | skewY {a} : Call "skewY" [a] [.skew 0 a]

def Gap (cs : List Char) : Prop := ∀ c ∈ cs, isSeparator c = true

def Blank (cs : List Char) : Prop := ∀ c ∈ cs, isBlank c = true

inductive Calls : List Char → List (Matrix α) → Prop
  | none : Calls [] []
  | call {front name back inside gap rest args ms more} : Blank front → Blank back →
      Call name args ms → Arguments inside args → Gap gap → Calls rest more →
        Calls (front ++ (name.toList ++ back) ++ '(' :: (inside ++ ')' :: (gap ++ rest)))
          (ms ++ more)

/-- A text that is a transform list, and its matrices. -/
def Spelled (cs : List Char) (ms : List (Matrix α)) : Prop :=
  ∃ gap rest, cs = gap ++ rest ∧ Gap gap ∧ Calls rest ms

section

variable {cs text : List Char} {as : List α} {name : String} {ms : List (Matrix α)}

theorem argument?_eq_some_iff {a : α} : argument? text = some a ↔ Argument text a := by
  constructor
  · intro h
    obtain ⟨d, numeral, h⟩ := Option.bind_eq_some_iff.mp h
    dsimp only at h
    split at h
    · next finite =>
      cases h
      exact ⟨⟨d, Decimal.read?_eq_some_iff.mp numeral, rfl⟩, finite⟩
    · cases h
  · rintro ⟨⟨d, numeral, rfl⟩, finite⟩
    simp [argument?, Decimal.read?_eq_some_iff.mpr numeral, finite]

theorem mapM_argument?_eq_some_iff {words : List (List Char)} :
    words.mapM argument? = some as ↔ List.Forall₂ Argument words as := by
  induction words generalizing as with
  | nil => cases as <;> simp
  | cons word words ih =>
    cases as with
    | nil => simp [List.mapM_cons, Option.bind_eq_some_iff]
    | cons a as => simp [List.mapM_cons, Option.bind_eq_some_iff, argument?_eq_some_iff, ih]

theorem arguments?_eq_some_iff : arguments? cs = some as ↔ Arguments cs as := by
  rw [arguments?, mapM_argument?_eq_some_iff]
  constructor
  · intro h
    exact ⟨_, separated_fields isSeparator cs, h⟩
  · rintro ⟨words, separated, h⟩
    rwa [fields_eq_iff.mpr separated]

theorem Arguments.no_bracket (h : Arguments cs as) : ∀ c ∈ cs, c ≠ ')' := by
  obtain ⟨words, separated, each⟩ := h
  have gap {gap : List Char} (separates : ∀ c ∈ gap, isSeparator c = true) :
      ∀ c ∈ gap, c ≠ ')' := by
    rintro _ inside rfl
    cases separates _ inside
  induction separated generalizing as with
  | gap separates => exact gap separates
  | word separates _ _ _ _ ih =>
    cases each with
    | cons first others =>
      obtain ⟨d, numeral, -⟩ := first.numeral
      rw [List.forall_mem_append, List.forall_mem_append]
      exact ⟨gap separates, fun c inside => (numeral.isNumeralChar c inside).inside.2, ih others⟩

theorem call?_eq_some_iff : call? name as = some ms ↔ Call name as ms := by
  constructor
  · intro h
    unfold call? at h
    split at h <;> cases h <;> constructor
  · rintro ⟨⟩ <;> rfl

theorem Call.name_whole (h : Call name as ms) :
    name.toList ≠ [] ∧ ∀ c ∈ name.toList, isSeparator c = false ∧ c ≠ '(' := by
  have whole : (name.toList.all fun c => !isSeparator c && c != '(') = true := by
    cases h <;> rfl
  constructor
  · cases h <;> simp
  · simpa using whole

theorem Blank.gap (h : Blank cs) : Gap cs := by
  intro c inside
  simp [isSeparator, h c inside]

theorem Blank.no_bracket (h : Blank cs) : ∀ c ∈ cs, c ≠ '(' := by
  rintro _ inside rfl
  cases h _ inside

theorem Gap.append {ds : List Char} (first : Gap cs) (second : Gap ds) : Gap (cs ++ ds) :=
  List.forall_mem_append.mpr ⟨first, second⟩

theorem Gap.skip (h : Gap cs) (rest : List Char) :
    TransformList.skip (cs ++ rest) = TransformList.skip rest :=
  List.dropWhile_append_of_pos h

end

section

variable {cs : List Char} {ms : List (Matrix α)} {fuel : Nat}

/-- A text that starts with something starts with a call, which is read before the rest. -/
theorem callsWithin_succ (filled : cs ≠ []) : callsWithin (α := α) (fuel + 1) cs =
    (splitFirst? (· == '(') cs).bind fun (name, rest) =>
      (splitFirst? (· == ')') rest).bind fun (inside, rest) =>
        (arguments? inside).bind fun args =>
          (call? (String.ofList (trim name)) args).bind fun ms =>
            (callsWithin fuel (skip rest)).bind fun more => some (ms ++ more) := by
  cases cs with
  | nil => exact absurd rfl filled
  | cons c cs =>
    rw [callsWithin]
    rfl

theorem calls_of_callsWithin (enough : cs.length < fuel) (h : callsWithin fuel cs = some ms) :
    Calls cs ms := by
  induction fuel generalizing cs ms with
  | zero => exact absurd enough (Nat.not_lt_zero _)
  | succ fuel ih =>
    by_cases filled : cs = []
    · subst filled
      cases h
      exact .none
    · rw [callsWithin_succ filled] at h
      obtain ⟨⟨name, rest⟩, opening, h⟩ := Option.bind_eq_some_iff.mp h
      obtain ⟨⟨inside, rest'⟩, closing, h⟩ := Option.bind_eq_some_iff.mp h
      obtain ⟨args, arguments, h⟩ := Option.bind_eq_some_iff.mp h
      obtain ⟨ms, call, h⟩ := Option.bind_eq_some_iff.mp h
      obtain ⟨more, following, h⟩ := Option.bind_eq_some_iff.mp h
      cases h
      have shorter := length_of_splitFirst? opening
      have shorter' := length_of_splitFirst? closing
      have skipped : (skip rest').length ≤ rest'.length := List.length_dropWhile_le ..
      have others := ih (by omega) following
      obtain ⟨c, rfl, isOpening, -⟩ := exists_of_splitFirst? opening
      obtain ⟨d, rfl, isClosing, -⟩ := exists_of_splitFirst? closing
      obtain rfl := eq_of_beq isOpening
      obtain rfl := eq_of_beq isClosing
      obtain ⟨front, back, around, before, after⟩ := exists_ends isBlank name
      change name = front ++ (trim name ++ back) at around
      have gap : Gap (rest'.takeWhile isSeparator) := fun c inside => List.mem_takeWhile_imp inside
      have cut : rest' = rest'.takeWhile isSeparator ++ skip rest' :=
        List.takeWhile_append_dropWhile.symm
      have spelled := Calls.call before after (call?_eq_some_iff.mp call)
        (arguments?_eq_some_iff.mp arguments) gap others
      rwa [String.toList_ofList, ← cut, ← around] at spelled

theorem callsWithin_of_calls (h : Calls cs ms) (enough : (skip cs).length < fuel) :
    callsWithin fuel (skip cs) = some ms := by
  induction h generalizing fuel with
  | none =>
    cases fuel with
    | zero => exact absurd enough (Nat.not_lt_zero _)
    | succ fuel => rfl
  | @call front name back inside gap rest args ms more before after call arguments isGap _ ih =>
    obtain ⟨filled, whole⟩ := call.name_whole
    obtain ⟨c, cs, start⟩ := List.exists_cons_of_ne_nil filled
    have first : ¬isSeparator c = true := by
      have := (whole c (start ▸ .head cs)).1
      simp [this]
    -- The blanks before the name go with the separators before the call.
    have skipped :
        skip (front ++ (name.toList ++ back) ++ '(' :: (inside ++ ')' :: (gap ++ rest))) =
          (name.toList ++ back) ++ '(' :: (inside ++ ')' :: (gap ++ rest)) := by
      rw [List.append_assoc, before.gap.skip, start]
      exact List.dropWhile_cons_of_neg first
    rw [skipped] at enough ⊢
    cases fuel with
    | zero => exact absurd enough (Nat.not_lt_zero _)
    | succ fuel =>
      have opening : splitFirst? (· == '(')
          ((name.toList ++ back) ++ '(' :: (inside ++ ')' :: (gap ++ rest))) =
            some (name.toList ++ back, inside ++ ')' :: (gap ++ rest)) := by
        refine splitFirst?_append_cons ?_ rfl _
        refine List.forall_mem_append.mpr ⟨fun c inside => ?_, fun c inside => ?_⟩
        · exact beq_eq_false_iff_ne.mpr (whole c inside).2
        · exact beq_eq_false_iff_ne.mpr (after.no_bracket c inside)
      have closing : splitFirst? (· == ')') (inside ++ ')' :: (gap ++ rest)) =
          some (inside, gap ++ rest) := by
        refine splitFirst?_append_cons ?_ rfl _
        intro c within
        exact beq_eq_false_iff_ne.mpr (arguments.no_bracket c within)
      have trimmed : trim (name.toList ++ back) = name.toList := by
        have word : ∀ c ∈ name.toList, isBlank c = false := fun c inside =>
          (Bool.or_eq_false_iff.mp (whole c inside).1).1
        exact trimBy_append word (List.forall_mem_nil (isBlank · = true)) after
      have others : callsWithin fuel (skip (gap ++ rest)) = some more := by
        rw [isGap.skip]
        apply ih
        have := List.length_dropWhile_le isSeparator rest
        simp only [List.length_append, List.length_cons] at enough
        unfold skip
        omega
      rw [callsWithin_succ (by simp [filled])]
      simp only [opening, closing, Option.bind_some]
      rw [arguments?_eq_some_iff.mpr arguments, trimmed, String.ofList_toList, Option.bind_some,
        call?_eq_some_iff.mpr call, Option.bind_some, others]
      rfl

/-- Reading takes exactly the transform lists. -/
theorem read?_eq_some_iff : read? cs = some ms ↔ Spelled cs ms := by
  constructor
  · intro h
    have shorter := List.length_dropWhile_le isSeparator cs
    refine ⟨cs.takeWhile isSeparator, skip cs, List.takeWhile_append_dropWhile.symm,
      fun c inside => List.mem_takeWhile_imp inside, ?_⟩
    exact calls_of_callsWithin (Nat.lt_succ_of_le shorter) h
  · rintro ⟨gap, rest, rfl, isGap, calls⟩
    have shorter := List.length_dropWhile_le isSeparator rest
    rw [read?, isGap.skip]
    apply callsWithin_of_calls calls
    rw [List.length_append]
    unfold skip
    omega

end

section

variable {cs ds : List Char} {ms ns : List (Matrix α)}

theorem Calls.append_gap (h : Calls cs ms) (isGap : Gap ds) :
    Calls (cs ++ ds) ms ∨ cs = [] ∧ ms = [] := by
  induction h with
  | none => exact .inr ⟨rfl, rfl⟩
  | @call front name back inside gap rest args ms more before after call arguments first others
      ih =>
    left
    obtain more | ⟨rfl, rfl⟩ := ih
    · have joined := Calls.call before after call arguments first more
      simpa using joined
    · have joined := Calls.call before after call arguments (first.append isGap) .none
      simpa using joined

theorem Calls.append (first : Calls cs ms) (second : Calls ds ns) :
    Calls (cs ++ ds) (ms ++ ns) := by
  induction first with
  | none => exact second
  | call before after call arguments gap _ ih =>
    have joined := Calls.call before after call arguments gap ih
    simpa using joined

theorem Spelled.append (first : Spelled cs ms) (second : Spelled ds ns) :
    Spelled (cs ++ ds) (ms ++ ns) := by
  obtain ⟨gap, rest, rfl, isGap, calls⟩ := first
  obtain ⟨gap', rest', rfl, isGap', calls'⟩ := second
  obtain joined | ⟨rfl, rfl⟩ := calls.append_gap isGap'
  · refine ⟨gap, (rest ++ gap') ++ rest', by simp, isGap, ?_⟩
    exact joined.append calls'
  · refine ⟨gap ++ gap', rest', by simp, isGap.append isGap', ?_⟩
    exact calls'

end

theorem Call.length {name : String} {as : List α} {ms : List (Matrix α)} (h : Call name as ms) :
    ms.length = if name = "rotate" ∧ as.length = 3 then 3 else 1 := by
  cases h <;> simp

theorem Call.pivot_fixed {a x y : ℝ} {ms : List (Matrix ℝ)} (h : Call "rotate" [a, x, y] ms) :
    (Matrix.compose ms).apply ⟨x, y⟩ = ⟨x, y⟩ := by
  have matrices := call?_eq_some_iff.mpr h
  cases matrices
  simp

/-- Exactly the texts of the grammar are read, and lists are joined as their texts are. With exact
numbers a list denotes the product of its matrices, of which the last one is applied first, and
a rotation about a point leaves that point where it is. -/
theorem lists_read_and_composed :
    (∀ (cs : List Char) (ms : List (Matrix α)), read? cs = some ms ↔ Spelled cs ms) ∧
      (∀ {name : String} {as : List α} {ms : List (Matrix α)}, Call name as ms →
        ms.length = if name = "rotate" ∧ as.length = 3 then 3 else 1) ∧
      (∀ {cs ds : List Char} {ms ns : List (Matrix α)}, read? cs = some ms → read? ds = some ns →
        read? (cs ++ ds) = some (ms ++ ns)) ∧
      (∀ ms ns : List (Matrix ℝ),
        Matrix.compose (ms ++ ns) = (Matrix.compose ms).mul (Matrix.compose ns)) ∧
      (∀ (ms : List (Matrix ℝ)) (p : Point ℝ),
        (Matrix.compose ms).apply p = ms.foldr Matrix.apply p) ∧
      ∀ {a x y : ℝ} {ms : List (Matrix ℝ)}, Call "rotate" [a, x, y] ms →
        (Matrix.compose ms).apply ⟨x, y⟩ = ⟨x, y⟩ := by
  refine ⟨fun _ _ => read?_eq_some_iff, Call.length, ?_, Matrix.compose_append,
    Matrix.compose_apply, Call.pivot_fixed⟩
  intro cs ds ms ns first second
  apply read?_eq_some_iff.mpr
  exact (read?_eq_some_iff.mp first).append (read?_eq_some_iff.mp second)

/-- A list that scales and then turns about a point. -/
theorem lists_read_and_composed_pivoted :
    let pivoted : List (Matrix ℝ) := [.translate 5 7, .rotate 9, .translate (-5) (-7)]
    read? "scale(2)".toList = some [.scale (2 : ℝ) 2] ∧
      read? "rotate ( 9,5 7 ) ,".toList = some pivoted ∧
        read? ("scale(2)".toList ++ "rotate ( 9,5 7 ) ,".toList) =
          some ([.scale (2 : ℝ) 2] ++ pivoted) ∧
          pivoted.length = 3 ∧ (Matrix.compose pivoted).apply ⟨5, 7⟩ = ⟨5, 7⟩ := by
  intro pivoted
  have whole (n : ℕ) : (⟨false, n, 0⟩ : Decimal).value = n := by simp [Decimal.value]
  have first : read? "scale(2)".toList = some [.scale (2 : ℝ) 2] := by
    have read : read? "scale(2)".toList =
        some [.scale (⟨false, 2, 0⟩ : Decimal).value (⟨false, 2, 0⟩ : Decimal).value] := by
      rfl
    simpa [whole] using read
  have second : read? "rotate ( 9,5 7 ) ,".toList = some pivoted := by
    have read : read? "rotate ( 9,5 7 ) ,".toList =
        some [.translate (⟨false, 5, 0⟩ : Decimal).value (⟨false, 7, 0⟩ : Decimal).value,
          .rotate (⟨false, 9, 0⟩ : Decimal).value,
          .translate (-(⟨false, 5, 0⟩ : Decimal).value) (-(⟨false, 7, 0⟩ : Decimal).value)] := by
      rfl
    simpa [whole] using read
  have called : Call "rotate" [(9 : ℝ), 5, 7] pivoted := .rotateAbout
  obtain ⟨-, length, joined, -, -, fixed⟩ := lists_read_and_composed (α := ℝ)
  refine ⟨first, second, joined first second, ?_, fixed called⟩
  simpa using length called

end TransformList

end SvgPage
