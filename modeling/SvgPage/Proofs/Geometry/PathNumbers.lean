import SvgPage.Proofs.Geometry.Splicing
import SvgPage.Proofs.Number.Reading

/-!
# Numbers of path data

A number is taken from wherever the reading has come to. The gap before it is passed first. From
there the longest numeral is taken, however tightly it is written against the next one, unless the
letter of an exponent stands behind it and no exponent. Where no sign and mantissa start, nothing is
taken. What is taken is read as the nearest double. A turn of the loop over path data takes a
character at least, by which it ends.
-/

namespace SvgPage

namespace Decimal

theorem Unscaled.numeral {text : List Char} (h : Unscaled text) : ∃ d, Numeral text d := by
  obtain ⟨isSign, isMantissa⟩ := h
  have spelled := Numeral.spelled isSign isMantissa .absent
  rw [List.append_nil] at spelled
  exact ⟨_, spelled⟩

theorem Numeral.exists_unscaled {text : List Char} {d : Decimal} (h : Numeral text d) :
    ∃ unscaled exponent, text = unscaled ++ exponent ∧ Unscaled unscaled := by
  obtain ⟨isSign, isMantissa, -⟩ := h
  exact ⟨_, _, (List.append_assoc ..).symm, .spelled isSign isMantissa⟩

/-- No sign and mantissa start here, as no digit does. -/
def Unwritten (cs : List Char) : Prop := ∀ text rest, cs = text ++ rest → ¬Unscaled text

theorem scan_eq_digits_iff_unwritten {cs : List Char} :
    scan cs = .error .digits ↔ Unwritten cs := by
  rw [scan_eq_digits_iff]
  constructor
  · intro none text rest split unscaled
    obtain ⟨d, isNumeral⟩ := unscaled.numeral
    exact none text d rest split isNumeral
  · intro none text d rest split isNumeral
    obtain ⟨unscaled, exponent, rfl, isUnscaled⟩ := isNumeral.exists_unscaled
    rw [List.append_assoc] at split
    exact none unscaled (exponent ++ rest) split isUnscaled

/-- A numeral is a text that reads as a double. -/
theorem Numeral.readFloat? {text : List Char} {d : Decimal} (h : Numeral text d) :
    SvgPage.readFloat? text = some d.toFloat := by
  have scanned := (left?_of_numeral h []).2 rfl
  rw [List.append_nil] at scanned
  unfold SvgPage.readFloat? read?
  rw [scanned]

end Decimal

namespace PathData

open Decimal

section

variable {α : Type} [Scalar α]

/-- What becomes of a number that starts here, with the text that is passed by it. -/
inductive Lexes (start : List Char) : List Char → Except Fault (α × List Char) → Prop
  | munched {text d rest} : start = text ++ rest → Munched start d rest →
      (∀ text, ¬Unfinished start text rest) → Lexes start text (.ok (Scalar.ofDecimal d, rest))
  | absent : Unwritten start → Lexes start [] (.error ⟨.noNumber, start⟩)
  | unfinished {text rest} : Unfinished start text rest →
      Lexes start text (.error ⟨.incompleteExponent, rest⟩)

variable {cs start text : List Char} {outcome : Except Fault (α × List Char)}

theorem lexes_number (cs : List Char) :
    ∃ text, Lexes (skip cs) text (number (α := α) cs) := by
  unfold number
  dsimp only
  cases scanned : scan (skip cs) with
  | ok p =>
    obtain ⟨munched, finished⟩ := scan_eq_ok_iff.mp scanned
    obtain ⟨text, split, -⟩ := munched.1
    exact ⟨text, .munched split munched finished⟩
  | error missing =>
    cases missing with
    | digits => exact ⟨[], .absent (scan_eq_digits_iff_unwritten.mp scanned)⟩
    | exponent rest =>
      obtain ⟨text, unfinished⟩ := scan_eq_exponent_iff.mp scanned
      exact ⟨text, .unfinished unfinished⟩

theorem number_of_lexes (h : Lexes (skip cs) text outcome) : number cs = outcome := by
  unfold number
  dsimp only
  cases h with
  | munched _ munched finished => rw [scan_eq_ok_iff.mpr ⟨munched, finished⟩]
  | absent none => rw [scan_eq_digits_iff_unwritten.mpr none]
  | unfinished unfinished => rw [scan_eq_exponent_iff.mpr ⟨_, unfinished⟩]

theorem number_eq_iff : number cs = outcome ↔ ∃ text, Lexes (skip cs) text outcome := by
  constructor
  · rintro rfl
    exact lexes_number cs
  · rintro ⟨text, lexes⟩
    exact number_of_lexes lexes

theorem Lexes.split (h : Lexes start text outcome) : start = text ++ remainder outcome := by
  cases h with
  | munched split => exact split
  | absent => rfl
  | unfinished unfinished => exact unfinished.split

/-- The double that a text denotes: the nearest to the number that it spells. -/
structure IsRead (text : List Char) (x : Float) : Prop where
  isSome : text ≠ []
  accepted : SvgPage.readFloat? text = some x
  nearest : ∃ d, Numeral text d ∧ Double.IsNearest d.negative d.magnitude x

/-- A number that has been taken is the double that its text denotes. -/
theorem Lexes.isRead {x : Float} {rest : List Char} (h : Lexes start text (.ok (x, rest))) :
    IsRead text x := by
  obtain @⟨_, d, _, split, ⟨⟨text', split', isNumeral⟩, -⟩, -⟩ := h
  obtain rfl : text = text' := List.append_cancel_right (split.symm.trans split')
  refine ⟨?_, isNumeral.readFloat?, d, isNumeral, d.isNearest_toFloat⟩
  rintro rfl
  obtain ⟨_, member, -⟩ := isNumeral.begins []
  cases member

theorem Fault.position_append (before : List Char) (fault : Fault) :
    fault.position (before ++ fault.rest) = byteLength before := by
  unfold Fault.position
  rw [byteLength_append, Nat.add_sub_cancel]

theorem skip_not_begins (cs : List Char) : ¬Begins (fun c => Gap [c]) (skip cs) := by
  rintro ⟨c, head, separates⟩
  have separator := isSeparator_iff.mpr (separates c List.mem_cons_self)
  have stops := List.head?_dropWhile_not isSeparator cs
  rw [← skip, head] at stops
  exact Bool.false_ne_true (stops.symm.trans separator)

end

variable (α : Type) [Scalar α]

/-- How a number is taken where the reading of a text has come to `cs`, past what stands before: the
number starts behind a gap. -/
structure TakesNumber (before gap start cs : List Char) : Prop where
  passes : cs = gap ++ start
  separate : Gap gap
  starts : ¬Begins (fun c => Gap [c]) start
  /-- The outcome is the one that the spelling asks for. -/
  lexes : ∀ outcome, number (α := α) cs = outcome ↔ ∃ text, Lexes start text outcome
  /-- The place that is reached lies in the text, and no earlier than the start of the number. -/
  inside : ∀ text outcome, Lexes (α := α) start text outcome → start = text ++ remainder outcome
  /-- What has been taken is accepted as a double, and is the nearest one. -/
  reads : ∀ text (x : Float) rest, Lexes start text (.ok (x, rest)) → IsRead text x
  /-- A fault is placed right behind what has been passed. -/
  placed : ∀ text fault, Lexes (α := α) start text (.error fault) →
    fault.position (before ++ cs) = byteLength (before ++ gap ++ text)
  /-- A number that is there takes a character at least. -/
  advances : ∀ x rest, number (α := α) cs = .ok (x, rest) → rest.length < cs.length
  /-- So does a turn of the loop, and the length of the text bounds the number of its turns. -/
  turns : ∀ previous c tail group, start = c :: tail →
    groupAt (α := α) previous c tail = .ok group → group.2.length < cs.length
  ends : ∀ previous extra,
    segmentsWithin (α := α) (cs.length + 1 + extra) previous cs = segmentsFrom previous cs

/-- Numbers are taken by maximal munch, and reading goes on behind them. -/
theorem number_takesNumber (before cs : List Char) :
    ∃ gap start, TakesNumber α before gap start cs := by
  refine ⟨cs.takeWhile isSeparator, skip cs, (gap_append_skip cs).symm, gap_takeWhile cs,
    skip_not_begins cs, fun _ => number_eq_iff, fun _ _ => Lexes.split, fun _ _ _ => Lexes.isRead,
    ?_, ?_, ?_, ?_⟩
  · intro text fault lexes
    have whole : cs = cs.takeWhile isSeparator ++ text ++ fault.rest := by
      rw [List.append_assoc]
      exact (gap_append_skip cs).symm.trans (congrArg _ lexes.split)
    conv_lhs => rw [whole, ← List.append_assoc]
    rw [fault.position_append, List.append_assoc]
  · intro x rest taken
    obtain ⟨d, -, reads⟩ := reads_of_number taken
    have shorter := reads.length_le
    rw [List.length_singleton] at shorter
    omega
  · rintro previous c tail ⟨⟨k, a⟩, rest⟩ skipped read
    have short := length_le_of_groupAt read
    have shorter := length_skip_le cs
    rw [skipped, List.length_cons] at shorter
    exact Nat.lt_of_le_of_lt short shorter
  · intro previous extra
    apply segmentsWithin_eq
    omega

variable {α} in
theorem TakesNumber.start_eq {before gap start cs : List Char}
    (h : TakesNumber α before gap start cs) (bare : ¬Begins (fun c => Gap [c]) cs) : start = cs := by
  obtain ⟨rfl, separate⟩ := And.intro h.passes h.separate
  cases gap with
  | nil => rfl
  | cons c gap =>
    refine absurd (begins_cons.mpr fun _ member => ?_) bare
    rw [List.mem_singleton.mp member]
    exact separate c List.mem_cons_self

/-- Two numbers written against each other, and one whose exponent never comes. -/
theorem number_takesNumber_tight :
    number (α := Float) "-1.5.5e1".toList = .ok (-1.5, ".5e1".toList) ∧
      number (α := Float) ".5e1".toList = .ok (5.0, []) ∧
        number (α := Float) "5.e-".toList = .error ⟨.incompleteExponent, "e-".toList⟩ := by
  obtain ⟨_, _, first⟩ := number_takesNumber Float [] "-1.5.5e1".toList
  obtain ⟨_, _, second⟩ := number_takesNumber Float "-1.5".toList ".5e1".toList
  obtain ⟨_, _, third⟩ := number_takesNumber Float [] "5.e-".toList
  have bare {c : Char} (cs : List Char) (h : ¬isSeparator c = true) :
      ¬Begins (fun c => Gap [c]) (c :: cs) := fun begins =>
    h (isSeparator_iff.mpr (begins_cons.mp begins c List.mem_cons_self))
  rw [first.lexes, first.start_eq (bare _ nofun), second.lexes, second.start_eq (bare _ nofun),
    third.lexes, third.start_eq (bare _ nofun)]
  refine ⟨⟨"-1.5".toList, ?_⟩, ⟨".5e1".toList, ?_⟩, ⟨"5.".toList, ?_⟩⟩
  · have value : Scalar.ofDecimal ⟨true, 15, -1⟩ = (-1.5 : Float) := by decide +kernel
    obtain ⟨munched, finished⟩ := scan_eq_ok_iff.mp
      (rfl : scan "-1.5.5e1".toList = .ok (⟨true, 15, -1⟩, ".5e1".toList))
    exact value ▸ .munched rfl munched finished
  · have value : Scalar.ofDecimal ⟨false, 5, 0⟩ = (5.0 : Float) := by decide +kernel
    obtain ⟨munched, finished⟩ := scan_eq_ok_iff.mp
      (rfl : scan ".5e1".toList = .ok (⟨false, 5, 0⟩, []))
    exact value ▸ .munched rfl munched finished
  · obtain ⟨text, unfinished⟩ := scan_eq_exponent_iff.mp
      (rfl : scan "5.e-".toList = .error (.exponent "e-".toList))
    obtain rfl : "5.".toList = text := List.append_cancel_right unfinished.split
    exact .unfinished unfinished

end PathData

end SvgPage
