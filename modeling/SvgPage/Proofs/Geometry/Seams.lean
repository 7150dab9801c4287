import Mathlib
import SvgPage.Proofs.Geometry.PathReading

/-!
# Seams in path data

Where a text of path data may be cut in two, and what may be sewn on. What reads the arguments of a
command never looks beyond where it stops, so the text can be cut there. Nor does it go on into a
letter, apart from those of an exponent, so a letter can be sewn on wherever the text ends.
-/

namespace SvgPage.PathData

open Decimal

/-- A text that no numeral, no flag and no run of separators goes on into. -/
def Severed (cs : List Char) : Prop := ∀ c ∈ cs.head?, c.isAlpha = true ∧ ¬IsExponentLetter c

theorem severed_of_ofLetter? {c : Char} {k : Command} (known : Command.ofLetter? c = some k)
    (cs : List Char) : Severed (c :: cs) := by
  rintro _ ⟨⟩
  refine ⟨ofLetter?_eq_some_iff.mp known ▸ isAlpha_letter k, ?_⟩
  rintro (rfl | rfl) <;> cases known

namespace Severed

variable {u : List Char}

theorem not_begins (apart : Severed u) {p : Char → Prop}
    (other : ∀ c, p c → c.isAlpha = false ∨ IsExponentLetter c) : ¬Begins p u := by
  rintro ⟨c, head, holds⟩
  obtain ⟨alpha, noExponent⟩ := apart c head
  rcases other c holds with noLetter | exponent
  · exact Bool.false_ne_true (noLetter.symm.trans alpha)
  · exact noExponent exponent

theorem not_begins_digit (apart : Severed u) : ¬Begins (isDigit · = true) u :=
  apart.not_begins fun _ digit => .inl (isAlpha_of_isNumeralStart (.inl digit))

theorem skip_eq (apart : Severed u) : skip u = u := by
  cases u with
  | nil => rfl
  | cons c cs =>
    refine List.dropWhile_cons_of_neg fun separator => ?_
    have alpha := (apart c rfl).1
    simp only [isSeparator, Bool.or_eq_true, beq_iff_eq] at separator
    rcases separator with (((rfl | rfl) | rfl) | rfl) | rfl <;> cases alpha

end Severed

section

variable {β γ : Type}

/-- The same outcome where more text follows. -/
def sew (u : List Char) : Except Fault (β × List Char) → Except Fault (β × List Char)
  | .ok (b, rest) => .ok (b, rest ++ u)
  | .error fault => .error ⟨fault.reason, fault.rest ++ u⟩

/-- What an outcome leaves of the text. -/
def remainder : Except Fault (β × List Char) → List Char
  | .ok (_, rest) => rest
  | .error fault => fault.rest

/-- A scanner that minds the seams: it leaves the end of its text, the text can be cut there, and
a letter can be sewn on. -/
structure Severable (s : List Char → Except Fault (β × List Char)) : Prop where
  leaves : ∀ cs, remainder (s cs) <:+ cs
  cut : ∀ {x t b y}, s (x ++ t) = .ok (b, y ++ t) → s x = .ok (b, y)
  extend : ∀ {x u}, Severed u → s (x ++ u) = sew u (s x)

namespace Severable

variable {s : List Char → Except Fault (β × List Char)}
  {g : β → List Char → Except Fault (γ × List Char)}

theorem suffix_of_ok (h : Severable s) {cs rest : List Char} {b : β} (read : s cs = .ok (b, rest)) :
    rest <:+ cs := by
  have leaves := h.leaves cs
  rwa [read] at leaves

theorem value (b : β) : Severable fun cs => .ok (b, cs) where
  leaves cs := List.suffix_refl cs
  cut read := by
    obtain ⟨rfl, rest⟩ := Prod.ext_iff.mp (Except.ok.inj read)
    rw [List.append_cancel_right rest]
  extend _ := rfl

/-- One scanner after another. The text between them ends like what the second one leaves, so both
can be cut. -/
theorem bind (h : Severable s) (next : ∀ b, Severable (g b)) :
    Severable fun cs => s cs >>= fun p => g p.1 p.2 where
  leaves cs := by
    have first := h.leaves cs
    cases read : s cs with
    | error fault => rwa [read] at first
    | ok p =>
      rw [read] at first
      exact ((next p.1).leaves p.2).trans first
  cut {x t c y} := by
    intro read
    obtain ⟨⟨b, rest⟩, first, second⟩ := exists_of_bind_eq_ok read
    obtain ⟨w, rfl⟩ : ∃ w, rest = w ++ t := by
      obtain ⟨w, rfl⟩ := (next b).suffix_of_ok second
      exact ⟨w ++ y, (List.append_assoc ..).symm⟩
    rw [h.cut first]
    exact (next b).cut second
  extend {x u} := by
    intro apart
    rw [h.extend apart]
    cases s x with
    | error fault => rfl
    | ok p => exact (next p.1).extend apart

theorem map (h : Severable s) (f : β → γ) :
    Severable fun cs => s cs >>= fun p => .ok (f p.1, p.2) :=
  h.bind fun b => value (f b)

end Severable

theorem skip_append {x u : List Char} (apart : Severed u) : skip (x ++ u) = skip x ++ u := by
  unfold skip
  rw [List.dropWhile_append]
  split
  · next none => rw [List.isEmpty_iff.mp none, List.nil_append]; exact apart.skip_eq
  · rfl

theorem skip_suffix (cs : List Char) : skip cs <:+ cs := List.dropWhile_suffix _

/-- Where something is taken and the end is left as it was, what is taken stands before the end. -/
theorem skip_append_of_shorter {x t y : List Char} (shorter : (y ++ t).length < (skip (x ++ t)).length) :
    skip (x ++ t) = skip x ++ t := by
  unfold skip at shorter ⊢
  rw [List.dropWhile_append] at shorter ⊢
  by_cases none : (x.dropWhile isSeparator).isEmpty
  · rw [if_pos none] at shorter
    have short := List.length_dropWhile_le isSeparator t
    rw [List.length_append] at shorter
    omega
  · exact if_neg none

theorem Severable.afterSkip {s : List Char → Except Fault (β × List Char)} (h : Severable s)
    (takes : ∀ {cs b rest}, s cs = .ok (b, rest) → rest.length < cs.length) :
    Severable fun cs => s (skip cs) where
  leaves cs := (h.leaves (skip cs)).trans (skip_suffix cs)
  cut {x t b y} := by
    intro read
    rw [skip_append_of_shorter (takes read)] at read
    exact h.cut read
  extend {x u} := by
    intro apart
    rw [skip_append apart]
    exact h.extend apart

/-- A scanner that never fails stops before the end of a text, or goes on into it. It must not go on
into a letter. -/
theorem severable_of_stops {f : List Char → β × List Char} (leaves : ∀ cs, (f cs).2 <:+ cs)
    (stops : ∀ x t, f (x ++ t) = ((f x).1, (f x).2 ++ t) ∨
      (f (x ++ t)).2.length < t.length ∧ ¬Severed t) :
    Severable fun cs => .ok (f cs) where
  leaves := leaves
  cut {x t b y} := by
    intro read
    have read := Except.ok.inj read
    rcases stops x t with whole | ⟨short, -⟩
    · obtain ⟨rfl, rest⟩ := Prod.ext_iff.mp (whole.symm.trans read)
      exact congrArg Except.ok (Prod.ext rfl (List.append_cancel_right rest))
    · rw [read, List.length_append] at short
      omega
  extend {x u} := by
    intro apart
    rcases stops x u with whole | ⟨-, joined⟩
    · exact congrArg Except.ok whole
    · exact absurd apart joined

/-- The character at the head of a text, if it means something. -/
def headed (f : Char → Option β) : List Char → Option β × List Char
  | [] => (none, [])
  | c :: cs =>
    match f c with
    | some b => (some b, cs)
    | none => (none, c :: cs)

theorem headed_suffix (f : Char → Option β) (cs : List Char) : (headed f cs).2 <:+ cs := by
  cases cs with
  | nil => exact List.suffix_refl _
  | cons c cs =>
    simp only [headed]
    cases f c with
    | none => exact List.suffix_refl _
    | some b => exact List.suffix_cons c cs

theorem severable_headed {f : Char → Option β}
    (other : ∀ c b, f c = some b → c.isAlpha = false ∨ IsExponentLetter c) :
    Severable fun cs => .ok (headed f cs) := by
  apply severable_of_stops (headed_suffix f)
  intro x t
  cases x with
  | cons c x =>
    left
    simp only [headed, List.cons_append]
    cases f c <;> rfl
  | nil =>
    cases t with
    | nil => exact .inl rfl
    | cons c t =>
      cases means : f c with
      | none => exact .inl (by simp [headed, means])
      | some b =>
        refine .inr ⟨by simp [headed, means], fun apart => ?_⟩
        exact apart.not_begins (fun c' (same : c' = c) => same ▸ other c b means) (begins_cons.mpr rfl)

theorem severable_digitRun : Severable fun cs => .ok (digitRun cs) := by
  apply severable_of_stops digitRun_suffix
  intro x t
  induction x with
  | nil =>
    by_cases digit : Begins (isDigit · = true) t
    · refine .inr ⟨?_, fun apart => apart.not_begins_digit digit⟩
      obtain ⟨c, head, digit⟩ := digit
      obtain ⟨t, rfl⟩ : ∃ t', t = c :: t' := ⟨_, List.eq_cons_of_mem_head? head⟩
      simpa [digitRun, digit] using Nat.lt_succ_of_le (digitRun_suffix t).length_le
    · exact .inl (digitRun_of_not_begins digit)
  | cons c x ih =>
    by_cases digit : isDigit c
    · simpa [digitRun, digit] using ih
    · exact .inl (by simp [digitRun, digit])

/-- A scanner whose value is refused, with the fault where it started. -/
def guarded (reason : Reason) (p : β → Bool) (s : List Char → Except Fault (β × List Char))
    (cs : List Char) : Except Fault (β × List Char) :=
  s cs >>= fun q => if p q.1 then .ok q else .error ⟨reason, cs⟩

theorem Severable.guarded {s : List Char → Except Fault (β × List Char)} (h : Severable s)
    (reason : Reason) (p : β → Bool) : Severable (guarded reason p s) where
  leaves cs := by
    have leaves := h.leaves cs
    unfold PathData.guarded
    cases read : s cs with
    | error fault => rwa [read] at leaves
    | ok q =>
      rw [read] at leaves
      change remainder (if p q.1 then _ else _) <:+ cs
      split
      · exact leaves
      · exact List.suffix_refl cs
  cut {x t b y} := by
    intro read
    obtain ⟨q, first, accepted⟩ := exists_of_bind_eq_ok read
    by_cases holds : p q.1
    · rw [if_pos holds] at accepted
      cases accepted
      unfold PathData.guarded
      rw [h.cut first]
      exact if_pos holds
    · rw [if_neg holds] at accepted
      cases accepted
  extend {x u} := by
    intro apart
    unfold PathData.guarded
    rw [h.extend apart]
    cases s x with
    | error fault => rfl
    | ok q =>
      change (if p q.1 then _ else _) = sew u (if p q.1 then _ else _)
      by_cases holds : p q.1
      · rw [if_pos holds, if_pos holds]
        rfl
      · rw [if_neg holds, if_neg holds]
        rfl

theorem Severable.congr {s s' : List Char → Except Fault (β × List Char)} (h : Severable s)
    (same : ∀ cs, s' cs = s cs) : Severable s' := funext same ▸ h

end

/-- Two characters that decide something. -/
def choice (no yes c : Char) : Option Bool :=
  if c = no then some false else if c = yes then some true else none

theorem severable_choice (no yes : Char) (noLetter : no.isAlpha = false)
    (noLetter' : yes.isAlpha = false) : Severable fun cs => .ok (headed (choice no yes) cs) := by
  apply severable_headed
  intro c b means
  left
  unfold choice at means
  split at means
  · next same => exact same ▸ noLetter
  · split at means
    · next same => exact same ▸ noLetter'
    · cases means

theorem severable_signOf : Severable fun cs => .ok (signOf cs) := by
  apply ((severable_choice '+' '-' rfl rfl).map (·.getD false)).congr
  intro cs
  unfold signOf
  split
  · rfl
  · rfl
  · next minus plus =>
    cases cs with
    | nil => rfl
    | cons c cs =>
      have noMinus : c ≠ '-' := fun same => minus cs (same ▸ rfl)
      have noPlus : c ≠ '+' := fun same => plus cs (same ▸ rfl)
      simp [headed, choice, noMinus, noPlus, bind, Except.bind]

theorem severable_fractionRun : Severable fun cs => .ok (fractionRun cs) := by
  have head : Severable fun cs => .ok (headed (fun c => if c = '.' then some () else none) cs) := by
    apply severable_headed
    intro c _ means
    by_cases point : c = '.'
    · exact .inl (point ▸ rfl)
    · rw [if_neg point] at means
      cases means
  have whole : ∀ point : Option Unit, Severable fun cs =>
      .ok (if point.isSome then digitRun cs else ([], cs)) := by
    intro point
    cases point with
    | none => exact .value []
    | some _ => exact severable_digitRun
  apply (head.bind whole).congr
  intro cs
  unfold fractionRun
  split
  · rfl
  · next noPoint =>
    cases cs with
    | nil => rfl
    | cons c cs =>
      have other : c ≠ '.' := fun same => noPoint cs (same ▸ rfl)
      simp [headed, other, bind, Except.bind]

/-- The fault that a missing numeral is, for one that was to start with a text. -/
def Fault.ofMissing (cs : List Char) : Missing → Fault
  | .digits => ⟨.noNumber, cs⟩
  | .exponent rest => ⟨.incompleteExponent, rest⟩

/-- The value that the parts of an exponent spell; no parts are those of an absent one. -/
def exponentValue : Option (Bool × List Char) → Int
  | none => 0
  | some (negative, ds) => if negative then -(wholeOfDigits ds : Int) else wholeOfDigits ds

theorem severable_scanExponent :
    Severable fun cs => (scanExponent cs).mapError (Fault.ofMissing cs) := by
  have head : Severable fun cs =>
      .ok (headed (fun c => if c = 'e' ∨ c = 'E' then some () else none) cs) := by
    apply severable_headed
    intro c _ means
    by_cases letter : c = 'e' ∨ c = 'E'
    · exact .inr letter
    · rw [if_neg letter] at means
      cases means
  have parts : ∀ letter : Option Unit, Severable fun cs =>
      match letter with
      | none => .ok (none, cs)
      | some _ => .ok (some ((signOf cs).1, (digitRun (signOf cs).2).1), (digitRun (signOf cs).2).2) := by
    intro letter
    cases letter with
    | none => exact .value none
    | some _ =>
      exact severable_signOf.bind fun negative =>
        severable_digitRun.map fun ds => some (negative, ds)
  apply (((head.bind parts).guarded .incompleteExponent (·.all (!·.2.isEmpty))).map
    exponentValue).congr
  intro cs
  cases cs with
  | nil => rfl
  | cons c cs =>
    by_cases letter : c = 'e' ∨ c = 'E'
    · rw [scanExponent_of_letter letter]
      simp only [headed, guarded, if_pos letter, bind, Except.bind, Option.all_some]
      by_cases none : (digitRun (signOf cs).2).1.isEmpty
      · simp [none, Except.mapError, Fault.ofMissing]
      · simp [none, Except.mapError, exponentValue]
    · rw [scanExponent_of_not_begins (mt begins_cons.mp letter)]
      simp only [headed, guarded, if_neg letter, bind, Except.bind]
      rfl

theorem severable_scan : Severable fun cs => (scan cs).mapError (Fault.ofMissing cs) := by
  have mantissa : Severable (guarded .noNumber
      (fun m : Bool × List Char × List Char => !(m.2.1.isEmpty && m.2.2.isEmpty))
      fun cs => .ok (((signOf cs).1, (mantissaRun (signOf cs).2).1,
        (mantissaRun (signOf cs).2).2.1), (mantissaRun (signOf cs).2).2.2)) := by
    apply Severable.guarded
    exact severable_signOf.bind fun negative =>
      severable_digitRun.bind fun whole => severable_fractionRun.map fun fraction =>
        (negative, whole, fraction)
  apply (mantissa.bind fun m => severable_scanExponent.map fun n =>
    (⟨m.1, wholeOfDigits (m.2.1 ++ m.2.2), n - m.2.2.length⟩ : Decimal)).congr
  intro cs
  rw [scan_eq]
  simp only [guarded, bind, Except.bind]
  by_cases none : ((mantissaRun (signOf cs).2).1.isEmpty && (mantissaRun (signOf cs).2).2.1.isEmpty)
  · simp [none, Except.mapError, Fault.ofMissing]
  · -- An exponent is missing where its letter stands, whatever text the fault starts from.
    rcases scanExponent_cases (mantissaRun (signOf cs).2).2.2 with
      ⟨_, n, rest, scanned, -, -⟩ | ⟨scanned, -⟩ <;>
      simp [none, scanned, Except.mapError, Fault.ofMissing]

section

variable {α : Type} [Scalar α]

theorem severable_number : Severable (number (α := α)) := by
  have taken : Severable fun cs => (scan (skip cs)).mapError (Fault.ofMissing (skip cs)) := by
    apply severable_scan.afterSkip
    intro cs d rest read
    cases scanned : scan cs with
    | error missing =>
      rw [scanned] at read
      cases read
    | ok p =>
      rw [scanned] at read
      cases read
      exact (munched_of_scan scanned).length_lt
  apply (taken.map Scalar.ofDecimal).congr
  intro cs
  unfold number
  dsimp only
  rcases scan (skip cs) with (_ | rest) | ⟨d, rest⟩ <;> rfl

theorem severable_point : Severable (point (α := α)) :=
  severable_number.bind fun x => severable_number.map (Point.mk x)

theorem severable_flag : Severable flag := by
  have taken : Severable fun cs =>
      guarded .badFlag Option.isSome (fun cs => .ok (headed (choice '0' '1') cs)) (skip cs) := by
    apply ((severable_choice '0' '1' rfl rfl).guarded .badFlag Option.isSome).afterSkip
    intro cs b rest read
    cases cs with
    | nil => cases read
    | cons c cs =>
      cases means : choice '0' '1' c with
      | none => simp [guarded, headed, means, bind, Except.bind] at read
      | some b' =>
        simp only [guarded, headed, means, bind, Except.bind, Option.isSome_some, if_true] at read
        cases read
        exact Nat.lt_succ_self _
  apply (taken.map (·.getD false)).congr
  intro cs
  unfold flag
  split
  · next zero => rw [zero]; rfl
  · next one => rw [one]; rfl
  · next rest noZero noOne =>
    cases start : skip cs with
    | nil => rfl
    | cons c rest =>
      have noZero' : c ≠ '0' := fun same => noZero rest (same ▸ start)
      have noOne' : c ≠ '1' := fun same => noOne rest (same ▸ start)
      simp [guarded, headed, choice, noZero', noOne', bind, Except.bind]

theorem severable_arguments (verb : Verb) : Severable (arguments (α := α) verb) := by
  cases verb with
  | move => exact severable_point.map Arguments.move
  | line => exact severable_point.map Arguments.line
  | smoothQuadratic => exact severable_point.map Arguments.smoothQuadratic
  | horizontal => exact severable_number.map Arguments.horizontal
  | vertical => exact severable_number.map Arguments.vertical
  | cubic =>
    exact severable_point.bind fun c₁ => severable_point.bind fun c₂ =>
      severable_point.map (Arguments.cubic c₁ c₂)
  | smoothCubic =>
    exact severable_point.bind fun c₂ => severable_point.map (Arguments.smoothCubic c₂)
  | quadratic => exact severable_point.bind fun q => severable_point.map (Arguments.quadratic q)
  | arc =>
    exact severable_number.bind fun rx => severable_number.bind fun ry =>
      severable_number.bind fun rotation => severable_flag.bind fun large =>
        severable_flag.bind fun sweep =>
          severable_point.map (Arguments.arc rx ry rotation large sweep)
  | close => exact .value Arguments.close

end

end SvgPage.PathData
