import SvgPage.Proofs.Geometry.PathGrammar
import SvgPage.Proofs.Geometry.Strokes

/-!
# Reading path data

The loop that reads path data accepts just the texts whose terminals form a sentence. What it draws
is what the groups of the sentence mean, taken from the left.
-/

namespace SvgPage.PathData

open Decimal

/-- What may follow a command, as the loop takes it: the next group has a letter, or repeats the
command before it. -/
inductive Continues {α : Type} [Scalar α] :
    Option Command → List Terminal → List (Segment α) → Prop
  | done {previous} : Continues previous [] []
  | lettered {previous k ts us a segments} : (previous = none → k.verb = .move) →
      Group k.verb ts a → Continues (some k) us segments →
        Continues previous (.command k :: (ts ++ us)) (⟨k.relative, a⟩ :: segments)
  | repeated {k ts us a segments} : k.verb ≠ .close → Group k.repeated.verb ts a →
      Continues (some k.repeated) us segments →
        Continues (some k) (ts ++ us) (⟨k.repeated.relative, a⟩ :: segments)

theorem further_further (verb : Verb) : verb.further.further = verb.further := by
  cases verb <;> rfl

theorem further_ne_close {verb : Verb} : verb.further ≠ .close ↔ verb ≠ .close := by
  cases verb <;> decide

theorem repeated_ne_close {k : Command} : k.repeated.verb ≠ .close ↔ k.verb ≠ .close := by
  rw [repeated_eq]
  exact further_ne_close

section

variable {α : Type} [Scalar α] {ts us : List Terminal} {cs rest : List Char}
  {segments : List (Segment α)}

theorem Group.exists_number {verb : Verb} {a : Arguments α} (h : Group verb ts a)
    (verb_ne : verb ≠ .close) : ∃ d tail, ts = .number d :: tail := by
  cases h with
  | close => exact absurd rfl verb_ne
  | _ => exact ⟨_, _, rfl⟩

theorem command_cases {previous : Option Command} {c : Char} {k : Command}
    (h : command previous c cs = .ok (k, rest)) :
    (c = k.letter ∧ rest = cs ∧ (previous = none → k.verb = .move)) ∨
      ∃ k', previous = some k' ∧ k'.verb ≠ .close ∧ k = k'.repeated ∧ rest = c :: cs := by
  unfold command at h
  split at h
  · split at h
    · cases h
    · next k' known =>
      split at h
      · cases h
      · next leads =>
        cases h
        refine .inl ⟨ofLetter?_eq_some_iff.mp known, rfl, fun none => ?_⟩
        simpa [none] using leads
  · split at h
    · cases h
    · next k' =>
      split at h
      · cases h
      · next verb_ne =>
        cases h
        exact .inr ⟨k', rfl, verb_ne, rfl, rfl⟩

theorem command_of_letter {previous : Option Command} {c : Char} {k : Command}
    (known : Command.ofLetter? c = some k) (leads : previous = none → k.verb = .move) :
    command previous c cs = .ok (k, cs) := by
  unfold command
  rw [if_pos (ofLetter?_eq_some_iff.mp known ▸ isAlpha_letter k), known]
  refine if_neg ?_
  cases previous with
  | none => simp [leads rfl]
  | some k' => simp

theorem command_repeated {c : Char} {k : Command} (noLetter : c.isAlpha = false)
    (verb_ne : k.verb ≠ .close) : command (some k) c cs = .ok (k.repeated, c :: cs) := by
  unfold command
  rw [if_neg (by simp [noLetter])]
  exact if_neg verb_ne

/-- What the loop reads are terminals in the order that it expects. By induction on the fuel, of
which every group leaves enough since it takes a character. -/
theorem continues_of_segmentsWithin {fuel : Nat} {previous : Option Command}
    (enough : cs.length < fuel) (h : segmentsWithin fuel previous cs = .ok segments) :
    ∃ ts, Spelled ts cs ∧ Continues previous ts segments := by
  induction fuel generalizing previous cs segments with
  | zero => exact absurd enough (Nat.not_lt_zero _)
  | succ fuel ih =>
    unfold segmentsWithin at h
    have shorter := length_skip_le cs
    cases skipped : skip cs with
    | nil =>
      rw [skipped] at h
      cases h
      exact ⟨[], ⟨cs, .nil, skip_eq_nil_iff.mp skipped⟩, .done⟩
    | cons c tail =>
      rw [skipped] at h shorter
      obtain ⟨⟨k, after⟩, commanded, h⟩ := exists_of_bind_eq_ok h
      obtain ⟨⟨a, rest⟩, taken, h⟩ := exists_of_bind_eq_ok h
      obtain ⟨more, others, h⟩ := exists_of_bind_eq_ok h
      cases h
      obtain ⟨ts, group, reads⟩ := reads_of_arguments taken
      have left := reads.length_le
      rw [List.length_cons] at shorter
      obtain ⟨rfl, rfl, leads⟩ | ⟨k', rfl, verb_ne, rfl, rfl⟩ := command_cases commanded
      · obtain ⟨us, spelled, continues⟩ := ih (by omega) others
        have head : Heads (.command k) (skip cs) after := skipped ▸ .command
        exact ⟨_, .prepend (.of_heads head reads) spelled, .lettered leads group continues⟩
      · obtain ⟨d, tail', rfl⟩ := group.exists_number (repeated_ne_close.mpr verb_ne)
        rw [List.length_cons, List.length_cons] at left
        obtain ⟨us, spelled, continues⟩ := ih (by omega) others
        rw [← skipped, Reads.skip_iff (List.cons_ne_nil _ _)] at reads
        exact ⟨_, .prepend reads spelled, .repeated verb_ne group continues⟩

theorem segmentsWithin_succ {fuel : Nat} {previous : Option Command} {c : Char} {k : Command}
    {tail after : List Char} {a : Arguments α} (skipped : skip cs = c :: tail)
    (commanded : command previous c tail = .ok (k, after))
    (taken : arguments k.verb after = .ok (a, rest))
    (others : segmentsWithin fuel (some k) rest = .ok segments) :
    segmentsWithin (fuel + 1) previous cs = .ok (⟨k.relative, a⟩ :: segments) := by
  unfold segmentsWithin
  simp only [skipped, commanded, taken, others, bind, Except.bind]
  rfl

/-- Terminals in the order that the loop expects are read. -/
theorem segmentsWithin_of_continues {previous : Option Command}
    (h : Continues previous ts segments) {fuel : Nat} (spelled : Spelled ts cs)
    (enough : cs.length < fuel) : segmentsWithin fuel previous cs = .ok segments := by
  induction h generalizing fuel cs with
  | done =>
    obtain ⟨_, ⟨⟩, isGap⟩ := spelled
    cases fuel with
    | zero => rfl
    | succ fuel =>
      unfold segmentsWithin
      rw [skip_eq_nil_iff.mpr isGap]
  | @lettered previous k ts us a segments leads group _ ih =>
    obtain ⟨gap, reads, isGap⟩ := spelled
    obtain ⟨after, head, reads⟩ := reads.exists_heads
    obtain ⟨rest, reads, others⟩ := reads.split
    have follows : Spelled us rest := ⟨gap, others, isGap⟩
    have shorter := length_skip_le cs
    have shorter' := head.length_lt
    have left := reads.length_le
    have skipped : skip cs = k.letter :: after := by
      generalize skip cs = text at head
      cases head
      rfl
    cases fuel with
    | zero => exact absurd enough (Nat.not_lt_zero _)
    | succ fuel =>
      exact segmentsWithin_succ skipped (command_of_letter (ofLetter?_eq_some_iff.mpr rfl) leads)
        (arguments_of_reads group reads follows) (ih follows (by omega))
  | @repeated k ts us a segments verb_ne group _ ih =>
    obtain ⟨gap, reads, isGap⟩ := spelled
    obtain ⟨rest, reads, others⟩ := reads.split
    have follows : Spelled us rest := ⟨gap, others, isGap⟩
    have left := reads.length_le
    obtain ⟨d, tail', rfl⟩ := group.exists_number (repeated_ne_close.mpr verb_ne)
    rw [List.length_cons] at left
    -- The numeral at the head is no letter, so the command is repeated.
    obtain ⟨c, head, start⟩ := reads.begins_number
    have skipped := List.eq_cons_of_mem_head? head
    rw [← Reads.skip_iff (List.cons_ne_nil _ _), skipped] at reads
    cases fuel with
    | zero => exact absurd enough (Nat.not_lt_zero _)
    | succ fuel =>
      exact segmentsWithin_succ skipped
        (command_repeated (isAlpha_of_isNumeralStart start) verb_ne)
        (arguments_of_reads group reads follows) (ih follows (by omega))

/-- The terminals that the loop takes after a command: further groups of it, then phrases. -/
theorem Continues.split {previous : Option Command} (h : Continues previous ts segments) :
    ∃ us vs more rest, ts = us ++ vs ∧ segments = more ++ rest ∧ Phrases vs rest ∧
      (∀ k, previous = some k → Further k.verb.further k.relative us more) ∧
      (previous = none → us = [] ∧ more = [] ∧ StartsWithMove vs) := by
  induction h with
  | done => exact ⟨[], [], [], [], rfl, rfl, .nil, fun _ _ => .none, fun _ => ⟨rfl, rfl, nofun⟩⟩
  | @lettered previous k ts us a segments leads group _ ih =>
    obtain ⟨us, vs, more, rest, rfl, rfl, phrases, further, -⟩ := ih
    refine ⟨[], _, [], _, rfl, rfl, .cons group (further k rfl) phrases, fun _ _ => .none,
      fun none => ⟨rfl, rfl, fun t first => ?_⟩⟩
    obtain ⟨verb, relative⟩ := k
    obtain rfl : verb = .move := leads none
    exact ⟨relative, (Option.some.inj first).symm⟩
  | @repeated k ts us a segments verb_ne group _ ih =>
    obtain ⟨us, vs, more, rest, rfl, rfl, phrases, further, -⟩ := ih
    refine ⟨ts ++ us, vs, ⟨k.repeated.relative, a⟩ :: more, rest, (List.append_assoc ..).symm, rfl,
      phrases, ?_, nofun⟩
    rintro _ ⟨⟩
    have others := further k.repeated rfl
    rw [repeated_eq] at group others ⊢
    rw [further_further] at others
    exact .more (further_ne_close.mpr verb_ne) group others

/-- After further groups of a command the loop goes on as after the command itself. -/
theorem Further.continues {k : Command} {more : List (Segment α)}
    (h : Further k.verb.further k.relative ts segments) (others : ∀ k, Continues (some k) us more) :
    Continues (some k) (ts ++ us) (segments ++ more) := by
  obtain ⟨verb, relative⟩ := k
  change Further verb.further relative ts segments at h
  generalize repeats : verb.further = repeated at h
  induction h generalizing verb with
  | none => exact others _
  | @more ts us' a segments verb_ne group _ ih =>
    subst repeats
    rw [List.append_assoc]
    have again := @Continues.repeated α _ ⟨verb, relative⟩ ts (us' ++ us) a (segments ++ more)
    rw [repeated_eq] at again
    exact again (further_ne_close.mp verb_ne) group (ih verb.further (further_further verb))

theorem Phrases.continues (h : Phrases ts segments) {previous : Option Command}
    (leads : previous = none → StartsWithMove ts) : Continues previous ts segments := by
  induction h generalizing previous with
  | nil => exact .done
  | @cons k ts us vs a segments more group further _ ih =>
    refine .lettered (fun none => ?_) group (further.continues fun k => ih nofun)
    obtain ⟨relative, same⟩ := leads none _ rfl
    cases same
    rfl

theorem continues_none_iff : Continues none ts segments ↔ Sentence ts segments := by
  constructor
  · intro h
    obtain ⟨us, vs, more, rest, rfl, rfl, phrases, -, leads⟩ := h.split
    obtain ⟨rfl, rfl, starts⟩ := leads rfl
    exact ⟨starts, phrases⟩
  · rintro ⟨leads, phrases⟩
    exact phrases.continues fun _ => leads

theorem segments_eq_ok_iff :
    PathData.segments cs = .ok segments ↔ ∃ ts, Spelled ts cs ∧ Sentence ts segments := by
  simp only [← continues_none_iff]
  constructor
  · exact continues_of_segmentsWithin (Nat.lt_succ_self _)
  · rintro ⟨ts, spelled, continues⟩
    exact segmentsWithin_of_continues continues spelled (Nat.lt_succ_self _)

end

/-- Path data is accepted exactly if its terminals form a sentence, and then its outline is what the
groups of the sentence mean one after another. -/
theorem outline_eq_ok_iff {α : Type} [Scalar α] (text : List Char) (ops : List (PathOp α)) :
    PathData.outline text = .ok ops ↔
      ∃ ts segments, Spelled ts text ∧ Sentence ts segments ∧ ops = meaning segments := by
  unfold outline
  constructor
  · intro h
    cases read : PathData.segments (α := α) text with
    | error fault =>
      rw [read] at h
      cases h
    | ok segments =>
      rw [read] at h
      cases h
      obtain ⟨ts, spelled, sentence⟩ := segments_eq_ok_iff.mp read
      exact ⟨ts, segments, spelled, sentence, outlineFrom_initial segments⟩
  · rintro ⟨ts, segments, spelled, sentence, rfl⟩
    rw [segments_eq_ok_iff.mpr ⟨ts, spelled, sentence⟩, ← outlineFrom_initial]
    rfl

/-- Numbers after those of a move are a line, and a letter in lower case counts from there. -/
theorem outline_eq_ok_iff_lines :
    PathData.outline (α := Float) "M0 0 1.5.5h-1z".toList =
      .ok [.moveTo ⟨0, 0⟩, .lineTo ⟨1.5, 0.5⟩, .lineTo ⟨0.5, 0.5⟩, .close] := by
  refine (outline_eq_ok_iff _ _).mpr ⟨[.command ⟨.move, false⟩, .number ⟨false, 0, 0⟩,
    .number ⟨false, 0, 0⟩, .number ⟨false, 15, -1⟩, .number ⟨false, 5, -1⟩,
    .command ⟨.horizontal, true⟩, .number ⟨true, 1, 0⟩, .command ⟨.close, true⟩],
    [⟨false, .move (written ⟨false, 0, 0⟩ ⟨false, 0, 0⟩)⟩,
     ⟨false, .line (written ⟨false, 15, -1⟩ ⟨false, 5, -1⟩)⟩,
     ⟨true, .horizontal (Scalar.ofDecimal ⟨true, 1, 0⟩)⟩, ⟨true, .close⟩], ?_, ⟨?_, ?_⟩, ?_⟩
  · refine ⟨[], ?_, nofun⟩
    refine .of_heads .command (.of_heads (.number (munched_of_scan rfl)) ?_)
    refine .of_heads (.number (munched_of_scan rfl)) (.of_heads (.number (munched_of_scan rfl)) ?_)
    refine .of_heads (.number (munched_of_scan rfl)) (.of_heads .command ?_)
    exact .of_heads (.number (munched_of_scan rfl)) (.of_heads .command .nil)
  · rintro _ ⟨⟩
    exact ⟨false, rfl⟩
  · refine .cons (k := ⟨.move, false⟩) .move (.more (by decide) .line .none) ?_
    refine .cons (k := ⟨.horizontal, true⟩) .horizontal .none ?_
    exact .cons (k := ⟨.close, true⟩) .close .none .nil
  · decide +kernel

end SvgPage.PathData
