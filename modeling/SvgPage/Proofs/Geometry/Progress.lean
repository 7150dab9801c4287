import Mathlib
import SvgPage.Proofs.Geometry.Seams

/-!
# Progress through path data

How the loop gets from one place in a text to a later one, group by group. A way through a text can be
cut at its end, and be taken again where a letter follows. At the end of each way the loop is done, or
a fault lies ahead.
-/

namespace SvgPage.PathData

variable {α : Type} [Scalar α]

/-- One group, whose first character is given: its command, its arguments and what follows. -/
def groupAt (previous : Option Command) (c : Char) (cs : List Char) :
    Except Fault ((Command × Arguments α) × List Char) := do
  let (k, cs) ← command previous c cs
  let (a, cs) ← arguments k.verb cs
  return ((k, a), cs)

section

variable {previous : Option Command} {c : Char} {cs x y t u mid rest : List Char} {k : Command}
  {a : Arguments α} {fault : Fault}

theorem groupAt_of_command (commanded : command previous c cs = .ok (k, mid)) :
    groupAt (α := α) previous c cs =
      arguments k.verb mid >>= fun q => .ok ((k, q.1), q.2) := by
  unfold groupAt
  rw [commanded]
  rfl

/-- A command is told from one character, whatever the text after it. -/
theorem command_append (previous : Option Command) (c : Char) (cs t : List Char) :
    command previous c (cs ++ t) = sew t (command previous c cs) := by
  unfold command
  by_cases letter : c.isAlpha
  · rw [if_pos letter, if_pos letter]
    cases Command.ofLetter? c with
    | none => rfl
    | some k =>
      dsimp only
      split <;> rfl
  · rw [if_neg letter, if_neg letter]
    cases previous with
    | none => rfl
    | some k =>
      dsimp only
      split <;> rfl

theorem remainder_command_suffix (previous : Option Command) (c : Char) (cs : List Char) :
    remainder (command previous c cs) <:+ c :: cs := by
  unfold command
  split
  · split
    · exact List.suffix_cons c cs
    · split <;> exact List.suffix_cons c cs
  · split
    · exact List.suffix_refl _
    · split <;> exact List.suffix_refl _

theorem remainder_groupAt_suffix (previous : Option Command) (c : Char) (cs : List Char) :
    remainder (groupAt (α := α) previous c cs) <:+ c :: cs := by
  have first := remainder_command_suffix previous c cs
  cases commanded : command previous c cs with
  | error fault =>
    unfold groupAt
    rwa [commanded] at first ⊢
  | ok p =>
    rw [commanded] at first
    rw [groupAt_of_command commanded]
    exact (((severable_arguments p.1.verb).map (Prod.mk p.1)).leaves p.2).trans first

/-- A group takes a character at least: its letter, or the first one of its numeral. -/
theorem length_le_of_groupAt (read : groupAt previous c cs = .ok ((k, a), rest)) :
    rest.length ≤ cs.length := by
  obtain ⟨⟨k', mid⟩, commanded, read⟩ := exists_of_bind_eq_ok read
  obtain ⟨⟨a', last⟩, taken, read⟩ := exists_of_bind_eq_ok read
  cases read
  obtain ⟨ts, group, reads⟩ := reads_of_arguments taken
  have left := reads.length_le
  rcases command_cases commanded with ⟨-, rfl, -⟩ | ⟨k'', -, verb_ne, rfl, rfl⟩
  · omega
  · obtain ⟨d, tail, rfl⟩ := group.exists_number (repeated_ne_close.mpr verb_ne)
    rw [List.length_cons, List.length_cons] at left
    omega

theorem suffix_of_groupAt (read : groupAt previous c cs = .ok ((k, a), rest)) : rest <:+ cs := by
  have leaves := remainder_groupAt_suffix (α := α) previous c cs
  rw [read] at leaves
  rcases List.suffix_cons_iff.mp leaves with rfl | suffix
  · have short := length_le_of_groupAt read
    simp at short
  · exact suffix

theorem groupAt_cut (read : groupAt previous c (x ++ t) = .ok ((k, a), y ++ t)) :
    groupAt previous c x = .ok ((k, a), y) := by
  unfold groupAt at read
  rw [command_append] at read
  cases commanded : command previous c x with
  | error fault =>
    rw [commanded] at read
    cases read
  | ok p =>
    rw [commanded] at read
    rw [groupAt_of_command commanded]
    exact ((severable_arguments p.1.verb).map (Prod.mk p.1)).cut read

theorem groupAt_extend (apart : Severed u) :
    groupAt (α := α) previous c (x ++ u) = sew u (groupAt previous c x) := by
  cases commanded : command previous c x with
  | error fault =>
    unfold groupAt
    rw [command_append, commanded]
    rfl
  | ok p =>
    have commanded' := command_append previous c x u
    rw [commanded] at commanded'
    rw [groupAt_of_command commanded, groupAt_of_command commanded']
    exact ((severable_arguments p.1.verb).map (Prod.mk p.1)).extend apart

end

/-- The segments of a text after a command. -/
def segmentsFrom (previous : Option Command) (cs : List Char) : Except Fault (List (Segment α)) :=
  segmentsWithin (cs.length + 1) previous cs

section

variable {previous last : Option Command} {c : Char} {cs tail rest : List Char}

theorem segmentsWithin_eq_bind {fuel : Nat} (skipped : skip cs = c :: tail) :
    segmentsWithin (α := α) (fuel + 1) previous cs = groupAt previous c tail >>= fun p =>
      (segmentsWithin fuel (some p.1.1) p.2).map (⟨p.1.1.relative, p.1.2⟩ :: ·) := by
  rw [segmentsWithin, skipped]
  unfold groupAt
  dsimp only [bind, Except.bind]
  cases command previous c tail with
  | error fault => rfl
  | ok q =>
    dsimp only
    cases arguments (α := α) q.1.verb q.2 with
    | error fault => rfl
    | ok r =>
      dsimp only [pure, Except.pure]
      cases segmentsWithin (α := α) fuel (some q.1) r.2 <;> rfl

/-- More fuel than the text is long makes no difference. -/
theorem segmentsWithin_eq {fuel : Nat} (enough : cs.length < fuel) :
    segmentsWithin (α := α) fuel previous cs = segmentsFrom previous cs := by
  suffices same : ∀ {fuel fuel' : Nat} {previous : Option Command} {cs : List Char},
      cs.length < fuel → cs.length < fuel' →
        segmentsWithin (α := α) fuel previous cs = segmentsWithin fuel' previous cs from
    same enough (Nat.lt_succ_self _)
  intro fuel
  induction fuel with
  | zero => intro _ _ _ enough; exact absurd enough (Nat.not_lt_zero _)
  | succ fuel ih =>
    intro fuel' previous cs enough enough'
    cases fuel' with
    | zero => exact absurd enough' (Nat.not_lt_zero _)
    | succ fuel' =>
      cases skipped : skip cs with
      | nil =>
        unfold segmentsWithin
        rw [skipped]
      | cons c tail =>
        rw [segmentsWithin_eq_bind skipped, segmentsWithin_eq_bind skipped]
        have shorter := length_skip_le cs
        rw [skipped, List.length_cons] at shorter
        cases read : groupAt (α := α) previous c tail with
        | error fault => rfl
        | ok p =>
          have short := length_le_of_groupAt read
          change Except.map _ (segmentsWithin fuel _ p.2) = Except.map _ (segmentsWithin fuel' _ p.2)
          rw [ih (show p.2.length < fuel by omega) (show p.2.length < fuel' by omega)]

theorem segmentsFrom_of_skip_eq_nil (none : skip cs = []) :
    segmentsFrom (α := α) previous cs = .ok [] := by
  unfold segmentsFrom segmentsWithin
  rw [none]

theorem segmentsFrom_of_skip_eq_cons (skipped : skip cs = c :: tail) :
    segmentsFrom (α := α) previous cs = groupAt previous c tail >>= fun p =>
      (segmentsFrom (some p.1.1) p.2).map (⟨p.1.1.relative, p.1.2⟩ :: ·) := by
  unfold segmentsFrom
  rw [segmentsWithin_eq_bind skipped]
  have shorter := length_skip_le cs
  rw [skipped, List.length_cons] at shorter
  cases read : groupAt (α := α) previous c tail with
  | error fault => rfl
  | ok p =>
    have short := length_le_of_groupAt read
    dsimp only [bind, Except.bind]
    rw [segmentsWithin_eq (by omega)]
    rfl

theorem segmentsFrom_congr {cs' : List Char} (same : skip cs = skip cs') :
    segmentsFrom (α := α) previous cs = segmentsFrom previous cs' := by
  cases skipped : skip cs with
  | nil =>
    rw [segmentsFrom_of_skip_eq_nil skipped, segmentsFrom_of_skip_eq_nil (same ▸ skipped)]
  | cons c tail =>
    rw [segmentsFrom_of_skip_eq_cons skipped, segmentsFrom_of_skip_eq_cons (same ▸ skipped)]

end

/-- The loop comes from one place to a later one, each with the command before it, and reads segments
on its way. -/
inductive Reaches : Option Command → List Char → List (Segment α) → Option Command → List Char → Prop
  | here {previous cs} : Reaches previous cs [] previous cs
  | separator {previous c cs segments last rest} : isSeparator c = true →
      Reaches previous cs segments last rest → Reaches previous (c :: cs) segments last rest
  | group {previous cs c tail k a mid segments last rest} : skip cs = c :: tail →
      groupAt previous c tail = .ok ((k, a), mid) → Reaches (some k) mid segments last rest →
        Reaches previous cs (⟨k.relative, a⟩ :: segments) last rest

/-- The next group has a fault. -/
def Fails (α : Type) [Scalar α] (previous : Option Command) (cs : List Char) (fault : Fault) : Prop :=
  ∃ c tail, skip cs = c :: tail ∧ groupAt (α := α) previous c tail = .error fault

theorem segmentsFrom_of_fails {previous : Option Command} {cs : List Char} {fault : Fault}
    (fails : Fails α previous cs fault) : segmentsFrom (α := α) previous cs = .error fault := by
  obtain ⟨c, tail, skipped, failed⟩ := fails
  rw [segmentsFrom_of_skip_eq_cons skipped, failed]
  rfl

namespace Reaches

variable {previous last : Option Command} {cs rest x y t u : List Char}
  {segments : List (Segment α)}

theorem suffix (way : Reaches previous cs segments last rest) : rest <:+ cs := by
  induction way with
  | here => exact List.suffix_refl _
  | separator _ _ ih => exact ih.trans (List.suffix_cons ..)
  | group skipped read _ ih =>
    apply (ih.trans (suffix_of_groupAt read)).trans
    exact (List.suffix_cons ..).trans (skipped ▸ skip_suffix _)

/-- What the loop reads is what it read on its way and what it reads from there on. -/
theorem segmentsFrom_eq (way : Reaches previous cs segments last rest) :
    segmentsFrom previous cs = (segmentsFrom last rest).map (segments ++ ·) := by
  induction way with
  | @here previous cs => cases segmentsFrom (α := α) previous cs <;> rfl
  | @separator previous c cs _ _ _ separator _ ih =>
    rw [← ih]
    exact segmentsFrom_congr (List.dropWhile_cons_of_pos separator)
  | @group _ _ _ _ _ _ _ segments last rest skipped read _ ih =>
    rw [segmentsFrom_of_skip_eq_cons skipped, read]
    dsimp only [bind, Except.bind]
    rw [ih]
    cases segmentsFrom (α := α) last rest <;> rfl

theorem of_skip_eq_nil (none : skip cs = []) : Reaches (α := α) previous cs [] previous [] := by
  induction cs with
  | nil => exact .here
  | cons c cs ih =>
    by_cases separator : isSeparator c
    · apply Reaches.separator separator
      exact ih ((List.dropWhile_cons_of_pos separator).symm.trans none)
    · cases (List.dropWhile_cons_of_neg separator).symm.trans none

/-- The loop comes to the end of the text, or to a fault. By induction on the length of the text. -/
theorem exists_end (previous : Option Command) (cs : List Char) :
    ∃ (segments : List (Segment α)) (last : Option Command),
      Reaches previous cs segments last [] ∨
        ∃ rest fault, Reaches previous cs segments last rest ∧ Fails α last rest fault := by
  induction length : cs.length using Nat.strong_induction_on generalizing previous cs with
  | _ n ih =>
    have shorter := length_skip_le cs
    cases skipped : skip cs with
    | nil => exact ⟨[], previous, .inl (of_skip_eq_nil skipped)⟩
    | cons c tail =>
      rw [skipped, List.length_cons] at shorter
      cases read : groupAt (α := α) previous c tail with
      | error fault => exact ⟨[], previous, .inr ⟨cs, fault, .here, c, tail, skipped, read⟩⟩
      | ok p =>
        obtain ⟨⟨k, a⟩, mid⟩ := p
        have short := length_le_of_groupAt read
        obtain ⟨segments, last, others⟩ := ih mid.length (by omega) (some k) mid rfl
        refine ⟨⟨k.relative, a⟩ :: segments, last, ?_⟩
        rcases others with done | ⟨rest, fault, way, fails⟩
        · exact .inl (.group skipped read done)
        · exact .inr ⟨rest, fault, .group skipped read way, fails⟩

theorem cut (way : Reaches previous (x ++ t) segments last (y ++ t)) :
    Reaches previous x segments last y := by
  generalize start : x ++ t = cs at way
  generalize finish : y ++ t = rest at way
  induction way generalizing x with
  | here =>
    rw [List.append_cancel_right (start.trans finish.symm)]
    exact .here
  | @separator _ c cs _ _ rest separator way ih =>
    cases x with
    | nil =>
      have short := way.suffix.length_le
      rw [← finish, List.length_append, ← List.nil_append t, start, List.length_cons] at short
      omega
    | cons c' x =>
      injection start with same start
      exact .separator (same ▸ separator) (ih start finish)
  | @group _ cs c tail k a mid _ _ rest skipped read way ih =>
    subst start finish
    obtain ⟨w, rfl⟩ : ∃ w, mid = w ++ t := by
      obtain ⟨w, rfl⟩ := way.suffix
      exact ⟨w ++ y, (List.append_assoc ..).symm⟩
    have short := length_le_of_groupAt read
    rw [skip_append_of_shorter (y := w) (by rw [skipped, List.length_cons]; omega)] at skipped
    cases start : skip x with
    | nil =>
      rw [start, List.nil_append] at skipped
      rw [skipped, List.length_append, List.length_cons] at short
      omega
    | cons c' x' =>
      rw [start] at skipped
      injection skipped with same skipped
      subst same skipped
      exact .group start (groupAt_cut read) (ih rfl rfl)

theorem extend (way : Reaches previous x segments last y) (apart : Severed u) :
    Reaches previous (x ++ u) segments last (y ++ u) := by
  induction way with
  | here => exact .here
  | separator separator _ ih => exact .separator separator ih
  | group skipped read _ ih =>
    refine .group (by rw [skip_append apart, skipped, List.cons_append]) ?_ ih
    rw [groupAt_extend apart, read]
    rfl

end Reaches

theorem Fails.extend {previous : Option Command} {x u : List Char} {fault : Fault}
    (fails : Fails α previous x fault) (apart : Severed u) :
    Fails α previous (x ++ u) ⟨fault.reason, fault.rest ++ u⟩ := by
  obtain ⟨c, tail, skipped, failed⟩ := fails
  refine ⟨c, tail ++ u, by rw [skip_append apart, skipped, List.cons_append], ?_⟩
  rw [groupAt_extend apart, failed]
  rfl

end SvgPage.PathData
