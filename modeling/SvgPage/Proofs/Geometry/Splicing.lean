import Mathlib
import SvgPage.Problem
import SvgPage.Proofs.Geometry.Progress

/-!
# Splicing path data

Texts of path data put together. Nothing is remembered across an absolute move, so a text that starts
with one can follow any other. And between two groups of a command its letter can be written out.
-/

namespace SvgPage.PathData

open Decimal

variable {α : Type} [Scalar α]

def Pen.after (pen : Pen α) (segments : List (Segment α)) : Pen α :=
  segments.foldl (fun pen s => (pen.draw s).2) pen

theorem outlineFrom_append (pen : Pen α) (first second : List (Segment α)) :
    outlineFrom pen (first ++ second) =
      outlineFrom pen first ++ outlineFrom (pen.after first) second := by
  induction first generalizing pen with
  | nil => rfl
  | cons s first ih =>
    simp only [List.cons_append, outlineFrom, ih, List.append_assoc]
    rfl

/-- Segments that draw the same from wherever the pen stands. -/
def StartsAfresh (segments : List (Segment α)) : Prop :=
  ∃ p rest, segments = ⟨false, .move p⟩ :: rest

theorem StartsAfresh.outlineFrom_eq {segments : List (Segment α)} (afresh : StartsAfresh segments)
    (pen pen' : Pen α) : outlineFrom pen segments = outlineFrom pen' segments := by
  obtain ⟨p, rest, rfl⟩ := afresh
  rfl

section

variable {previous : Option Command} {tail cs : List Char} {segments : List (Segment α)}

theorem groupAt_move (previous : Option Command) (tail : List Char) :
    groupAt (α := α) previous 'M' tail = point tail >>= fun q => .ok ((⟨.move, false⟩, .move q.1), q.2) := by
  rw [groupAt_of_command (command_of_letter (k := ⟨.move, false⟩) rfl fun _ => rfl)]
  unfold arguments
  dsimp only [bind, Except.bind]
  cases point (α := α) tail <;> rfl

theorem segmentsFrom_move (previous : Option Command) (tail : List Char) :
    segmentsFrom (α := α) previous ('M' :: tail) = segmentsFrom none ('M' :: tail) := by
  have skipped : skip ('M' :: tail) = 'M' :: tail := rfl
  rw [segmentsFrom_of_skip_eq_cons skipped, segmentsFrom_of_skip_eq_cons skipped, groupAt_move,
    groupAt_move]

theorem startsAfresh_of_segmentsFrom
    (read : segmentsFrom previous ('M' :: tail) = .ok segments) : StartsAfresh segments := by
  have skipped : skip ('M' :: tail) = 'M' :: tail := rfl
  rw [segmentsFrom_of_skip_eq_cons skipped, groupAt_move] at read
  cases taken : point (α := α) tail with
  | error fault =>
    rw [taken] at read
    cases read
  | ok q =>
    rw [taken] at read
    change Except.map _ (segmentsFrom _ q.2) = _ at read
    cases others : segmentsFrom (α := α) (some ⟨.move, false⟩) q.2 with
    | error fault =>
      rw [others] at read
      cases read
    | ok more =>
      rw [others] at read
      cases read
      exact ⟨q.1, more, rfl⟩

theorem Reaches.segmentsFrom_of_end {last : Option Command}
    (done : Reaches previous cs segments last []) : segmentsFrom previous cs = .ok segments := by
  rw [done.segmentsFrom_eq, segmentsFrom_of_skip_eq_nil rfl, ← List.append_nil segments]
  simp [Except.map]

theorem Reaches.segmentsFrom_of_fails {last : Option Command} {rest : List Char} {fault : Fault}
    (way : Reaches previous cs segments last rest) (fails : Fails α last rest fault) :
    segmentsFrom (α := α) previous cs = .error fault := by
  rw [way.segmentsFrom_eq, PathData.segmentsFrom_of_fails fails]
  rfl

theorem rest_suffix_of_segmentsFrom {fault : Fault}
    (failed : segmentsFrom (α := α) previous cs = .error fault) : fault.rest <:+ cs := by
  obtain ⟨segments, last, done | ⟨rest, fault', way, fails⟩⟩ :=
    Reaches.exists_end (α := α) previous cs
  · cases done.segmentsFrom_of_end.symm.trans failed
  · cases (way.segmentsFrom_of_fails fails).symm.trans failed
    obtain ⟨c, tail, skipped, failed⟩ := fails
    have leaves := remainder_groupAt_suffix (α := α) last c tail
    rw [failed, ← skipped] at leaves
    exact (leaves.trans (skip_suffix rest)).trans way.suffix

end

theorem number_skip (cs : List Char) : number (α := α) (skip cs) = number cs := by
  unfold number
  rw [skip_skip]

theorem arguments_skip {verb : Verb} (opened : verb ≠ .close) (cs : List Char) :
    arguments (α := α) verb (skip cs) = arguments verb cs := by
  cases verb <;> first | exact absurd rfl opened | simp only [arguments, point, number_skip]

/-- After a group of a command the loop does the same whether its letter comes next or, unwritten,
another group. -/
theorem segmentsFrom_insert_repeated {k : Command} {letter : Char} {cs : List Char}
    (opened : k.verb ≠ .close) (unwritten : Begins (·.isAlpha = false) (skip cs))
    (known : Command.ofLetter? letter = some k.repeated) :
    segmentsFrom (α := α) (some k) (letter :: cs) = segmentsFrom (some k) cs := by
  obtain ⟨c, head, noLetter⟩ := unwritten
  have skipped : skip cs = c :: (skip cs).tail := List.eq_cons_of_mem_head? head
  have written : skip (letter :: cs) = letter :: cs :=
    (severed_of_ofLetter? known cs).skip_eq
  rw [segmentsFrom_of_skip_eq_cons written, segmentsFrom_of_skip_eq_cons skipped]
  congr 1
  have leads : some k = none → k.repeated.verb = .move := fun absent => by cases absent
  rw [groupAt_of_command (command_of_letter known leads),
    groupAt_of_command (command_repeated noLetter opened), ← skipped,
    arguments_skip (repeated_ne_close.mpr opened)]

theorem byteLength_append (first second : List Char) :
    byteLength (first ++ second) = byteLength first + byteLength second := by
  have shift : ∀ (n : Nat) (cs : List Char),
      cs.foldl (fun n c => n + c.utf8Size) n = n + byteLength cs := by
    intro n cs
    unfold byteLength
    induction cs generalizing n with
    | nil => rfl
    | cons c cs ih => rw [List.foldl_cons, List.foldl_cons, ih, ih (0 + _)]; omega
  unfold byteLength
  rw [List.foldl_append]
  exact shift _ _

end SvgPage.PathData

namespace SvgPage

def Problem.shifted (n : Nat) : Problem → Problem
  | .malformedPath position reason => .malformedPath (n + position) reason
  | problem => problem

theorem Problem.ofPath_append (first : List Char) {second : List Char} {fault : PathData.Fault}
    (leaves : fault.rest <:+ second) : Problem.ofPath (first ++ second) fault =
      (Problem.ofPath second fault).shifted (PathData.byteLength first) := by
  obtain ⟨read, rfl⟩ := leaves
  simp only [Problem.ofPath, Problem.shifted, PathData.Fault.position, PathData.byteLength_append]
  congr 1
  omega

theorem Problem.ofPath_extend (first second : List Char) (fault : PathData.Fault) :
    Problem.ofPath (first ++ second) ⟨fault.reason, fault.rest ++ second⟩ =
      Problem.ofPath first fault := by
  simp only [Problem.ofPath, PathData.Fault.position, PathData.byteLength_append]
  congr 1
  omega

namespace PathData

open Decimal

variable {α : Type} [Scalar α]

/-- Path data as it is reported: its outline, or the problem with the place in the text. -/
def report (text : List Char) : Except Problem (List (PathOp α)) :=
  (outline text).mapError (.ofPath text)

theorem outline_eq (text : List Char) :
    outline (α := α) text = (segmentsFrom none text).map (outlineFrom .initial) := rfl

/-- Path data that an absolute move follows is drawn on its own, and then what follows. The first
fault is the same as in the part it is in, at its place in the whole text. -/
theorem report_append_move (first tail : List Char) :
    report (α := α) (first ++ 'M' :: tail) = report first >>= fun drawn =>
      ((report ('M' :: tail)).map (drawn ++ ·)).mapError (.shifted (byteLength first)) := by
  have apart : Severed ('M' :: tail) := severed_of_ofLetter? (k := ⟨.move, false⟩) rfl tail
  obtain ⟨segments, last, done | ⟨rest, fault, way, fails⟩⟩ :=
    Reaches.exists_end (α := α) none first
  · have alone := done.segmentsFrom_of_end
    have whole := (done.extend apart).segmentsFrom_eq
    rw [List.nil_append, segmentsFrom_move] at whole
    unfold report
    rw [outline_eq, outline_eq, outline_eq, whole, alone]
    cases read : segmentsFrom (α := α) none ('M' :: tail) with
    | error fault =>
      exact congrArg Except.error (Problem.ofPath_append first (rest_suffix_of_segmentsFrom read))
    | ok more =>
      have afresh := startsAfresh_of_segmentsFrom read
      refine congrArg Except.ok ?_
      rw [outlineFrom_append, afresh.outlineFrom_eq _ .initial]
  · have alone := way.segmentsFrom_of_fails fails
    have whole := (way.extend apart).segmentsFrom_of_fails (fails.extend apart)
    unfold report
    rw [outline_eq, outline_eq, outline_eq, whole, alone]
    exact congrArg Except.error (Problem.ofPath_extend first ('M' :: tail) fault)

/-- A command written out between two groups of it, where it was repeated unwritten, changes nothing:
neither what is drawn nor what is at fault. -/
theorem outline_insert_repeated {first second : List Char} {segments : List (Segment α)}
    {k : Command} {letter : Char} (reached : Reaches none (first ++ second) segments (some k) second)
    (opened : k.verb ≠ .close) (unwritten : Begins (·.isAlpha = false) (skip second))
    (known : Command.ofLetter? letter = some k.repeated) :
    outline (α := α) (first ++ letter :: second) = outline (first ++ second) := by
  have apart : Severed (letter :: second) := severed_of_ofLetter? known second
  have reached' : Reaches none (first ++ letter :: second) segments (some k) (letter :: second) := by
    have before : Reaches none first segments (some k) [] := reached.cut
    exact before.extend apart
  rw [outline_eq, outline_eq, reached.segmentsFrom_eq, reached'.segmentsFrom_eq]
  congr 2
  exact segmentsFrom_insert_repeated opened unwritten known

/-- A line after a move, where not even a blank stands between the two numerals. -/
theorem outline_insert_repeated_line :
    Reaches (α := Float) none "M0 0.5.5 1".toList
        [⟨false, .move (written ⟨false, 0, 0⟩ ⟨false, 5, -1⟩)⟩] (some ⟨.move, false⟩) ".5 1".toList ∧
      outline (α := Float) "M0 0.5L.5 1".toList = outline "M0 0.5.5 1".toList := by
  have reached : Reaches (α := Float) none ("M0 0.5".toList ++ ".5 1".toList)
      [⟨false, .move (written ⟨false, 0, 0⟩ ⟨false, 5, -1⟩)⟩] (some ⟨.move, false⟩) ".5 1".toList :=
    .group (k := ⟨.move, false⟩) rfl rfl .here
  refine ⟨reached, ?_⟩
  exact outline_insert_repeated reached nofun (begins_cons.mpr rfl) rfl

end PathData

end SvgPage
