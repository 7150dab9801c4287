import Mathlib.Data.List.Induction
import SvgPage.Page.Conversion

/-!
# The grammar of page operators

A reader of operators stands on the page, in an outline, after a clip, or in a text, at some depth
of saved states. What compilation writes takes the reader from the page back to the page at the
same depth, so outlines are always ended, texts hold only text, and states are restored.
-/

namespace SvgPage

/-- What an operator is to a reader. -/
inductive Role where
  | save
  | restore
  /-- Adds to an outline. -/
  | build
  /-- Paints the outline and ends it. -/
  | paint
  /-- Ends the outline. -/
  | finish
  | clip
  | enterText
  | leaveText
  /-- Sets or shows text. -/
  | text
  /-- Sets the state of the page, or draws what needs no outline. -/
  | other
  deriving DecidableEq

def Operator.role : Operator → Role
  | push => .save
  | pop => .restore
  | moveTo _ | lineTo _ | curveTo .. | closePath => .build
  | fill _ | stroke | fillStroke _ => .paint
  | endPath => .finish
  | clip _ => .clip
  | beginText => .enterText
  | endText => .leaveText
  | font .. | renderMode _ | textMatrix _ | showText _ => .text
  | concat _ | graphicsState _ | fillColor _ | strokeColor _ | lineWidth _ | lineJoin _
  | miterLimit _ | lineCap _ | dash _ | drawImage _ | paintShading _ => .other

namespace Operator

variable {op : Operator}

theorem role_eq_clip_iff : op.role = .clip ↔ ∃ rule, op = clip rule := by
  cases op <;> simp [role]

theorem role_eq_finish_iff : op.role = .finish ↔ op = endPath := by
  cases op <;> simp [role]

theorem role_eq_enterText_iff : op.role = .enterText ↔ op = beginText := by
  cases op <;> simp [role]

theorem role_eq_leaveText_iff : op.role = .leaveText ↔ op = endText := by
  cases op <;> simp [role]

end Operator

inductive Place where
  | page
  | outline
  /-- After a clip, whose outline is still to be ended. -/
  | clipped
  | text
  deriving DecidableEq

/-- Where a reader stands, with the number of saved states. -/
structure Position where
  depth : Nat
  place : Place
  deriving DecidableEq

namespace Position

/-- The position after an operator of some role, if it is allowed. -/
def move (p : Position) (role : Role) : Option Position :=
  match p.place, role with
  | .page, .save => some ⟨p.depth + 1, .page⟩
  | .page, .restore => if p.depth = 0 then none else some ⟨p.depth - 1, .page⟩
  | .page, .build => some ⟨p.depth, .outline⟩
  | .page, .paint => some p
  | .page, .finish => some p
  | .page, .clip => some ⟨p.depth, .clipped⟩
  | .page, .enterText => some ⟨p.depth, .text⟩
  | .page, .other => some p
  | .outline, .build => some p
  | .outline, .paint => some ⟨p.depth, .page⟩
  | .outline, .finish => some ⟨p.depth, .page⟩
  | .outline, .clip => some ⟨p.depth, .clipped⟩
  | .clipped, .finish => some ⟨p.depth, .page⟩
  | .text, .text => some p
  | .text, .leaveText => some ⟨p.depth, .page⟩
  | _, _ => none

def read (p : Position) (ops : List Operator) : Option Position :=
  ops.foldlM (fun p op => p.move op.role) p

@[simp] theorem read_nil (p : Position) : p.read [] = some p := rfl

@[simp] theorem read_cons (p : Position) (op : Operator) (ops : List Operator) :
    p.read (op :: ops) = (p.move op.role).bind fun q => q.read ops := by
  simp [read]

@[simp] theorem read_append (p : Position) (ops ops' : List Operator) :
    p.read (ops ++ ops') = (p.read ops).bind fun q => q.read ops' := by
  simp [read, List.foldlM_append]

/-- The moves of a reader. -/
inductive Move : Position → Role → Position → Prop where
  | save {d} : Move ⟨d, .page⟩ .save ⟨d + 1, .page⟩
  | restore {d} : Move ⟨d + 1, .page⟩ .restore ⟨d, .page⟩
  | start {d} : Move ⟨d, .page⟩ .build ⟨d, .outline⟩
  | build {d} : Move ⟨d, .outline⟩ .build ⟨d, .outline⟩
  | paintNothing {d} : Move ⟨d, .page⟩ .paint ⟨d, .page⟩
  | paint {d} : Move ⟨d, .outline⟩ .paint ⟨d, .page⟩
  | finishNothing {d} : Move ⟨d, .page⟩ .finish ⟨d, .page⟩
  | finish {d} : Move ⟨d, .outline⟩ .finish ⟨d, .page⟩
  | clipNothing {d} : Move ⟨d, .page⟩ .clip ⟨d, .clipped⟩
  | clip {d} : Move ⟨d, .outline⟩ .clip ⟨d, .clipped⟩
  | finishClip {d} : Move ⟨d, .clipped⟩ .finish ⟨d, .page⟩
  | enter {d} : Move ⟨d, .page⟩ .enterText ⟨d, .text⟩
  | text {d} : Move ⟨d, .text⟩ .text ⟨d, .text⟩
  | leave {d} : Move ⟨d, .text⟩ .leaveText ⟨d, .page⟩
  | other {d} : Move ⟨d, .page⟩ .other ⟨d, .page⟩

variable {p q : Position} {role : Role}

theorem move_eq_some_iff : p.move role = some q ↔ Move p role q := by
  constructor
  · obtain ⟨d, place⟩ := p
    intro h
    cases place <;> cases role <;> simp only [move, reduceCtorEq, Option.some.injEq] at h <;>
      try (subst h; constructor)
    cases d with
    | zero => simp at h
    | succ d =>
      simp only [Nat.add_one_ne_zero, if_false, Nat.add_sub_cancel, Option.some.injEq] at h
      subst h
      constructor
  · intro h
    cases h <;> rfl

theorem exists_of_read_cons {op : Operator} {ops : List Operator}
    (h : p.read (op :: ops) = some q) : ∃ m, Move p op.role m ∧ m.read ops = some q := by
  rw [read_cons, Option.bind_eq_some_iff] at h
  obtain ⟨m, moved, rest⟩ := h
  exact ⟨m, move_eq_some_iff.mp moved, rest⟩

theorem exists_of_read {before after : List Operator} {op : Operator}
    (h : p.read (before ++ op :: after) = some q) :
    ∃ m m', p.read before = some m ∧ Move m op.role m' ∧ m'.read after = some q := by
  rw [read_append, Option.bind_eq_some_iff] at h
  obtain ⟨m, reached, rest⟩ := h
  obtain ⟨m', move, rest⟩ := exists_of_read_cons rest
  exact ⟨m, m', reached, move, rest⟩

end Position

/-- Saved states that some operators leave to be restored. -/
def depth (ops : List Operator) : Int := ops.count .push - ops.count .pop

@[simp] theorem depth_nil : depth [] = 0 := rfl

theorem depth_append (ops ops' : List Operator) :
    depth (ops ++ ops') = depth ops + depth ops' := by
  simp only [depth, List.count_append]
  omega

theorem depth_cons (op : Operator) (ops : List Operator) :
    depth (op :: ops) = depth [op] + depth ops := depth_append [op] ops

/-- How an operator of some role changes the depth. -/
def Role.gain : Role → Int
  | .save => 1
  | .restore => -1
  | _ => 0

theorem depth_singleton (op : Operator) : depth [op] = op.role.gain := by
  cases op <;> simp [depth, Operator.role, Role.gain]

namespace Position

variable {p q : Position}

theorem Move.depth {op : Operator} (h : Move p op.role q) :
    (q.depth : Int) = p.depth + SvgPage.depth [op] := by
  rw [depth_singleton]
  generalize op.role = role at h
  cases h <;> simp only [Role.gain] <;> omega

theorem depth_of_read {ops : List Operator} (h : p.read ops = some q) :
    (q.depth : Int) = p.depth + SvgPage.depth ops := by
  induction ops generalizing p with
  | nil =>
    obtain rfl : p = q := by simpa using h
    simp
  | cons op ops ih =>
    obtain ⟨m, move, rest⟩ := exists_of_read_cons h
    rw [ih rest, move.depth, depth_cons op ops]
    omega

end Position

/-- What may follow the start of an outline: more of it, then one operator that paints or ends it,
or a clip and the end of the outline. -/
inductive OutlineTail : List Operator → Prop where
  | build {op rest} : op.role = .build → OutlineTail rest → OutlineTail (op :: rest)
  | paint {op rest} : op.role = .paint ∨ op.role = .finish → OutlineTail (op :: rest)
  | clip {rule rest} : OutlineTail (.clip rule :: .endPath :: rest)

/-- Operators that save and restore states in pairs, end every outline, and keep text in texts. -/
structure WellFormed (ops : List Operator) : Prop where
  bracketed : ∃ inner, ops = .push :: inner ++ [.pop]
  level : depth ops = 0
  inside : ∀ n, 0 < n → n < ops.length → 1 ≤ depth (ops.take n)
  outlines : ∀ before op after, ops = before ++ op :: after → op.role = .build →
    OutlineTail after
  clips : ∀ before rule after, ops = before ++ .clip rule :: after →
    ∃ rest, after = .endPath :: rest
  textsEnd : ∀ before after, ops = before ++ .beginText :: after →
    ∃ settings rest, after = settings ++ .endText :: rest ∧ ∀ op ∈ settings, op.role = .text
  textsBegin : ∀ before op after, ops = before ++ op :: after →
    op = .endText ∨ op.role = .text →
    ∃ earlier settings, before = earlier ++ .beginText :: settings ∧
      ∀ op ∈ settings, op.role = .text

namespace Position

variable {p q : Position} {ops : List Operator}

theorem clipped_read {d : Nat} (h : read ⟨d, .clipped⟩ ops = some q) (page : q.place = .page) :
    ∃ rest, ops = .endPath :: rest := by
  cases ops with
  | nil =>
    obtain rfl : ⟨d, .clipped⟩ = q := by simpa using h
    contradiction
  | cons op ops =>
    obtain ⟨m, move, -⟩ := exists_of_read_cons h
    generalize isRole : op.role = role at move
    cases move with
    | finishClip => exact ⟨ops, by rw [Operator.role_eq_finish_iff.mp isRole]⟩

theorem outline_read {d : Nat} (h : read ⟨d, .outline⟩ ops = some q) (page : q.place = .page) :
    OutlineTail ops := by
  induction ops generalizing d with
  | nil =>
    obtain rfl : ⟨d, .outline⟩ = q := by simpa using h
    contradiction
  | cons op ops ih =>
    obtain ⟨m, move, rest⟩ := exists_of_read_cons h
    generalize isRole : op.role = role at move
    cases move with
    | build => exact .build isRole (ih rest)
    | paint => exact .paint (.inl isRole)
    | finish => exact .paint (.inr isRole)
    | clip =>
      obtain ⟨rule, rfl⟩ := Operator.role_eq_clip_iff.mp isRole
      obtain ⟨rest, rfl⟩ := clipped_read rest page
      exact .clip

theorem text_read {d : Nat} (h : read ⟨d, .text⟩ ops = some q) (page : q.place = .page) :
    ∃ settings rest, ops = settings ++ .endText :: rest ∧ ∀ op ∈ settings, op.role = .text := by
  induction ops generalizing d with
  | nil =>
    obtain rfl : ⟨d, .text⟩ = q := by simpa using h
    contradiction
  | cons op ops ih =>
    obtain ⟨m, move, rest⟩ := exists_of_read_cons h
    generalize isRole : op.role = role at move
    cases move with
    | text =>
      obtain ⟨settings, others, rfl, all⟩ := ih rest
      exact ⟨op :: settings, others, rfl, List.forall_mem_cons.mpr ⟨isRole, all⟩⟩
    | leave =>
      obtain rfl := Operator.role_eq_leaveText_iff.mp isRole
      exact ⟨[], ops, rfl, by simp⟩

/-- A reader in a text has come there by the start of the text and operators of the text. -/
theorem read_text (h : p.read ops = some q) (page : p.place = .page) (text : q.place = .text) :
    ∃ earlier settings, ops = earlier ++ .beginText :: settings ∧
      ∀ op ∈ settings, op.role = .text := by
  induction ops using List.reverseRecOn generalizing q with
  | nil =>
    obtain rfl : p = q := by simpa using h
    rw [page] at text
    contradiction
  | append_singleton ops op ih =>
    obtain ⟨m, q', before, move, last⟩ := exists_of_read h
    obtain rfl : q' = q := by simpa using last
    generalize isRole : op.role = role at move
    cases move with
    | enter =>
      obtain rfl := Operator.role_eq_enterText_iff.mp isRole
      exact ⟨ops, [], rfl, by simp⟩
    | text =>
      obtain ⟨earlier, settings, rfl, all⟩ := ih before rfl
      refine ⟨earlier, settings ++ [op], by simp, ?_⟩
      intro o ho
      rcases List.mem_append.mp ho with old | new
      · exact all o old
      · rw [List.mem_singleton.mp new, isRole]
    | _ => contradiction

/-- At a position that a reading starts from the ground, as many states are saved as its depth. -/
theorem depth_nonneg {ops' : List Operator} (h : read ⟨0, .page⟩ (ops ++ ops') = some q) :
    0 ≤ SvgPage.depth ops := by
  rw [read_append, Option.bind_eq_some_iff] at h
  obtain ⟨m, before, -⟩ := h
  have level := depth_of_read before
  change (m.depth : Int) = 0 + SvgPage.depth ops at level
  omega

end Position

/-- Operators that take a reader from the page back to it, at the depth where it was. -/
def Content (ops : List Operator) : Prop :=
  ∀ d, Position.read ⟨d, .page⟩ ops = some ⟨d, .page⟩

/-- Contents between a saved and a restored state. -/
def Block (ops : List Operator) : Prop := ∃ inner, ops = .push :: inner ++ [.pop] ∧ Content inner

theorem Block.content {ops : List Operator} (h : Block ops) : Content ops := by
  obtain ⟨inner, rfl, content⟩ := h
  intro d
  simp [Position.move, Operator.role, content (d + 1)]

theorem Block.wellFormed {ops : List Operator} (h : Block ops) : WellFormed ops := by
  have whole : Position.read ⟨0, .page⟩ ops = some ⟨0, .page⟩ := h.content 0
  obtain ⟨inner, split, content⟩ := h
  refine ⟨⟨inner, split⟩, ?_, ?_, ?_, ?_, ?_, ?_⟩
  · have := Position.depth_of_read whole
    omega
  · intro n pos short
    obtain ⟨m, rfl⟩ : ∃ m, n = m + 1 := ⟨n - 1, by omega⟩
    have within : m ≤ inner.length := by
      rw [split] at short
      simp at short
      omega
    have taken : ops.take (m + 1) = .push :: inner.take m := by
      rw [split, List.cons_append, List.take_succ_cons, List.take_append_of_le_length within]
    have nonneg : 0 ≤ depth (inner.take m) :=
      Position.depth_nonneg (by rw [List.take_append_drop]; exact content 0)
    rw [taken, depth_cons]
    simp [depth] at nonneg ⊢
    omega
  · rintro before op after rfl builds
    obtain ⟨p, q, -, move, rest⟩ := Position.exists_of_read whole
    rw [builds] at move
    cases move with
    | start => exact Position.outline_read rest rfl
    | build => exact Position.outline_read rest rfl
  · rintro before rule after rfl
    obtain ⟨p, q, -, move, rest⟩ := Position.exists_of_read whole
    cases move with
    | clipNothing => exact Position.clipped_read rest rfl
    | clip => exact Position.clipped_read rest rfl
  · rintro before after rfl
    obtain ⟨p, q, -, move, rest⟩ := Position.exists_of_read whole
    cases move with
    | enter => exact Position.text_read rest rfl
  · rintro before op after rfl isText
    obtain ⟨p, q, reached, move, -⟩ := Position.exists_of_read whole
    have text : p.place = .text := by
      rcases isText with rfl | isRole
      · cases move with
        | leave => rfl
      · rw [isRole] at move
        cases move with
        | text => rfl
    exact Position.read_text reached rfl text

end SvgPage
