import Mathlib
import SvgPage.Geometry.PathData
import SvgPage.Proofs.Number.Numeral

/-!
# The grammar of path data

A text is first cut into terminals: letters of commands, numerals as long as they can be, and flags
of one digit. The terminals then form a sentence, in which each letter is followed by the groups of
arguments that it takes. Reading does both at once, and accepts just the sentences.
-/

namespace SvgPage.PathData

open Decimal

/-- The letters of the commands: where points are absolute, and where they are relative. -/
def Verb.letters : Verb → Char × Char
  | .move => ('M', 'm')
  | .line => ('L', 'l')
  | .horizontal => ('H', 'h')
  | .vertical => ('V', 'v')
  | .cubic => ('C', 'c')
  | .smoothCubic => ('S', 's')
  | .quadratic => ('Q', 'q')
  | .smoothQuadratic => ('T', 't')
  | .arc => ('A', 'a')
  | .close => ('Z', 'z')

def Command.letter (k : Command) : Char := if k.relative then k.verb.letters.2 else k.verb.letters.1

inductive Terminal where
  | command (k : Command)
  | number (d : Decimal)
  | flag (isSet : Bool)
  deriving DecidableEq, Repr

/-- A terminal at the head of a text, and what follows it. -/
inductive Heads : Terminal → List Char → List Char → Prop
  | command {k rest} : Heads (.command k) (k.letter :: rest) rest
  | number {cs d rest} : Munched cs d rest → Heads (.number d) cs rest
  | unset {rest} : Heads (.flag false) ('0' :: rest) rest
  | set {rest} : Heads (.flag true) ('1' :: rest) rest

/-- What may stand between terminals. -/
def Gap (cs : List Char) : Prop := ∀ c ∈ cs, c ∈ [' ', '\t', '\r', '\n', ',']

/-- Terminals at the head of a text with a gap before each of them, and what follows. -/
inductive Reads : List Terminal → List Char → List Char → Prop
  | nil {cs} : Reads [] cs cs
  | cons {t ts gap cs mid rest} : Gap gap → Heads t cs mid → Reads ts mid rest →
      Reads (t :: ts) (gap ++ cs) rest

/-- A text that consists of terminals and gaps. -/
def Spelled (ts : List Terminal) (cs : List Char) : Prop := ∃ gap, Reads ts cs gap ∧ Gap gap

section

variable {α : Type} [Scalar α]

def written (x y : Decimal) : Point α := ⟨Scalar.ofDecimal x, Scalar.ofDecimal y⟩

inductive Group : Verb → List Terminal → Arguments α → Prop
  | move {x y} : Group .move [.number x, .number y] (.move (written x y))
  | line {x y} : Group .line [.number x, .number y] (.line (written x y))
  | horizontal {x} : Group .horizontal [.number x] (.horizontal (Scalar.ofDecimal x))
  | vertical {y} : Group .vertical [.number y] (.vertical (Scalar.ofDecimal y))
  | cubic {x₁ y₁ x₂ y₂ x y} :
      Group .cubic [.number x₁, .number y₁, .number x₂, .number y₂, .number x, .number y]
        (.cubic (written x₁ y₁) (written x₂ y₂) (written x y))
  | smoothCubic {x₂ y₂ x y} :
      Group .smoothCubic [.number x₂, .number y₂, .number x, .number y]
        (.smoothCubic (written x₂ y₂) (written x y))
  | quadratic {x₁ y₁ x y} :
      Group .quadratic [.number x₁, .number y₁, .number x, .number y]
        (.quadratic (written x₁ y₁) (written x y))
  | smoothQuadratic {x y} :
      Group .smoothQuadratic [.number x, .number y] (.smoothQuadratic (written x y))
  | arc {rx ry rotation large sweep x y} :
      Group .arc
        [.number rx, .number ry, .number rotation, .flag large, .flag sweep, .number x, .number y]
        (.arc (Scalar.ofDecimal rx) (Scalar.ofDecimal ry) (Scalar.ofDecimal rotation) large sweep
          (written x y))
  | close : Group .close [] .close

/-- What groups after the first one draw: after a move, lines. -/
def Verb.further : Verb → Verb
  | .move => .line
  | verb => verb

inductive Further (verb : Verb) (relative : Bool) : List Terminal → List (Segment α) → Prop
  | none : Further verb relative [] []
  | more {ts us a segments} : verb ≠ .close → Group verb ts a → Further verb relative us segments →
      Further verb relative (ts ++ us) (⟨relative, a⟩ :: segments)

inductive Phrases : List Terminal → List (Segment α) → Prop
  | nil : Phrases [] []
  | cons {k ts us vs a segments more} : Group k.verb ts a →
      Further k.verb.further k.relative us segments → Phrases vs more →
        Phrases (.command k :: (ts ++ (us ++ vs))) (⟨k.relative, a⟩ :: (segments ++ more))

def StartsWithMove (ts : List Terminal) : Prop :=
  ∀ t ∈ ts.head?, ∃ relative, t = .command ⟨.move, relative⟩

def Sentence (ts : List Terminal) (segments : List (Segment α)) : Prop :=
  StartsWithMove ts ∧ Phrases ts segments

end

theorem skip_skip (cs : List Char) : skip (skip cs) = skip cs := List.dropWhile_idempotent _ cs

theorem length_skip_le (cs : List Char) : (skip cs).length ≤ cs.length :=
  List.length_dropWhile_le ..

theorem isSeparator_iff {c : Char} : isSeparator c = true ↔ c ∈ [' ', '\t', '\r', '\n', ','] := by
  simp only [isSeparator, Bool.or_eq_true, beq_iff_eq, List.mem_cons, List.not_mem_nil, or_false]
  grind

theorem gap_takeWhile (cs : List Char) : Gap (cs.takeWhile isSeparator) :=
  fun _ member => isSeparator_iff.mp (List.mem_takeWhile_imp member)

theorem gap_append_skip (cs : List Char) : cs.takeWhile isSeparator ++ skip cs = cs :=
  List.takeWhile_append_dropWhile

theorem Gap.skip_append {gap : List Char} (h : Gap gap) (cs : List Char) :
    skip (gap ++ cs) = skip cs :=
  List.dropWhile_append_of_pos fun c member => isSeparator_iff.mpr (h c member)

theorem skip_eq_nil_iff {cs : List Char} : skip cs = [] ↔ Gap cs := by
  unfold skip Gap
  simp only [List.dropWhile_eq_nil_iff, isSeparator_iff]

theorem ofLetter?_eq_some_iff {c : Char} {k : Command} :
    Command.ofLetter? c = some k ↔ c = k.letter := by
  constructor
  · intro known
    unfold Command.ofLetter? at known
    split at known <;> cases known <;> rfl
  · rintro rfl
    obtain ⟨verb, relative⟩ := k
    cases verb <;> cases relative <;> rfl

theorem isAlpha_letter (k : Command) : k.letter.isAlpha = true := by
  obtain ⟨verb, relative⟩ := k
  cases verb <;> cases relative <;> rfl

theorem repeated_eq (k : Command) : k.repeated = ⟨k.verb.further, k.relative⟩ := by
  obtain ⟨verb, relative⟩ := k
  cases verb <;> rfl

theorem isAlpha_of_isNumeralStart {c : Char} (h : IsNumeralStart c) : c.isAlpha = false := by
  obtain digit | rfl | rfl | rfl := h
  · simp only [isDigit, Bool.and_eq_true, decide_eq_true_eq, Char.le_def,
      UInt32.le_iff_toNat_le] at digit
    change 48 ≤ c.val.toNat ∧ c.val.toNat ≤ 57 at digit
    rw [Bool.eq_false_iff]
    intro alpha
    simp only [Char.isAlpha, Char.isUpper, Char.isLower, Bool.or_eq_true, Bool.and_eq_true,
      decide_eq_true_eq, ge_iff_le, UInt32.le_iff_toNat_le] at alpha
    change 65 ≤ c.val.toNat ∧ c.val.toNat ≤ 90 ∨ 97 ≤ c.val.toNat ∧ c.val.toNat ≤ 122 at alpha
    omega
  all_goals decide

theorem Heads.skip_eq {t : Terminal} {cs rest : List Char} (h : Heads t cs rest) :
    skip cs = cs := by
  have unmoved {c : Char} (cs : List Char) (solid : ¬isSeparator c = true) :
      skip (c :: cs) = c :: cs := List.dropWhile_cons_of_neg solid
  cases h with
  | command =>
    refine unmoved _ fun separator => ?_
    rename_i k
    obtain ⟨verb, relative⟩ := k
    cases verb <;> cases relative <;> cases separator
  | number munched =>
    obtain ⟨c, head, start⟩ := munched.begins
    rw [List.eq_cons_of_mem_head? head]
    refine unmoved _ fun separator => ?_
    obtain digit | rfl | rfl | rfl := start
    · have := isSeparator_iff.mp separator
      simp only [List.mem_cons, List.not_mem_nil, or_false] at this
      obtain rfl | rfl | rfl | rfl | rfl := this <;> cases digit
    all_goals cases separator
  | unset | set => exact unmoved _ nofun

theorem Heads.length_lt {t : Terminal} {cs rest : List Char} (h : Heads t cs rest) :
    rest.length < cs.length := by
  cases h with
  | command | unset | set => simp
  | number munched => exact munched.length_lt

namespace Reads

variable {t : Terminal} {ts us : List Terminal} {cs mid rest : List Char}

theorem of_heads (head : Heads t (skip cs) mid) (tail : Reads ts mid rest) :
    Reads (t :: ts) cs rest := by
  rw [← gap_append_skip cs]
  exact .cons (gap_takeWhile cs) head tail

theorem exists_heads (h : Reads (t :: ts) cs rest) :
    ∃ mid, Heads t (skip cs) mid ∧ Reads ts mid rest := by
  cases h with
  | @cons _ _ gap text mid _ isGap head tail =>
    refine ⟨mid, ?_, tail⟩
    rwa [isGap.skip_append, head.skip_eq]

theorem single (h : Heads t (skip cs) rest) : Reads [t] cs rest := of_heads h .nil

theorem append (first : Reads ts cs mid) (second : Reads us mid rest) :
    Reads (ts ++ us) cs rest := by
  induction first with
  | nil => exact second
  | cons isGap head _ ih => exact .cons isGap head (ih second)

theorem split (h : Reads (ts ++ us) cs rest) : ∃ mid, Reads ts cs mid ∧ Reads us mid rest := by
  induction ts generalizing cs with
  | nil => exact ⟨cs, .nil, h⟩
  | cons t ts ih =>
    obtain ⟨mid, head, tail⟩ := h.exists_heads
    obtain ⟨last, first, second⟩ := ih tail
    exact ⟨last, of_heads head first, second⟩

theorem length_le (h : Reads ts cs rest) : rest.length + ts.length ≤ cs.length := by
  induction h with
  | nil => simp
  | @cons t ts gap cs mid rest _ head _ ih =>
    have shorter := head.length_lt
    rw [List.length_append, List.length_cons]
    omega

theorem begins_number {d : Decimal} (h : Reads (.number d :: ts) cs rest) :
    Begins IsNumeralStart (skip cs) := by
  obtain ⟨mid, head, -⟩ := h.exists_heads
  generalize skip cs = text at head
  cases head with
  | number munched => exact munched.begins

theorem skip_iff (some : ts ≠ []) : Reads ts (skip cs) rest ↔ Reads ts cs rest := by
  cases ts with
  | nil => exact absurd rfl some
  | cons t ts =>
    constructor <;> intro h <;> obtain ⟨mid, head, tail⟩ := h.exists_heads
    · exact of_heads (skip_skip cs ▸ head) tail
    · exact of_heads (by rwa [skip_skip]) tail

end Reads

/-- No terminal starts with the letter of an exponent, so no numeral is cut short. -/
theorem Spelled.not_begins_exponent {ts : List Terminal} {cs : List Char} (h : Spelled ts cs) :
    ¬Begins IsExponentLetter cs := by
  rintro ⟨c, head, letter⟩
  obtain ⟨gap, reads, isGap⟩ := h
  obtain ⟨tail, rfl⟩ : ∃ tail, cs = c :: tail := by cases cs <;> simp_all
  have skipped : skip (c :: tail) = c :: tail := by obtain rfl | rfl := letter <;> rfl
  cases ts with
  | nil =>
    cases reads
    cases skipped.symm.trans (skip_eq_nil_iff.mpr isGap)
  | cons t ts =>
    obtain ⟨mid, terminal, -⟩ := reads.exists_heads
    have exponent : c = 'e' ∨ c = 'E' := letter
    generalize text : skip (c :: tail) = cs at terminal
    rw [skipped] at text
    cases terminal with
    | @command k _ =>
      have spelled : c = k.letter := (List.cons.inj text).1
      have known := ofLetter?_eq_some_iff.mpr spelled
      obtain rfl | rfl := exponent <;> cases known
    | number munched =>
      have start := isAlpha_of_isNumeralStart (begins_cons.mp (text ▸ munched.begins))
      obtain rfl | rfl := exponent <;> cases start
    | unset | set => obtain rfl | rfl := exponent <;> cases (List.cons.inj text).1

theorem Spelled.prepend {ts us : List Terminal} {cs rest : List Char} (first : Reads ts cs rest)
    (second : Spelled us rest) : Spelled (ts ++ us) cs := by
  obtain ⟨gap, reads, isGap⟩ := second
  exact ⟨gap, first.append reads, isGap⟩

section

variable {α : Type} [Scalar α] {ts us : List Terminal} {cs rest : List Char}

theorem exists_of_bind_eq_ok {β γ : Type} {x : Except Fault β} {f : β → Except Fault γ} {c : γ}
    (h : (x >>= f) = .ok c) : ∃ b, x = .ok b ∧ f b = .ok c := by
  cases x with
  | error fault => cases h
  | ok b => exact ⟨b, rfl, h⟩

theorem reads_of_number {x : α} (h : number cs = .ok (x, rest)) :
    ∃ d, x = Scalar.ofDecimal d ∧ Reads [.number d] cs rest := by
  unfold number at h
  dsimp only at h
  split at h
  · next d rest scanned =>
    cases h
    exact ⟨d, rfl, .single (.number (munched_of_scan scanned))⟩
  · cases h
  · cases h

theorem reads_of_point {p : Point α} (h : point cs = .ok (p, rest)) :
    ∃ x y, p = written x y ∧ Reads [.number x, .number y] cs rest := by
  obtain ⟨⟨x, mid⟩, first, h⟩ := exists_of_bind_eq_ok h
  obtain ⟨⟨y, last⟩, second, h⟩ := exists_of_bind_eq_ok h
  cases h
  obtain ⟨x, rfl, left⟩ := reads_of_number first
  obtain ⟨y, rfl, right⟩ := reads_of_number second
  exact ⟨x, y, rfl, left.append right⟩

theorem reads_of_flag {b : Bool} (h : flag cs = .ok (b, rest)) : Reads [.flag b] cs rest := by
  unfold flag at h
  split at h
  · next zero =>
    cases h
    exact .single (zero ▸ .unset)
  · next one =>
    cases h
    exact .single (one ▸ .set)
  · cases h

theorem reads_of_arguments {verb : Verb} {a : Arguments α} (h : arguments verb cs = .ok (a, rest)) :
    ∃ ts, Group verb ts a ∧ Reads ts cs rest := by
  cases verb with
  | move | line | smoothQuadratic =>
    obtain ⟨⟨p, mid⟩, first, h⟩ := exists_of_bind_eq_ok h
    cases h
    obtain ⟨x, y, rfl, reads⟩ := reads_of_point first
    exact ⟨_, by constructor, reads⟩
  | horizontal | vertical =>
    obtain ⟨⟨v, mid⟩, first, h⟩ := exists_of_bind_eq_ok h
    cases h
    obtain ⟨v, rfl, reads⟩ := reads_of_number first
    exact ⟨_, by constructor, reads⟩
  | cubic =>
    obtain ⟨⟨c₁, mid⟩, first, h⟩ := exists_of_bind_eq_ok h
    obtain ⟨⟨c₂, mid'⟩, second, h⟩ := exists_of_bind_eq_ok h
    obtain ⟨⟨p, last⟩, third, h⟩ := exists_of_bind_eq_ok h
    cases h
    obtain ⟨x₁, y₁, rfl, one⟩ := reads_of_point first
    obtain ⟨x₂, y₂, rfl, two⟩ := reads_of_point second
    obtain ⟨x, y, rfl, three⟩ := reads_of_point third
    exact ⟨_, .cubic, one.append (two.append three)⟩
  | smoothCubic | quadratic =>
    obtain ⟨⟨c, mid⟩, first, h⟩ := exists_of_bind_eq_ok h
    obtain ⟨⟨p, last⟩, second, h⟩ := exists_of_bind_eq_ok h
    cases h
    obtain ⟨x₁, y₁, rfl, one⟩ := reads_of_point first
    obtain ⟨x, y, rfl, two⟩ := reads_of_point second
    exact ⟨_, by constructor, one.append two⟩
  | arc =>
    obtain ⟨⟨rx, mid₁⟩, first, h⟩ := exists_of_bind_eq_ok h
    obtain ⟨⟨ry, mid₂⟩, second, h⟩ := exists_of_bind_eq_ok h
    obtain ⟨⟨rotation, mid₃⟩, third, h⟩ := exists_of_bind_eq_ok h
    obtain ⟨⟨large, mid₄⟩, fourth, h⟩ := exists_of_bind_eq_ok h
    obtain ⟨⟨sweep, mid₅⟩, fifth, h⟩ := exists_of_bind_eq_ok h
    obtain ⟨⟨p, last⟩, sixth, h⟩ := exists_of_bind_eq_ok h
    cases h
    obtain ⟨rx, rfl, one⟩ := reads_of_number first
    obtain ⟨ry, rfl, two⟩ := reads_of_number second
    obtain ⟨rotation, rfl, three⟩ := reads_of_number third
    obtain ⟨x, y, rfl, six⟩ := reads_of_point sixth
    exact ⟨_, .arc, one.append (two.append (three.append
      ((reads_of_flag fourth).append ((reads_of_flag fifth).append six))))⟩
  | close =>
    cases h
    exact ⟨_, .close, .nil⟩

/-- A numeral is read, if the text goes on with terminals: only the letter of an exponent could
spoil it. -/
theorem number_of_reads {d : Decimal} (reads : Reads (.number d :: ts) cs rest)
    (follows : Spelled us rest) :
    ∃ mid, number cs = .ok ((Scalar.ofDecimal d : α), mid) ∧ Reads ts mid rest := by
  obtain ⟨mid, head, tail⟩ := reads.exists_heads
  obtain @⟨⟩ | @⟨_, _, _, munched⟩ := head
  have stops := (follows.prepend tail).not_begins_exponent
  have scanned := scan_eq_ok_iff.mpr ⟨munched, fun _ unfinished => stops unfinished.letter⟩
  refine ⟨mid, ?_, tail⟩
  unfold number
  simp only [scanned]

theorem point_of_reads {x y : Decimal} (reads : Reads (.number x :: .number y :: ts) cs rest)
    (follows : Spelled us rest) :
    ∃ mid, point cs = .ok ((written x y : Point α), mid) ∧ Reads ts mid rest := by
  obtain ⟨mid, first, reads⟩ := number_of_reads (α := α) reads follows
  obtain ⟨last, second, reads⟩ := number_of_reads (α := α) reads follows
  refine ⟨last, ?_, reads⟩
  simp only [point, first, second, bind, Except.bind]
  rfl

theorem flag_of_reads {b : Bool} (reads : Reads (.flag b :: ts) cs rest) :
    ∃ mid, flag cs = .ok (b, mid) ∧ Reads ts mid rest := by
  obtain ⟨mid, head, tail⟩ := reads.exists_heads
  refine ⟨mid, ?_, tail⟩
  unfold flag
  generalize skip cs = text at head
  cases head <;> rfl

theorem arguments_of_reads {verb : Verb} {a : Arguments α} (group : Group verb ts a)
    (reads : Reads ts cs rest) (follows : Spelled us rest) :
    arguments verb cs = .ok (a, rest) := by
  cases group with
  | move | line | smoothQuadratic =>
    obtain ⟨mid, first, reads⟩ := point_of_reads (α := α) reads follows
    cases reads
    simp only [arguments, first]
    rfl
  | horizontal | vertical =>
    obtain ⟨mid, first, reads⟩ := number_of_reads (α := α) reads follows
    cases reads
    simp only [arguments, first]
    rfl
  | cubic =>
    obtain ⟨mid, first, reads⟩ := point_of_reads (α := α) reads follows
    obtain ⟨mid, second, reads⟩ := point_of_reads (α := α) reads follows
    obtain ⟨mid, third, reads⟩ := point_of_reads (α := α) reads follows
    cases reads
    simp only [arguments, first, second, third, bind, Except.bind]
    rfl
  | smoothCubic | quadratic =>
    obtain ⟨mid, first, reads⟩ := point_of_reads (α := α) reads follows
    obtain ⟨mid, second, reads⟩ := point_of_reads (α := α) reads follows
    cases reads
    simp only [arguments, first, second, bind, Except.bind]
    rfl
  | arc =>
    obtain ⟨mid, first, reads⟩ := number_of_reads (α := α) reads follows
    obtain ⟨mid, second, reads⟩ := number_of_reads (α := α) reads follows
    obtain ⟨mid, third, reads⟩ := number_of_reads (α := α) reads follows
    obtain ⟨mid, fourth, reads⟩ := flag_of_reads reads
    obtain ⟨mid, fifth, reads⟩ := flag_of_reads reads
    obtain ⟨mid, sixth, reads⟩ := point_of_reads (α := α) reads follows
    cases reads
    simp only [arguments, first, second, third, fourth, fifth, sixth, bind, Except.bind]
    rfl
  | close =>
    cases reads
    rfl

end

end SvgPage.PathData
