import Mathlib.Data.List.Infix
import SvgPage.Proofs.Text.Pieces
import SvgPage.Scene.TextSpace

/-!
# Collapsed white space

A text is collapsed from left to right with one flag, which tells whether white space has just been
read. So texts that are joined are collapsed one after the other, and what is collapsed already
stays. Without the space at the end nothing is left but the words of the text and one space between
any two of them.
-/

namespace SvgPage

namespace Text

variable {p : Char → Bool}

theorem join_cons_cons (c : Char) (word next : List Char) (words : List (List Char)) :
    join [c] (word :: next :: words) = word ++ c :: join [c] (next :: words) := by
  simp [join]

theorem join_ne_nil (c : Char) {word : List Char} (filled : word ≠ [])
    (words : List (List Char)) : join [c] (word :: words) ≠ [] := by
  cases words with
  | nil => exact filled
  | cons next words => simp [join_cons_cons]

theorem dropTail_append_of_eq_nil (cs : List Char) {ds : List Char} (drops : dropTail p ds = []) :
    dropTail p (cs ++ ds) = dropTail p cs := by
  induction cs with
  | nil => exact drops
  | cons c cs ih => rw [List.cons_append, dropTail, dropTail, ih]

theorem dropTail_append_of_ne_nil (cs : List Char) {ds : List Char} (keeps : dropTail p ds ≠ []) :
    dropTail p (cs ++ ds) = cs ++ dropTail p ds := by
  induction cs with
  | nil => rfl
  | cons c cs ih =>
    obtain ⟨d, rest, split⟩ : ∃ d rest, cs ++ dropTail p ds = d :: rest :=
      List.exists_cons_of_ne_nil (List.append_ne_nil_of_right_ne_nil cs keeps)
    rw [List.cons_append, List.cons_append, dropTail, ih, split]

theorem dropTail_cons_of_ne_nil (c : Char) {cs : List Char} (keeps : dropTail p cs ≠ []) :
    dropTail p (c :: cs) = c :: dropTail p cs :=
  dropTail_append_of_ne_nil [c] keeps

theorem length_dropTail_le (p : Char → Bool) (cs : List Char) :
    (dropTail p cs).length ≤ cs.length := by
  obtain ⟨tail, split, -⟩ := exists_tail p cs
  have := congrArg List.length split
  rw [List.length_append] at this
  omega

theorem dropTail_of_append {cs ds : List Char} (whole : dropTail p (cs ++ ds) = cs ++ ds) :
    dropTail p ds = ds := by
  by_cases drops : dropTail p ds = []
  · have short := length_dropTail_le p cs
    rw [← dropTail_append_of_eq_nil cs drops, whole, List.length_append] at short
    have none : ds = [] := List.eq_nil_of_length_eq_zero (by omega)
    rw [drops, none]
  · rw [dropTail_append_of_ne_nil cs drops] at whole
    exact List.append_cancel_left whole

theorem eq_false_of_mem_getLast? {cs : List Char} (whole : dropTail p cs = cs) :
    ∀ c ∈ cs.getLast?, p c = false := by
  intro c last
  obtain ⟨front, rfl⟩ := List.getLast?_eq_some_iff.mp last
  have stays : dropTail p [c] = [c] := dropTail_of_append whole
  by_contra drops
  rw [dropTail, dropTail, if_pos (by simpa using drops)] at stays
  cases stays

theorem whole_of_mem_fields {cs word : List Char} (member : word ∈ fields p cs) :
    word ≠ [] ∧ ∀ c ∈ word, p c = false := by
  obtain ⟨piece, filled⟩ := List.mem_filter.mp member
  exact ⟨by simpa using filled, whole_of_mem_pieces piece⟩

end Text

namespace TextItem

open Text

/-- Whether white space has just been read after some more characters. -/
def blankAfter (after : Bool) (cs : List Char) : Bool := cs.foldl (fun _ c => isBlank c) after

@[simp]
theorem blankAfter_nil (after : Bool) : blankAfter after [] = after := rfl

@[simp]
theorem blankAfter_cons (after : Bool) (c : Char) (cs : List Char) :
    blankAfter after (c :: cs) = blankAfter (isBlank c) cs := rfl

theorem blankAfter_append (after : Bool) (cs ds : List Char) :
    blankAfter after (cs ++ ds) = blankAfter (blankAfter after cs) ds := List.foldl_append

@[simp]
theorem isBlank_space : isBlank ' ' = true := rfl

/-- Where spaces are the only white space, the flag tells whether one has just been written. -/
theorem endsInSpace_eq {cs : List Char} (spaces : ∀ c ∈ cs, isBlank c = true → c = ' ')
    (after : Bool) : endsInSpace after cs = blankAfter after cs := by
  cases cs using List.reverseRecOn with
  | nil => rfl
  | append_singleton cs c =>
    have last : (c == ' ') = isBlank c := by
      cases blank : isBlank c with
      | true => simp [spaces c (by simp) blank]
      | false =>
        apply beq_false_of_ne
        rintro rfl
        cases blank
    simp [endsInSpace, blankAfter_append, last]

theorem collapseFrom_append (after : Bool) (cs ds : List Char) :
    collapseFrom after (cs ++ ds) =
      collapseFrom after cs ++ collapseFrom (blankAfter after cs) ds := by
  induction cs generalizing after with
  | nil => rfl
  | cons c cs ih =>
    cases blank : isBlank c with
    | true => cases after <;> simp [collapseFrom, blank, ih]
    | false => simp [collapseFrom, blank, ih]

theorem blankAfter_collapseFrom (after : Bool) (cs : List Char) :
    blankAfter after (collapseFrom after cs) = blankAfter after cs := by
  induction cs generalizing after with
  | nil => rfl
  | cons c cs ih =>
    cases blank : isBlank c with
    | true => cases after <;> simp [collapseFrom, blank, ih]
    | false => simp [collapseFrom, blank, ih]

theorem length_collapseFrom_le (after : Bool) (cs : List Char) :
    (collapseFrom after cs).length ≤ cs.length := by
  induction cs generalizing after with
  | nil => rfl
  | cons c cs ih =>
    have rest := ih true
    have rest' := ih false
    simp only [collapseFrom]
    split_ifs <;> simp only [List.length_cons] <;> omega

theorem eq_space_of_mem_collapseFrom {after : Bool} {cs : List Char} {c : Char}
    (member : c ∈ collapseFrom after cs) (blank : isBlank c = true) : c = ' ' := by
  induction cs generalizing after with
  | nil => cases member
  | cons d cs ih =>
    unfold collapseFrom at member
    split_ifs at member with separates follows
    · exact ih member
    · obtain rfl | member := List.mem_cons.mp member
      · rfl
      · exact ih member
    · obtain rfl | member := List.mem_cons.mp member
      · exact absurd blank separates
      · exact ih member

/-- Collapsing again, after at least as much white space, is like collapsing once. -/
theorem collapseFrom_collapseFrom {before after : Bool} (more : before = true → after = true)
    (cs : List Char) : collapseFrom after (collapseFrom before cs) = collapseFrom after cs := by
  induction cs generalizing before after with
  | nil => rfl
  | cons c cs ih =>
    have same : collapseFrom true (collapseFrom true cs) = collapseFrom true cs := ih id
    have same' : collapseFrom false (collapseFrom false cs) = collapseFrom false cs := ih id
    cases blank : isBlank c with
    | true => cases before <;> cases after <;> simp_all [collapseFrom]
    | false => simp [collapseFrom, blank, same']

theorem collapseFrom_of_append {after : Bool} {cs ds : List Char}
    (whole : collapseFrom after (cs ++ ds) = cs ++ ds) :
    collapseFrom after cs = cs ∧ collapseFrom (blankAfter after cs) ds = ds := by
  have first := length_collapseFrom_le after cs
  have second := length_collapseFrom_le (blankAfter after cs) ds
  rw [collapseFrom_append] at whole
  have total := congrArg List.length whole
  rw [List.length_append, List.length_append] at total
  exact List.append_inj whole (by omega)

theorem collapseFrom_whole {word : List Char} (whole : ∀ c ∈ word, isBlank c = false)
    (after : Bool) : collapseFrom after word = word := by
  induction word generalizing after with
  | nil => rfl
  | cons c word ih =>
    rw [List.forall_mem_cons] at whole
    simp [collapseFrom, whole.1, ih whole.2]

theorem blankAfter_of_forall {blank : Bool} {cs : List Char} (alike : ∀ c ∈ cs, isBlank c = blank) :
    blankAfter blank cs = blank := by
  induction cs with
  | nil => rfl
  | cons c cs ih =>
    rw [List.forall_mem_cons] at alike
    rw [blankAfter_cons, alike.1, ih alike.2]

theorem blankAfter_word {word : List Char} (filled : word ≠ [])
    (whole : ∀ c ∈ word, isBlank c = false) (after : Bool) : blankAfter after word = false := by
  obtain ⟨c, cs, rfl⟩ := List.exists_cons_of_ne_nil filled
  rw [List.forall_mem_cons] at whole
  rw [blankAfter_cons, whole.1, blankAfter_of_forall whole.2]

theorem collapseFrom_gap {gap : List Char} (separates : ∀ c ∈ gap, isBlank c = true) :
    collapseFrom true gap = [] := by
  induction gap with
  | nil => rfl
  | cons c gap ih =>
    rw [List.forall_mem_cons] at separates
    simp [collapseFrom, separates.1, ih separates.2]

theorem isBlank_of_mem_head? {cs : List Char} (whole : collapseFrom true cs = cs) :
    ∀ c ∈ cs.head?, isBlank c = false := by
  intro c first
  obtain ⟨rest, rfl⟩ := List.head?_eq_some_iff.mp first
  by_contra blank
  have short := length_collapseFrom_le true rest
  rw [collapseFrom, if_pos (by simpa using blank), if_pos rfl] at whole
  rw [whole, List.length_cons] at short
  omega

theorem dropHead_of_collapseFrom_eq {after : Bool} {run : List Char}
    (whole : collapseFrom after run = run) : dropHead after run = run := by
  unfold dropHead
  split
  · cases isBlank_of_mem_head? whole ' ' rfl
  · rfl

/-- In a text that is collapsed only the space at its head may follow another one. -/
theorem dropHead_eq {run : List Char} (collapsed : collapse run = run) (after : Bool) :
    dropHead after run = collapseFrom after run := by
  cases after with
  | false => exact collapsed.symm
  | true =>
    cases run with
    | nil => rfl
    | cons c rest =>
      cases blank : isBlank c with
      | true =>
        have space : c = ' ' := eq_space_of_mem_collapseFrom (collapsed ▸ List.mem_cons_self) blank
        subst space
        have tail : collapseFrom true rest = rest := by
          simpa [collapse, collapseFrom] using collapsed
        simp [dropHead, collapseFrom, tail]
      | false =>
        have tail : collapseFrom false rest = rest := by
          simpa [collapse, collapseFrom, blank] using collapsed
        have other : c ≠ ' ' := by
          rintro rfl
          cases blank
        simp [dropHead, collapseFrom, tail, blank, other]

theorem collapseFrom_word {word : List Char} (filled : word ≠ [])
    (whole : ∀ c ∈ word, isBlank c = false) (after : Bool) (rest : List Char) :
    collapseFrom after (word ++ rest) = word ++ collapseFrom false rest := by
  rw [collapseFrom_append, collapseFrom_whole whole, blankAfter_word filled whole]

theorem collapseFrom_break {rest : List Char} (filled : rest ≠ [])
    (stops : ∀ c ∈ rest.head?, isBlank c = true) :
    collapseFrom false rest = ' ' :: collapseFrom true rest := by
  obtain ⟨c, cs, rfl⟩ := List.exists_cons_of_ne_nil filled
  have blank : isBlank c = true := stops c rfl
  simp [collapseFrom, blank]

theorem not_space_of_whole {word : List Char} (whole : ∀ c ∈ word, isBlank c = false) :
    ∀ c ∈ word, (c == ' ') = false := by
  intro c member
  apply beq_false_of_ne
  rintro rfl
  cases whole _ member

/-- By induction on the words: without the space at its end, the collapsed text is the words with
one space between any two. -/
theorem join_fields (cs : List Char) :
    join [' '] (fields isBlank cs) = dropTail (· == ' ') (collapseFrom true cs) := by
  have separated := separated_fields isBlank cs
  generalize fields isBlank cs = words at separated
  induction separated with
  | gap separates =>
    rw [collapseFrom_gap separates]
    rfl
  | @word gap word rest words separates filled whole stops others ih =>
    rw [collapseFrom_append, collapseFrom_gap separates, blankAfter_of_forall separates,
      List.nil_append, collapseFrom_word filled whole]
    cases words with
    | nil =>
      have drops : dropTail (· == ' ') (collapseFrom false rest) = [] := by
        by_cases ends : rest = []
        · rw [ends]
          rfl
        · rw [collapseFrom_break ends stops, dropTail, ← ih]
          rfl
      have stays : dropTail (· == ' ') (word ++ []) = word :=
        dropTail_append (not_space_of_whole whole) (by simp)
      rw [List.append_nil] at stays
      rw [dropTail_append_of_eq_nil word drops, stays]
      rfl
    | cons next words =>
      have some : next ≠ [] := by
        cases others with
        | word _ filled => exact filled
      have keeps := join_ne_nil ' ' some words
      rw [ih] at keeps
      have goes : rest ≠ [] := by
        rintro rfl
        exact keeps rfl
      rw [collapseFrom_break goes stops, join_cons_cons, ih, ← dropTail_cons_of_ne_nil ' ' keeps,
        dropTail_append_of_ne_nil]
      rw [dropTail_cons_of_ne_nil ' ' keeps]
      exact List.cons_ne_nil _ _

/-- Words with one space between any two are collapsed. -/
theorem collapseFrom_join {words : List (List Char)}
    (whole : ∀ word ∈ words, word ≠ [] ∧ ∀ c ∈ word, isBlank c = false) :
    collapseFrom true (join [' '] words) = join [' '] words := by
  induction words with
  | nil => rfl
  | cons word words ih =>
    obtain ⟨⟨filled, plain⟩, others⟩ := List.forall_mem_cons.mp whole
    cases words with
    | nil => exact collapseFrom_whole plain true
    | cons next words =>
      rw [join_cons_cons, collapseFrom_word filled plain, collapseFrom, if_pos isBlank_space,
        if_neg Bool.false_ne_true, ih others]

theorem dropTail_join {words : List (List Char)}
    (whole : ∀ word ∈ words, word ≠ [] ∧ ∀ c ∈ word, isBlank c = false) :
    dropTail (· == ' ') (join [' '] words) = join [' '] words := by
  have spaced := join_fields (join [' '] words)
  rw [fields_join isBlank_space whole, collapseFrom_join whole] at spaced
  exact spaced.symm

end TextItem

end SvgPage
