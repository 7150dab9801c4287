import SvgPage.Proofs.Scene.Descent
import SvgPage.Proofs.Text.Collapse

/-!
# White space across the parts of a text

A text is tidied in three passes over its parts. Each of them does to the characters of the text,
taken in document order, what it would do to a text in one piece: the first collapses white space,
the second takes the space at the end away, and the third changes nothing. So what is left is the
words of the text with one space between any two, in the elements where they stood. Such a text is
left alone by all three passes.
-/

namespace SvgPage

namespace TextItem

open Text

variable {α : Type}

mutual

def literalsOf : TextItem α → List (List Char)
  | literal run => [run]
  | nested _ items => literals items

def literals : List (TextItem α) → List (List Char)
  | [] => []
  | i :: is => literalsOf i ++ literals is

end

def characters (items : List (TextItem α)) : List Char := (literals items).flatten

mutual

/-- A part without white space; nothing is left of a literal that holds nothing else. -/
def ink : TextItem α → List (TextItem α)
  | literal run =>
    match run.filter fun c => !isBlank c with
    | [] => []
    | cs => [literal cs]
  | nested style items => [nested style (inked items)]

/-- What is seen of a text: its elements, and in each of them its characters that are not white
space. -/
def inked : List (TextItem α) → List (TextItem α)
  | [] => []
  | i :: is => ink i ++ inked is

end

/-- Induction on the parts of a text and on those of each nested text. -/
theorem parts_induction {P : List (TextItem α) → Prop} (nil : P [])
    (literal : ∀ run items, P items → P (.literal run :: items))
    (nested : ∀ style inner items, P inner → P items → P (.nested style inner :: items)) :
    ∀ items, P items
  | [] => nil
  | .literal run :: items => literal run items (parts_induction nil literal nested items)
  | .nested style inner :: items =>
    nested style inner items (parts_induction nil literal nested inner)
      (parts_induction nil literal nested items)

section

variable (run : List Char) (style : TextStyle α) (inner items items' : List (TextItem α))

@[simp]
theorem literals_nil : literals ([] : List (TextItem α)) = [] := rfl

@[simp]
theorem literals_literal : literals (literal run :: items) = run :: literals items := rfl

@[simp]
theorem literals_nested :
    literals (nested style inner :: items) = literals inner ++ literals items := rfl

theorem literals_append : literals (items ++ items') = literals items ++ literals items' := by
  induction items with
  | nil => rfl
  | cons i items ih => simp [literals, ih]

@[simp]
theorem characters_nil : characters ([] : List (TextItem α)) = [] := rfl

@[simp]
theorem characters_literal :
    characters (literal run :: items) = run ++ characters items := rfl

@[simp]
theorem characters_nested :
    characters (nested style inner :: items) = characters inner ++ characters items :=
  List.flatten_append

theorem characters_append :
    characters (items ++ items') = characters items ++ characters items' := by
  rw [characters, literals_append, List.flatten_append]
  rfl

@[simp]
theorem inked_nested :
    inked (nested style inner :: items) = nested style (inked inner) :: inked items := rfl

end

variable {items : List (TextItem α)}

theorem inked_literal_congr {run run' : List Char}
    (same : run'.filter (fun c => !isBlank c) = run.filter fun c => !isBlank c)
    {rest : List (TextItem α)} (others : inked rest = inked items) :
    inked (literal run' :: rest) = inked (literal run :: items) := by
  simp only [inked, ink, same, others]

/-- The first pass collapses the whole text, if each of its literals is collapsed already. -/
theorem characters_dropRepeatedAmong (collapsed : ∀ run ∈ literals items, collapse run = run)
    (after : Bool) :
    characters (dropRepeatedAmong after items).1 = collapseFrom after (characters items) ∧
      (dropRepeatedAmong after items).2 = blankAfter after (characters items) := by
  induction items using parts_induction generalizing after with
  | nil => exact ⟨rfl, rfl⟩
  | literal run items ih =>
    obtain ⟨own, others⟩ := List.forall_mem_cons.mp collapsed
    have flag : endsInSpace after (collapseFrom after run) = blankAfter after run := by
      rw [endsInSpace_eq fun c member blank => eq_space_of_mem_collapseFrom member blank,
        blankAfter_collapseFrom]
    obtain ⟨rest, last⟩ := ih others (blankAfter after run)
    simp [dropRepeatedAmong, dropRepeated, dropHead_eq own, flag, collapseFrom_append,
      blankAfter_append, rest, last]
  | nested style inner items ihInner ih =>
    obtain ⟨own, others⟩ := List.forall_mem_append.mp collapsed
    obtain ⟨first, flag⟩ := ihInner own after
    obtain ⟨rest, last⟩ := ih others (blankAfter after (characters inner))
    simp [dropRepeatedAmong, dropRepeated, collapseFrom_append, blankAfter_append, first, flag,
      rest, last]

theorem inked_dropRepeatedAmong (after : Bool) (items : List (TextItem α)) :
    inked (dropRepeatedAmong after items).1 = inked items := by
  induction items using parts_induction generalizing after with
  | nil => rfl
  | literal run items ih =>
    have own : (dropHead after run).filter (fun c => !isBlank c) =
        run.filter fun c => !isBlank c := by
      unfold dropHead
      split <;> simp
    exact inked_literal_congr own (ih _)
  | nested style inner items ihInner ih =>
    simp [dropRepeatedAmong, dropRepeated, ihInner, ih]

/-- The first pass changes nothing in a text that is collapsed as a whole. -/
theorem dropRepeatedAmong_eq {after : Bool}
    (whole : collapseFrom after (characters items) = characters items) :
    dropRepeatedAmong after items = (items, blankAfter after (characters items)) := by
  induction items using parts_induction generalizing after with
  | nil => rfl
  | literal run items ih =>
    obtain ⟨own, others⟩ := collapseFrom_of_append whole
    have head : dropHead after run = run := dropHead_of_collapseFrom_eq own
    have flag : endsInSpace after run = blankAfter after run :=
      endsInSpace_eq (fun c member blank =>
        eq_space_of_mem_collapseFrom (own.symm ▸ member) blank) after
    simp [dropRepeatedAmong, dropRepeated, head, flag, ih others, blankAfter_append]
  | nested style inner items ihInner ih =>
    rw [characters_nested] at whole
    obtain ⟨own, others⟩ := collapseFrom_of_append whole
    simp [dropRepeatedAmong, dropRepeated, ihInner own, ih others, blankAfter_append]

theorem characters_cons (i : TextItem α) (items : List (TextItem α)) :
    characters (i :: items) = (literalsOf i).flatten ++ characters items :=
  List.flatten_append

theorem trimEndAmong_cons (i : TextItem α) (items : List (TextItem α)) :
    trimEndAmong (i :: items) =
      if (trimEndAmong items).2 then (i :: (trimEndAmong items).1, true)
      else ((trimEnd i).1 :: (trimEndAmong items).1, (trimEnd i).2) := rfl

mutual

theorem characters_trimEnd (i : TextItem α) :
    (literalsOf (trimEnd i).1).flatten = dropTail (· == ' ') (literalsOf i).flatten ∧
      (trimEnd i).2 = !(dropTail (· == ' ') (literalsOf i).flatten).isEmpty := by
  cases i with
  | literal run => simp [trimEnd, literalsOf]
  | nested style items => exact characters_trimEndAmong items

/-- The second pass goes backwards until characters are left, as it does in a text in one piece. -/
theorem characters_trimEndAmong (items : List (TextItem α)) :
    characters (trimEndAmong items).1 = dropTail (· == ' ') (characters items) ∧
      (trimEndAmong items).2 = !(dropTail (· == ' ') (characters items)).isEmpty := by
  cases items with
  | nil => exact ⟨rfl, rfl⟩
  | cons i items =>
    obtain ⟨first, flag⟩ := characters_trimEnd i
    obtain ⟨rest, found⟩ := characters_trimEndAmong items
    rw [characters_cons, trimEndAmong_cons, found]
    -- The pass goes on to a part just if nothing is left of those after it.
    by_cases drops : dropTail (· == ' ') (characters items) = []
    · rw [dropTail_append_of_eq_nil _ drops]
      simp [characters_cons, first, flag, rest, drops]
    · rw [dropTail_append_of_ne_nil _ drops]
      simp [characters_cons, rest, drops]

end

mutual

theorem ink_trimEnd (i : TextItem α) : ink (trimEnd i).1 = ink i := by
  cases i with
  | literal run =>
    obtain ⟨tail, split, spaces⟩ := exists_tail (· == ' ') run
    have blank : tail.filter (fun c => !isBlank c) = [] := by
      apply List.filter_eq_nil_iff.mpr
      intro c member
      rw [eq_of_beq (spaces c member), isBlank_space]
      exact Bool.false_ne_true
    have same : run.filter (fun c => !isBlank c) =
        (dropTail (· == ' ') run).filter fun c => !isBlank c := by
      conv_lhs => rw [split, List.filter_append, blank, List.append_nil]
    simp only [trimEnd, ink, same]
  | nested style items => exact congrArg ([nested style ·]) (inked_trimEndAmong items)

theorem inked_trimEndAmong (items : List (TextItem α)) :
    inked (trimEndAmong items).1 = inked items := by
  cases items with
  | nil => rfl
  | cons i items =>
    have first := ink_trimEnd i
    have rest := inked_trimEndAmong items
    rw [trimEndAmong_cons]
    split <;> simp [inked, first, rest]

end

mutual

theorem trimEnd_eq (i : TextItem α)
    (whole : dropTail (· == ' ') (literalsOf i).flatten = (literalsOf i).flatten) :
    (trimEnd i).1 = i := by
  cases i with
  | literal run =>
    rw [literalsOf, List.flatten_singleton] at whole
    exact congrArg literal whole
  | nested style items => exact congrArg (nested style) (trimEndAmong_eq items whole)

/-- The second pass changes nothing in a text that has no space at its end. -/
theorem trimEndAmong_eq (items : List (TextItem α))
    (whole : dropTail (· == ' ') (characters items) = characters items) :
    (trimEndAmong items).1 = items := by
  cases items with
  | nil => rfl
  | cons i items =>
    rw [characters_cons] at whole
    have others := dropTail_of_append whole
    rw [trimEndAmong_cons, (characters_trimEndAmong items).2, others, trimEndAmong_eq items others]
    split
    · rfl
    · next none =>
      have ends : characters items = [] := by simpa using none
      rw [ends, List.append_nil] at whole
      exact congrArg (· :: items) (trimEnd_eq i whole)

end

theorem literals_dropEmptyAmong (items : List (TextItem α)) :
    literals (dropEmptyAmong items) = (literals items).filter fun run => !run.isEmpty := by
  induction items using parts_induction with
  | nil => rfl
  | literal run items ih =>
    cases run <;> simp [dropEmptyAmong, isEmptyLiteral, dropEmpty, ih]
  | nested style inner items ihInner ih =>
    simp [dropEmptyAmong, isEmptyLiteral, dropEmpty, ihInner, ih]

theorem characters_dropEmptyAmong (items : List (TextItem α)) :
    characters (dropEmptyAmong items) = characters items := by
  rw [characters, literals_dropEmptyAmong]
  exact List.flatten_filter_not_isEmpty

theorem inked_dropEmptyAmong (items : List (TextItem α)) :
    inked (dropEmptyAmong items) = inked items := by
  induction items using parts_induction with
  | nil => rfl
  | literal run items ih =>
    cases run <;> simp [dropEmptyAmong, isEmptyLiteral, dropEmpty, inked, ink, ih]
  | nested style inner items ihInner ih =>
    simp [dropEmptyAmong, isEmptyLiteral, dropEmpty, ihInner, ih]

theorem dropEmptyAmong_eq (filled : ∀ run ∈ literals items, run ≠ []) :
    dropEmptyAmong items = items := by
  induction items using parts_induction with
  | nil => rfl
  | literal run items ih =>
    obtain ⟨own, others⟩ := List.forall_mem_cons.mp filled
    simp [dropEmptyAmong, isEmptyLiteral, dropEmpty, own, ih others]
  | nested style inner items ihInner ih =>
    obtain ⟨own, others⟩ := List.forall_mem_append.mp filled
    simp [dropEmptyAmong, isEmptyLiteral, dropEmpty, ihInner own, ih others]

theorem inked_tidy (items : List (TextItem α)) : inked (tidy items) = inked items := by
  rw [tidy, inked_dropEmptyAmong, inked_trimEndAmong, inked_dropRepeatedAmong]

theorem filled_of_mem_tidy {run : List Char} (member : run ∈ literals (tidy items)) :
    run ≠ [] := by
  rw [tidy, literals_dropEmptyAmong, List.mem_filter] at member
  rintro rfl
  cases member.2

theorem characters_tidy (collapsed : ∀ run ∈ literals items, collapse run = run) :
    characters (tidy items) = join [' '] (fields isBlank (characters items)) := by
  rw [tidy, characters_dropEmptyAmong, (characters_trimEndAmong _).1,
    (characters_dropRepeatedAmong collapsed true).1, join_fields]

/-- A text is left alone if no space in it follows another one or stands at an end, and none of its
literals is empty. -/
theorem tidy_eq (single : collapseFrom true (characters items) = characters items)
    (trimmed : dropTail (· == ' ') (characters items) = characters items)
    (filled : ∀ run ∈ literals items, run ≠ []) : tidy items = items := by
  rw [tidy, dropRepeatedAmong_eq single, trimEndAmong_eq items trimmed, dropEmptyAmong_eq filled]

/-- What a text comes to when its white space is put right. -/
structure Tidied (before after : List (TextItem α)) : Prop where
  words : characters after = join [' '] (fields isBlank (characters before))
  head : ∀ c ∈ (characters after).head?, isBlank c = false
  last : ∀ c ∈ (characters after).getLast?, isBlank c = false
  filled : ∀ run ∈ literals after, run ≠ []
  ink : inked after = inked before
  settled : tidy after = after

theorem tidied_tidy (collapsed : ∀ run ∈ literals items, collapse run = run) :
    Tidied items (tidy items) := by
  have words := characters_tidy collapsed
  have whole : ∀ word ∈ fields isBlank (characters items),
      word ≠ [] ∧ ∀ c ∈ word, isBlank c = false := fun word => whole_of_mem_fields
  have single := collapseFrom_join whole
  have trimmed := dropTail_join whole
  rw [← words] at single trimmed
  have filled : ∀ run ∈ literals (tidy items), run ≠ [] := fun run => filled_of_mem_tidy
  refine ⟨words, isBlank_of_mem_head? single, fun c last => ?_, filled, inked_tidy items,
    tidy_eq single trimmed filled⟩
  have member : c ∈ characters (tidy items) := List.mem_of_mem_getLast? last
  have space := eq_false_of_mem_getLast? trimmed c last
  by_contra blank
  rw [← single] at member
  cases eq_space_of_mem_collapseFrom member (by simpa using blank)
  cases space

end TextItem

namespace Xml.Node

mutual

/-- The characters of a node in a text, other than those in remarks. -/
def writing : Node → List Char
  | .text content => content
  | .element head children => if head.isOf ElementKind.isText then writingAmong children else []
  | _ => []

def writingAmong : List Node → List Char
  | [] => []
  | n :: ns => writing n ++ writingAmong ns

end

end Xml.Node

namespace Context

open Xml Text TextItem

variable {cx : Context}

mutual

theorem literals_of_textItem {tag : String} {start : TextStart} {n : Xml.Node}
    {item : Option (TextItem Float)} (read : cx.textItem tag start n = .ok item) :
    (∀ run ∈ literals item.toList, collapse run = run) ∧ ∀ after,
      collapseFrom after (characters item.toList) = collapseFrom after n.writing := by
  cases n with
  | text content =>
    unfold Context.textItem at read
    cases read
    -- A literal is collapsed on its own, as if no white space stood before it.
    have again (after) : collapseFrom after (collapse content) = collapseFrom after content :=
      collapseFrom_collapseFrom (fun h => absurd h Bool.false_ne_true) content
    refine ⟨List.forall_mem_singleton.mpr (again false), fun after => ?_⟩
    rw [Option.toList_some, characters_literal, characters_nil, List.append_nil]
    exact again after
  | element head children =>
    cases readsItem_of_eq_ok read with
    | @span _ _ kind inner items style known spans started contents styled =>
      have isText : kind.isText = true := by rcases spans with rfl | rfl <;> rfl
      have within : (Node.element head children).writing = Node.writingAmong children :=
        if_pos ((Head.isOf_eq known _).trans isText)
      have whole : characters (some (TextItem.nested style items)).toList = characters items := by
        simp
      rw [within, whole]
      obtain ⟨collapsed, same⟩ := literals_of_textItems contents
      exact ⟨by simpa using collapsed, same⟩
    | @remark _ _ kind known remark =>
      have noText : kind.isText = false := by
        revert remark
        cases kind <;> decide
      have without : (Node.element head children).writing = [] :=
        if_neg (by simp [Head.isOf_eq known, noText])
      rw [without]
      exact ⟨by simp, fun after => rfl⟩
    | other noElement => cases noElement
  | comment content | instruction =>
    unfold Context.textItem at read
    cases read
    exact ⟨by simp, fun after => rfl⟩

/-- The parts that are read are collapsed, and differ from what is written in white space only. -/
theorem literals_of_textItems {tag : String} {start : TextStart} {ns : List Xml.Node}
    {items : List (TextItem Float)} (read : cx.textItems tag start ns = .ok items) :
    (∀ run ∈ literals items, collapse run = run) ∧ ∀ after,
      collapseFrom after (characters items) = collapseFrom after (Node.writingAmong ns) := by
  cases ns with
  | nil =>
    unfold Context.textItems at read
    cases read
    exact ⟨by simp, fun after => rfl⟩
  | cons n ns =>
    unfold Context.textItems at read
    obtain ⟨first, one, read⟩ := exists_of_bind_eq_ok read
    obtain ⟨rest, others, read⟩ := exists_of_bind_eq_ok read
    cases read
    obtain ⟨collapsed, same⟩ := literals_of_textItem one
    obtain ⟨collapsed', same'⟩ := literals_of_textItems others
    rw [literals_append]
    refine ⟨List.forall_mem_append.mpr ⟨collapsed, collapsed'⟩, fun after => ?_⟩
    have flag : blankAfter after (characters first.toList) = blankAfter after n.writing := by
      rw [← blankAfter_collapseFrom, same, blankAfter_collapseFrom]
    rw [characters_append, Node.writingAmong, collapseFrom_append, collapseFrom_append, same, flag,
      same']

end

/-- White space in a text of a document is put right: the words that are written are left with one
space between any two, whatever elements they are in. -/
theorem tidied_of_textItems {tag : String} {start : TextStart} {ns : List Xml.Node}
    {items : List (TextItem Float)} (read : cx.textItems tag start ns = .ok items) :
    Tidied items (tidy items) ∧
      characters (tidy items) = join [' '] (fields isBlank (Node.writingAmong ns)) := by
  obtain ⟨collapsed, same⟩ := literals_of_textItems read
  refine ⟨tidied_tidy collapsed, ?_⟩
  rw [characters_tidy collapsed, join_fields, same, ← join_fields]

/-- Words in two spans, the first of which is blank, and a space at the end. -/
def spreadNodes : List Xml.Node :=
  let span (children : List Xml.Node) : Xml.Node := .element ⟨⟨none, "tspan"⟩, []⟩ children
  [.text ['\n', 'G', 'o', '\t', ' '], span [.text [' ', ' ']],
    span [.text [' ', 'o', 'n'], span [], .text [' ']], .comment ['o', 'f', 'f']]

theorem tidied_of_textItems_spread :
    let cx : Context := ⟨true, none, .empty, .empty, .empty⟩
    ∃ items, cx.textItems "text" ⟨[], .initial, .initial 16, .helvetica⟩ spreadNodes = .ok items ∧
      Tidied items (tidy items) ∧ characters (tidy items) = ['G', 'o', ' ', 'o', 'n'] ∧
        literals (tidy items) = [['G', 'o', ' '], ['o', 'n']] := by
  intro cx
  have read : (cx.textItems "text" ⟨[], .initial, .initial 16, .helvetica⟩
      spreadNodes).toOption.map (fun items => literals (tidy items)) =
        some [['G', 'o', ' '], ['o', 'n']] := by decide +kernel
  cases ok : cx.textItems "text" ⟨[], .initial, .initial 16, .helvetica⟩ spreadNodes with
  | error problem =>
    rw [ok] at read
    cases read
  | ok items =>
    rw [ok] at read
    obtain ⟨tidied, spaced⟩ := tidied_of_textItems ok
    exact ⟨items, rfl, tidied, spaced.trans (by decide +kernel), Option.some.inj read⟩

end Context

end SvgPage
