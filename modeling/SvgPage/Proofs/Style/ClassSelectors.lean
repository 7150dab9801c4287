import Mathlib.Algebra.Order.BigOperators.Group.List
import Mathlib.Algebra.Order.Group.Nat
import Mathlib.Data.List.Flatten
import SvgPage.Proofs.Style.Rules
import SvgPage.Proofs.Text.Pieces

/-!
# Classes that stand alone

A rule is meant for a class where the class is one whole selector of its list. The text of the list
is cut at every comma, though, and the arguments of a pseudo-class, the value of an attribute or an
escaped name may hold commas as well. A class between two such commas then counts as if it were a
selector. This is the only difference: all classes that stand alone are found, in source order.
-/

namespace SvgPage

namespace Text

variable {p : Char → Bool}

theorem pieces_ne_nil (p : Char → Bool) (cs : List Char) : pieces p cs ≠ [] := by
  cases cs with
  | nil => exact List.cons_ne_nil _ _
  | cons c cs =>
    rw [pieces]
    by_cases separates : p c = true
    · rw [if_pos separates]
      exact List.cons_ne_nil _ _
    · rw [if_neg separates]
      cases pieces p cs <;> exact List.cons_ne_nil _ _

theorem pieces_append {c : Char} (separates : p c = true) (as bs : List Char) :
    pieces p (as ++ c :: bs) = pieces p as ++ pieces p bs := by
  induction as with
  | nil => simp [pieces, separates]
  | cons a as ih =>
    rw [List.cons_append, pieces, pieces, ih]
    split
    · rfl
    · cases rest : pieces p as with
      | nil => exact absurd rest (pieces_ne_nil p as)
      | cons piece others => rfl

end Text

namespace StyleBlock

open Css

/-- A dot and a name, with white space around them. -/
structure NamesClass (cs : List Char) (name : String) : Prop where
  dotted : Text.trim cs = '.' :: name.toList
  filled : name ≠ ""
  plain : ∀ c ∈ name.toList, isClassChar c = true

theorem className?_eq_some_iff {cs : List Char} {name : String} :
    className? (Text.trim cs) = some name ↔ NamesClass cs name := by
  constructor
  · intro found
    unfold className? at found
    split at found
    · next word dotted =>
      split at found
      · next plain =>
        cases found
        simp only [Bool.and_eq_true, Bool.not_eq_true', List.isEmpty_eq_false_iff,
          List.all_eq_true] at plain
        exact ⟨by rw [dotted, String.toList_ofList], by simpa using plain.1,
          by simpa using plain.2⟩
      · cases found
    · cases found
  · rintro ⟨dotted, filled, plain⟩
    have some : (!name.toList.isEmpty) = true := by simpa using filled
    rw [dotted, className?, some, List.all_eq_true.mpr plain]
    simp

theorem comma_notMem_of_namesClass {cs : List Char} {name : String} (h : NamesClass cs name) :
    ',' ∉ cs := by
  intro inside
  have kept : ',' ∈ Text.trim cs := Text.mem_trimBy_of_mem inside rfl
  rw [h.dotted] at kept
  obtain dot | inside := List.mem_cons.mp kept
  · cases dot
  · exact absurd (h.plain ',' inside) (by decide)

/-- Between commas of the text, a class that is not the text as a whole. -/
def Hides (cs : List Char) (name : String) : Prop :=
  ',' ∈ cs ∧ ∃ piece ∈ Text.pieces (· == ',') cs, NamesClass piece name

/-- The classes that are found although the text has a comma. -/
def hidden (cs : List Char) : List String :=
  if ',' ∈ cs then classNames cs else []

theorem mem_classNames {cs : List Char} {name : String} :
    name ∈ classNames cs ↔ ∃ piece ∈ Text.pieces (· == ',') cs, NamesClass piece name := by
  simp only [classNames, List.mem_filterMap, className?_eq_some_iff]

theorem mem_hidden {cs : List Char} {name : String} : name ∈ hidden cs ↔ Hides cs name := by
  unfold hidden Hides
  split
  · next comma => rw [mem_classNames, and_iff_right comma]
  · next comma => simp [comma]

/-- A text without commas is the only piece of itself; one with commas does not name a class. -/
theorem classNames_eq (cs : List Char) :
    classNames cs = (className? (Text.trim cs)).toList ++ hidden cs := by
  unfold hidden
  split
  · next comma =>
    cases whole : className? (Text.trim cs) with
    | none => rfl
    | some name => exact absurd comma (comma_notMem_of_namesClass (className?_eq_some_iff.mp whole))
  · next comma =>
    have single : Text.pieces (· == ',') cs = [cs] := by
      apply Text.pieces_of_whole
      intro c inside
      simp only [beq_eq_false_iff_ne]
      exact ne_of_mem_of_not_mem inside comma
    rw [classNames, single, List.append_nil, List.filterMap_cons]
    cases className? (Text.trim cs) <;> rfl

theorem classNames_append (as bs : List Char) :
    classNames (as ++ ',' :: bs) = classNames as ++ classNames bs := by
  rw [classNames, Text.pieces_append (p := (· == ',')) rfl, List.filterMap_append]
  rfl

theorem classNames_blank_cons (cs : List Char) : classNames (' ' :: cs) = classNames cs := by
  have blank : Text.isBlank ' ' = true := rfl
  unfold classNames
  rw [Text.pieces, if_neg (by decide)]
  cases pieces : Text.pieces (· == ',') cs with
  | nil => exact absurd pieces (Text.pieces_ne_nil _ cs)
  | cons piece rest =>
    have same : Text.trim (' ' :: piece) = Text.trim piece := by
      rw [Text.trim, Text.trimBy, List.dropWhile_cons_of_pos blank]
      rfl
    rw [List.filterMap_cons, List.filterMap_cons, same]

/-- Between two selectors of a list there is a comma to cut at. -/
theorem classNames_listText : ∀ selectors : List Selector,
    classNames (Selector.listText selectors) =
      selectors.flatMap fun s => classNames (Selector.text s)
  | [] => by decide
  | [s] => by rw [Selector.listText, List.flatMap_singleton]
  | s :: next :: rest => by
    have cut : Selector.listText (s :: next :: rest) =
        Selector.text s ++ ',' :: ' ' :: Selector.listText (next :: rest) := by
      rw [Selector.listText]
      nofun
    rw [cut, classNames_append, classNames_blank_cons, classNames_listText (next :: rest)]
    rfl

def selectionsOf (r : StyleRule) : List (Selector × Properties) :=
  if r.properties.isEmpty then [] else r.selectors.map (·, r.properties)

/-- The selectors of all rules with properties, in source order. -/
def selections (rules : List Rule) : List (Selector × Properties) :=
  (Rule.styleRulesAmong rules).flatMap selectionsOf

/-- The class that a selector is, with properties for it. -/
def loneClass (selection : Selector × Properties) : List (String × Properties) :=
  (className? (Text.trim (Selector.text selection.1))).toList.map (·, selection.2)

/-- The classes inside of a selector that count as if they stood alone. -/
def hiddenClasses (selection : Selector × Properties) : List (String × Properties) :=
  (hidden (Selector.text selection.1)).map (·, selection.2)

theorem classes_eq (r : StyleRule) :
    r.classes = (selectionsOf r).flatMap fun selection =>
      loneClass selection ++ hiddenClasses selection := by
  unfold StyleRule.classes ofStyleRule selectionsOf
  dsimp only
  rw [← StyleRule.properties.eq_def r]
  split
  · rfl
  · rw [classNames_listText, List.map_flatMap, List.flatMap_map]
    simp only [loneClass, hiddenClasses, ← List.map_append, ← classNames_eq]

theorem classes_eq_of_ofRules {rules : List Rule} {block : StyleBlock}
    (read : ofRules rules = .ok block) :
    block.classes = (selections rules).flatMap fun selection =>
      loneClass selection ++ hiddenClasses selection := by
  rw [(gathers_of_ofRules read).classes, selections, List.flatMap_assoc]
  exact List.flatMap_congr fun r _ => classes_eq r

theorem mem_loneClass {selection : Selector × Properties} {name : String} {ps : Properties} :
    (name, ps) ∈ loneClass selection ↔
      NamesClass (Selector.text selection.1) name ∧ selection.2 = ps := by
  simp only [loneClass, List.mem_map, Option.mem_toList, className?_eq_some_iff, Prod.mk.injEq]
  exact ⟨fun ⟨_, named, same, props⟩ => ⟨same ▸ named, props⟩,
    fun ⟨named, props⟩ => ⟨name, named, rfl, props⟩⟩

theorem mem_hiddenClasses {selection : Selector × Properties} {name : String} {ps : Properties} :
    (name, ps) ∈ hiddenClasses selection ↔
      Hides (Selector.text selection.1) name ∧ selection.2 = ps := by
  simp only [hiddenClasses, List.mem_map, mem_hidden, Prod.mk.injEq]
  exact ⟨fun ⟨_, inside, same, props⟩ => ⟨same ▸ inside, props⟩,
    fun ⟨inside, props⟩ => ⟨name, inside, rfl, props⟩⟩

theorem hiddenClasses_eq_nil_iff {selection : Selector × Properties} :
    hiddenClasses selection = [] ↔ ∀ name, ¬Hides (Selector.text selection.1) name := by
  rw [hiddenClasses, List.map_eq_nil_iff, List.eq_nil_iff_forall_not_mem]
  exact forall_congr' fun name => not_congr mem_hidden

/-- Nothing is added anywhere if the whole is as long as without it. -/
theorem flatMap_append_eq_iff {α β : Type} {f g : α → List β} {as : List α} :
    (as.flatMap fun a => f a ++ g a) = as.flatMap f ↔ ∀ a ∈ as, g a = [] := by
  constructor
  · intro same a inside
    have lengths := congrArg List.length same
    simp only [List.length_flatMap, List.length_append, List.sum_map_add] at lengths
    have none : (as.map fun a => (g a).length).sum = 0 := by omega
    exact List.eq_nil_of_length_eq_zero
      (List.sum_eq_zero_iff.mp none _ (List.mem_map_of_mem inside))
  · intro none
    refine List.flatMap_congr fun a inside => ?_
    rw [none a inside, List.append_nil]

/-- Every class that stands alone gets the properties of its rule, in source order. A class that
does not stand alone gets them just where the text of a selector hides it between commas. -/
theorem classes_eq_lone_iff {rules : List Rule} {block : StyleBlock}
    (read : ofRules rules = .ok block) :
    let lone := (selections rules).flatMap loneClass
    lone.Sublist block.classes ∧
      (block.classes = lone ↔ ∀ s ps, (s, ps) ∈ selections rules →
        ∀ name, ¬Hides (Selector.text s) name) ∧
      ∀ name ps, (name, ps) ∈ block.classes ↔ ∃ s, (s, ps) ∈ selections rules ∧
        (NamesClass (Selector.text s) name ∨ Hides (Selector.text s) name) := by
  intro lone
  have classes := classes_eq_of_ofRules read
  refine ⟨?_, ?_, fun name ps => ?_⟩
  · rw [classes]
    exact .flatMap_right _ fun selection _ => List.sublist_append_left _ _
  · rw [classes, flatMap_append_eq_iff, Prod.forall]
    simp only [hiddenClasses_eq_nil_iff]
  · rw [classes, List.mem_flatMap]
    simp only [List.mem_append, mem_loneClass, mem_hiddenClasses, ← or_and_right, Prod.exists]
    constructor
    · rintro ⟨s, _, selected, found, rfl⟩
      exact ⟨s, selected, found⟩
    · rintro ⟨s, selected, found⟩
      exact ⟨s, ps, selected, found, rfl⟩

/-- Two classes that stand alone, one for a medium, among selectors that hold a class. -/
def motley : List Char :=
  ["@media print\x7b", "@media screen\x7b", ".ink\x7b", "mix-blend-mode:darken", "\x7d\x7d\x7d",
    "rect:not(.a,.b), ", ".c, ", ".d > .e", "\x7b", "mix-blend-mode:screen", "\x7d"].flatMap
    String.toList

/-- The selectors of the sheet hide no class, so that `ink` and `c` are all that is found. -/
theorem classes_eq_lone_iff_motley :
    ∃ block, read motley = .ok block ∧
      block.classes =
        [("ink", [("mix-blend-mode", "darken")]), ("c", [("mix-blend-mode", "screen")])] ∧
      ∀ s ps, (s, ps) ∈ selections (Rule.list (Text.trim motley)) →
        ∀ name, ¬Hides (Selector.text s) name := by
  have classes : (read motley).toOption.map StyleBlock.classes =
      some [("ink", [("mix-blend-mode", "darken")]), ("c", [("mix-blend-mode", "screen")])] := by
    decide +kernel
  have lone : (selections (Rule.list (Text.trim motley))).flatMap loneClass =
      [("ink", [("mix-blend-mode", "darken")]), ("c", [("mix-blend-mode", "screen")])] := by
    decide +kernel
  cases ok : read motley with
  | error fault =>
    rw [ok] at classes
    cases classes
  | ok block =>
    rw [ok] at classes
    have found := Option.some.inj classes
    exact ⟨block, rfl, found, (classes_eq_lone_iff ok).2.1.mp (found.trans lone.symm)⟩

/-- Of three classes in the arguments of a pseudo-class, the one between the two commas is found,
though the only selector excludes it. -/
theorem not_classes_eq_lone :
    ¬∀ rules block, ofRules rules = .ok block →
      block.classes = (selections rules).flatMap loneClass := by
  intro all
  let rules := Rule.list "rect:not(.a, .b, .c) \x7b mix-blend-mode: darken \x7d".toList
  have classes : (ofRules rules).toOption.map StyleBlock.classes =
      some [("b", [("mix-blend-mode", "darken")])] := by decide +kernel
  have lone : (selections rules).flatMap loneClass = [] := by decide +kernel
  cases ok : ofRules rules with
  | error fault =>
    rw [ok] at classes
    cases classes
  | ok block =>
    rw [ok] at classes
    have found := Option.some.inj classes
    simp [all rules block ok, lone] at found

end StyleBlock

end SvgPage
