import SvgPage.Style.StyleBlock

/-!
# The rules of a sheet

A sheet is a tree, since rules for a medium hold rules. What a style block takes from it are the
style rules and the font faces in the order in which they are written, however deep they stand.
-/

namespace SvgPage

namespace Css

structure StyleRule where
  selectors : List Selector
  declarations : List Declaration

namespace StyleRule

def properties (r : StyleRule) : Properties :=
  Shelf.ofList (Properties.split (Declaration.listText r.declarations))

def classes (r : StyleRule) : List (String × Properties) :=
  (StyleBlock.ofStyleRule r.selectors r.declarations).classes

end StyleRule

namespace Rule

mutual

def styleRules : Rule → List StyleRule
  | style selectors ds => [⟨selectors, ds⟩]
  | media rules => styleRulesAmong rules
  | fontFace _ => []

def styleRulesAmong : List Rule → List StyleRule
  | [] => []
  | r :: rs => styleRules r ++ styleRulesAmong rs

end

mutual

def faceRules : Rule → List (List Declaration)
  | style _ _ => []
  | media rules => faceRulesAmong rules
  | fontFace ds => [ds]

def faceRulesAmong : List Rule → List (List Declaration)
  | [] => []
  | r :: rs => faceRules r ++ faceRulesAmong rs

end

end Rule

end Css

namespace StyleBlock

open Css

theorem fontFaces_ofStyleRule (selectors : List Selector) (ds : List Declaration) :
    (ofStyleRule selectors ds).fontFaces = [] := by
  unfold ofStyleRule
  dsimp only
  split <;> rfl

/-- A block holds what the rules of a sheet contribute, one after another. -/
structure Gathers (styles : List StyleRule) (faces : List (List Declaration))
    (block : StyleBlock) : Prop where
  classes : block.classes = styles.flatMap StyleRule.classes
  fontFaces : faces.map fontFace = block.fontFaces.map .ok

theorem Gathers.append {styles styles' : List StyleRule} {faces faces' : List (List Declaration)}
    {block block' : StyleBlock} (h : Gathers styles faces block)
    (h' : Gathers styles' faces' block') :
    Gathers (styles ++ styles') (faces ++ faces') (block.append block') where
  classes := by rw [StyleBlock.append, h.classes, h'.classes, List.flatMap_append]
  fontFaces := by
    rw [StyleBlock.append, List.map_append, h.fontFaces, h'.fontFaces, List.map_append]

mutual

theorem gathers_of_ofRule {r : Rule} {block : StyleBlock} (read : ofRule r = .ok block) :
    Gathers r.styleRules r.faceRules block := by
  cases r with
  | style selectors ds =>
    unfold ofRule at read
    cases read
    refine ⟨(List.append_nil _).symm, ?_⟩
    rw [fontFaces_ofStyleRule]
    rfl
  | media rules =>
    unfold ofRule at read
    exact gathers_of_ofRules read
  | fontFace ds =>
    unfold ofRule at read
    cases face : StyleBlock.fontFace ds with
    | error fault => simp [face, Except.map] at read
    | ok face' =>
      rw [face] at read
      cases read
      exact ⟨rfl, by simp [Rule.faceRules, face]⟩

theorem gathers_of_ofRules {rules : List Rule} {block : StyleBlock}
    (read : ofRules rules = .ok block) :
    Gathers (Rule.styleRulesAmong rules) (Rule.faceRulesAmong rules) block := by
  cases rules with
  | nil =>
    unfold ofRules at read
    cases read
    exact ⟨rfl, rfl⟩
  | cons r rs =>
    unfold ofRules at read
    cases first : ofRule r with
    | error fault => simp [first] at read
    | ok block' =>
      cases rest : ofRules rs with
      | error fault => simp [first, rest, Except.map] at read
      | ok block'' =>
        simp only [first, rest, Except.map] at read
        cases read
        exact (gathers_of_ofRule first).append (gathers_of_ofRules rest)

end

end StyleBlock

end SvgPage
