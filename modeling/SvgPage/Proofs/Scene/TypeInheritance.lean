import SvgPage.Proofs.Scene.Position
import SvgPage.Proofs.Scene.Resolution

/-!
# Inherited type

Family, weight and style of a text are each that of the nearest element around it that sets one. The
size is made along the way from the outermost element inwards, where a multiple counts against the
size so far. Nothing else is looked at, so what stands beside a text does not matter to its type.
-/

namespace SvgPage

open Xml

/-- What a value of `font-size` states: a multiple of the size around it, or a length. -/
inductive FontMeasure where
  | multiple (factor : Float)
  | length (size : Float)

namespace FontMeasure

def read? (cs : List Char) : Option FontMeasure :=
  let cs := Text.trim cs
  match Text.before? ['e', 'm'] cs with
  | some body => (number? body).map multiple
  | none =>
    match percent? cs with
    | some body => (number? body).map fun v => multiple (v / 100)
    | none => (Length.read? cs).map length

def onto (around : Float) : FontMeasure → Float
  | multiple factor => factor * around
  | length size => size

end FontMeasure

theorem readFontSize?_eq_some_iff {cs : List Char} {around size : Float} :
    readFontSize? cs around = some size ↔
      ∃ m, FontMeasure.read? cs = some m ∧ m.onto around = size ∧ 0 ≤ size := by
  have measured : readFontSize? cs around = ((FontMeasure.read? cs).map (·.onto around)).bind
      fun size => if 0 ≤ size then some size else none := by
    unfold readFontSize? FontMeasure.read?
    dsimp only
    generalize Text.trim cs = value
    cases Text.before? ['e', 'm'] value with
    | some body =>
      dsimp only
      cases number? body <;> rfl
    | none =>
      cases percent? value with
      | some body =>
        dsimp only
        cases number? body <;> rfl
      | none =>
        dsimp only
        cases Length.read? value <;> rfl
  rw [measured]
  simp only [Option.bind_map, Option.bind_eq_some_iff, Function.comp_apply,
    Option.ite_none_right_eq_some, Option.some.injEq]
  refine exists_congr fun m => and_congr_right fun _ => ⟨?_, ?_⟩
  · rintro ⟨accepted, rfl⟩
    exact ⟨rfl, accepted⟩
  · rintro ⟨rfl, accepted⟩
    exact ⟨accepted, rfl⟩

namespace Xml.Head

variable (t : ClassTable)

def typeProperties : List String := ["font-family", "font-weight", "font-style", "font-size"]

def SetsType (h : Head) : Prop :=
  ∃ name ∈ typeProperties, (Shelf.get? (h.properties t) name).isSome = true

/-- The value of a property at the nearest of some elements that sets it, the nearest first. -/
def nearest? (name : String) (hs : List Head) : Option String :=
  hs.findSome? fun h => Shelf.get? (h.properties t) name

def measure? (h : Head) : Option FontMeasure :=
  (h.properties t).value? "font-size" fun raw => FontMeasure.read? raw.toList

def sizeOver (h : Head) (around : Float) : Float := (h.measure? t).elim around (·.onto around)

/-- What some elements ask of type, the nearest first: each axis on its own, and a size that the
elements make of an outermost one. -/
def wanted (start : Float) (hs : List Head) : TextAttributes where
  family := nearest? t "font-family" hs
  weight := nearest? t "font-weight" hs
  style := nearest? t "font-style" hs
  size := hs.foldr (sizeOver t) start

/-- No element has a size that is not understood. -/
def Measured (hs : List Head) : Prop :=
  ∀ h ∈ hs, (h.properties t).Passes (Properties.understood "font-size" fun raw =>
    FontMeasure.read? raw.toList)

variable {t} {h : Head} {hs : List Head}

theorem nearest?_cons (name : String) :
    nearest? t name (h :: hs) = (Shelf.get? (h.properties t) name).or (nearest? t name hs) := by
  unfold nearest?
  rw [List.findSome?_cons]
  cases Shelf.get? (h.properties t) name <;> rfl

/-- A size that is accepted is a measure that is understood, laid over the size around it. -/
theorem sized_of_passes {around : Float} (passes : (h.properties t).Passes
    (Properties.understood "font-size" fun raw => readFontSize? raw.toList around)) :
    Measured t [h] ∧ ((h.properties t).value? "font-size" fun raw =>
      readFontSize? raw.toList around).getD around = h.sizeOver t around := by
  have own {raw : String} (set : Shelf.get? (h.properties t) "font-size" = some raw) :
      ∃ m, FontMeasure.read? raw.toList = some m ∧
        readFontSize? raw.toList around = some (m.onto around) := by
    obtain ⟨size, accepted⟩ := Option.isSome_iff_exists.mp (passes raw set)
    obtain ⟨m, understood, rfl, -⟩ := readFontSize?_eq_some_iff.mp accepted
    exact ⟨m, understood, accepted⟩
  constructor
  · refine List.forall_mem_singleton.mpr fun raw set => ?_
    obtain ⟨m, understood, -⟩ := own set
    exact Option.isSome_iff_exists.mpr ⟨m, understood⟩
  · unfold sizeOver measure? Properties.value?
    cases set : Shelf.get? (h.properties t) "font-size" with
    | none => rfl
    | some raw =>
      obtain ⟨m, understood, accepted⟩ := own set
      simp only [Option.bind_some, understood, accepted, Option.getD_some, Option.elim_some]

/-- An element that sets nothing asks for what is asked for around it. -/
theorem wanted_cons_of_not_setsType (plain : ¬h.SetsType t) (start : Float) :
    wanted t start (h :: hs) = wanted t start hs := by
  have unset {name : String} (member : name ∈ typeProperties) :
      Shelf.get? (h.properties t) name = none := by
    by_contra set
    exact plain ⟨name, member, Option.isSome_iff_ne_none.mpr set⟩
  have unmeasured : h.measure? t = none := by
    rw [measure?, Properties.value?, unset (by decide)]
    rfl
  simp only [wanted, nearest?_cons, List.foldr_cons, sizeOver, unmeasured, Option.elim_none]
  rw [unset (by decide), unset (by decide), unset (by decide)]
  rfl

end Xml.Head

/-- A text has the font and the size that its element and those around it ask for. -/
structure Registers.TypesetsText (registers : Registers) (o : Options Float) (site : Site)
    (style : TextStyle Float) : Prop where
  isText : site.head.isOf ElementKind.isText = true
  measured : Head.Measured registers.classes (site.head :: site.around)
  font : registers.fonts.resolve site.head.tag
    (Head.wanted registers.classes o.fontSize (site.head :: site.around)) o.strict = .ok style.font
  size : style.size = (Head.wanted registers.classes o.fontSize (site.head :: site.around)).size

def Registers.Typesets (registers : Registers) (o : Options Float) (site : Site) : Figure → Prop
  | .text style => registers.TypesetsText o site style
  | f => site.head.isOf f.fits = true

/-- The font and the size at an element, if it is a text. -/
def Registers.type? (registers : Registers) (o : Options Float) (site : Site) :
    Option (Font × Float) :=
  if site.head.isOf ElementKind.isText then
    let wanted := Head.wanted registers.classes o.fontSize (site.head :: site.around)
    (registers.fonts.resolve site.head.tag wanted o.strict).toOption.map (·, wanted.size)
  else none

def Figure.type? : Figure → Option (Font × Float)
  | text style => some (style.font, style.size)
  | _ => none

theorem FontTable.resolve_of_resolve {fonts : FontTable} {tag : String} (tag' : String)
    {wanted : TextAttributes} {strict : Bool} {font : Font}
    (h : fonts.resolve tag wanted strict = .ok font) :
    fonts.resolve tag' wanted strict = .ok font := by
  unfold resolve at h ⊢
  split at h
  · exact h
  · split at h
    · exact h
    · split at h
      · cases h
      · next lenient =>
        rw [if_neg lenient]
        exact h

namespace Registers

variable {registers : Registers} {o : Options Float} {site : Site}

theorem Typesets.isText_eq {f : Figure} (h : registers.Typesets o site f) :
    site.head.isOf ElementKind.isText = f.type?.isSome := by
  have untyped (p : ElementKind → Bool) (fits : site.head.isOf p = true)
      (apart : ∀ kind, p kind = true → kind.isText = false) :
      site.head.isOf ElementKind.isText = false := by
    unfold Head.isOf at fits ⊢
    split at fits
    · next kind _ => exact apart kind fits
    · rfl
  cases f with
  | text style => exact h.isText
  | shape s => exact untyped ElementKind.isShape h fun kind => by cases kind <;> decide
  | image i => exact untyped (· == .image) h fun kind => by cases kind <;> decide
  | group paint base box => exact untyped ElementKind.isGroup h fun kind => by cases kind <;> decide

theorem Typesets.type?_eq {f : Figure} (h : registers.Typesets o site f) :
    f.type? = registers.type? o site := by
  have isText := h.isText_eq
  cases f with
  | text style => simp [Figure.type?, type?, isText, h.font, h.size, Except.toOption]
  | shape s | image i | group paint base box =>
    rw [type?, isText]
    rfl

theorem Typesets.exists_text {f : Figure} (h : registers.Typesets o site f)
    (isText : site.head.isOf ElementKind.isText = true) : ∃ style, f = .text style := by
  rw [h.isText_eq] at isText
  cases f with
  | text style => exact ⟨style, rfl⟩
  | shape s | image i | group paint base box => cases isText

theorem map_type?_of_forall₂ {sites : List Site} {fs : List Figure}
    (h : List.Forall₂ (registers.Typesets o) sites fs) :
    fs.map Figure.type? = sites.map (registers.type? o) := by
  induction h with
  | nil => rfl
  | cons first rest ih => rw [List.map_cons, List.map_cons, first.type?_eq, ih]

theorem TypesetsText.eq_of_not_setsType {inner : Site} {style innerStyle : TextStyle Float}
    (outside : registers.TypesetsText o site style)
    (inside : registers.TypesetsText o inner innerStyle)
    (parent : inner.around = site.head :: site.around)
    (plain : ¬inner.head.SetsType registers.classes) :
    innerStyle.font = style.font ∧ innerStyle.size = style.size := by
  have same : Head.wanted registers.classes o.fontSize (inner.head :: inner.around) =
      Head.wanted registers.classes o.fontSize inner.around :=
    Head.wanted_cons_of_not_setsType plain o.fontSize
  have font := inside.font
  have size := inside.size
  rw [same, parent] at font size
  constructor
  · exact Except.ok.inj (font.symm.trans (FontTable.resolve_of_resolve _ outside.font))
  · rw [size, outside.size]

end Registers

/-- What is inherited of type is what the elements around ask for. -/
structure TextAttributes.Follows (t : ClassTable) (start : Float) (around : List Head)
    (inherited : TextAttributes) : Prop where
  measured : Head.Measured t around
  eq_wanted : inherited = Head.wanted t start around

namespace Context

variable {cx : Context}

theorem follows_of_textAttributes {start : Float} {h : Head} {around : List Head}
    {inherited asked : TextAttributes} (inherits : inherited.Follows cx.classes start around)
    (read : textAttributes h.tag (cx.properties h) inherited = .ok asked) :
    asked.Follows cx.classes start (h :: around) := by
  obtain ⟨measured, rfl⟩ := inherits
  unfold textAttributes at read
  obtain ⟨size, sized, read⟩ := exists_of_bind_eq_ok read
  cases read
  obtain ⟨passes, rfl⟩ := Properties.read_eq_ok_iff.mp sized
  obtain ⟨own, size⟩ := Head.sized_of_passes (t := cx.classes) passes
  refine ⟨List.forall_mem_cons.mpr ⟨own h (List.mem_singleton_self h), measured⟩, ?_⟩
  have properties : cx.properties h = h.properties cx.classes := rfl
  rw [properties, TextAttributes.descend, size]
  simp only [Head.wanted, Head.nearest?_cons, List.foldr_cons]

/-- What the contents of an element inherit of type is what is asked for around them, and every text
is set in that. -/
theorem upholds_typesets (cx : Context) (o : Options Float) (strict : cx.strict = o.strict) :
    cx.Upholds (fun around _ inherited => inherited.Follows cx.classes o.fontSize around)
      (Registers.Typesets ⟨cx.classes, cx.definitions, cx.fonts⟩ o) where
  shape := by
    intro head around paint inherited kind s _ known isShape _
    exact (Head.isOf_eq known _).trans isShape
  image := by
    intro head around paint inherited handle i _ known _
    exact Head.isOf_eq known _
  text := by
    intro head around paint inherited start inherits isText read
    obtain ⟨-, -, attributes, resolved⟩ := parts_of_textStart read
    have follows := follows_of_textAttributes inherits attributes
    refine ⟨follows, fun style read => ?_⟩
    obtain ⟨x, y, base, -, -, -, rfl⟩ := parts_of_textStyle read
    rw [follows.eq_wanted, strict] at resolved
    exact ⟨isText, follows.measured, resolved, congrArg TextAttributes.size follows.eq_wanted⟩
  group := by
    intro head around inherited start inherits isGroup read
    obtain ⟨-, attributes, -⟩ := parts_of_groupStart read
    refine ⟨follows_of_textAttributes inherits attributes, fun isNested children g read => ?_⟩
    obtain ⟨base, place, -, -, rfl⟩ := parts_of_groupEnd read
    exact ⟨_, rfl, isGroup⟩

end Context

namespace Xml

namespace Node

mutual

/-- A tree without its attributes. -/
def bare : Node → Node
  | element head children => element ⟨head.name, []⟩ (bareAmong children)
  | n => n

def bareAmong : List Node → List Node
  | [] => []
  | n :: ns => bare n :: bareAmong ns

end

theorem bareAmong_eq (ns : List Node) : bareAmong ns = ns.map bare := by
  induction ns with
  | nil => rfl
  | cons n ns ih => rw [bareAmong, ih, List.map_cons]

theorem styleText_bare (n : Node) : n.bare.styleText = n.styleText := by
  cases n with
  | element head children =>
    cases children with
    | nil => rfl
    | cons c cs => cases c <;> rfl
  | text content | comment content | instruction => rfl

mutual

theorem styles_bare (n : Node) : n.bare.styles = n.styles := by
  cases n with
  | element head children =>
    have own : Element.style? ⟨⟨head.name, []⟩, bareAmong children⟩ =
        Element.style? ⟨head, children⟩ := by
      have texts : (bareAmong children).flatMap styleText = children.flatMap styleText := by
        rw [bareAmong_eq, List.flatMap_map]
        simp only [styleText_bare]
      unfold Element.style?
      rw [texts]
      rfl
    rw [styles, styles, bare, filterMap_elements, filterMap_elements, own,
      filterMap_elementsAmong_bare]
  | text content | comment content | instruction => rfl

theorem filterMap_elementsAmong_bare (ns : List Node) :
    (elementsAmong (bareAmong ns)).filterMap Element.style? =
      (elementsAmong ns).filterMap Element.style? := by
  cases ns with
  | nil => rfl
  | cons n ns =>
    have first := styles_bare n
    rw [styles, styles] at first
    rw [bareAmong, elementsAmong, elementsAmong, List.filterMap_append, List.filterMap_append,
      first, filterMap_elementsAmong_bare ns]

end

end Node

/-- An element without one of its contents, with what stands before and after that. -/
structure Level where
  head : Head
  before : List Node
  after : List Node

/-- A place for a subtree in a tree: the levels around it, the nearest first. -/
abbrev Slot := List Level

namespace Slot

/-- The tree with a subtree in the slot. -/
def fill (n : Node) : Slot → Node
  | [] => n
  | level :: slot => fill (.element level.head (level.before ++ n :: level.after)) slot

def heads (slot : Slot) : List Head := slot.map Level.head

/-- The levels all show their contents. -/
def IsOpen (slot : Slot) : Prop := ∀ h ∈ slot.heads, h.isOf ElementKind.isOpen = true

def before : Slot → List Site
  | [] => []
  | level :: slot => before slot ++ ⟨level.head, heads slot⟩ ::
      Node.drawnAmong (level.head :: heads slot) level.before

def after : Slot → List Site
  | [] => []
  | level :: slot => Node.drawnAmong (level.head :: heads slot) level.after ++ after slot

/-- By induction on the levels, a subtree is drawn between the same elements as any other. -/
theorem drawn_fill {slot : Slot} (isOpen : slot.IsOpen) (n : Node) :
    (slot.fill n).drawn [] = slot.before ++ n.drawn slot.heads ++ slot.after := by
  induction slot generalizing n with
  | nil => simp [fill, before, after, heads]
  | cons level slot ih =>
    obtain ⟨own, outer⟩ := List.forall_mem_cons.mp isOpen
    obtain ⟨kind, known, shows⟩ : ∃ kind, level.head.kind = .ok kind ∧ kind.isOpen = true := by
      unfold Head.isOf at own
      split at own
      · next kind known => exact ⟨kind, known, own⟩
      · cases own
    have contents : Node.drawnAmong (level.head :: heads slot)
        (level.before ++ n :: level.after) =
          Node.drawnAmong (level.head :: heads slot) level.before ++
            (n.drawn (level.head :: heads slot) ++
              Node.drawnAmong (level.head :: heads slot) level.after) := by
      rw [Node.drawnAmong_append, Node.drawnAmong_cons]
    rw [fill, ih outer, Node.drawn_open _ known _ shows]
    change before slot ++ _ :: Node.drawnAmong (level.head :: heads slot) _ ++ after slot = _
    rw [contents, before, after]
    simp [heads]

theorem styles_fill_of_bare {n n' : Node} (same : n'.bare = n.bare) (slot : Slot) :
    (slot.fill n').styles = (slot.fill n).styles := by
  induction slot generalizing n n' with
  | nil => rw [fill, fill, ← n'.styles_bare, same, n.styles_bare]
  | cons level slot ih =>
    rw [fill, fill]
    apply ih
    simp only [Node.bare, Node.bareAmong_eq, List.map_append, List.map_cons, same]

end Slot

end Xml

section

variable {σ : Type} {e : Embedder σ} {o : Options Float} {fonts : FontTable} {text : List Char}
  {s : σ} {d : Document}

namespace Rounds

variable (r : Rounds e o fonts text s)

theorem forall₂_typesets :
    List.Forall₂ (r.outcome.registers.Typesets o) (r.root.drawn []) r.document.root.figures :=
  r.forall₂_figures (Context.upholds_typesets r.context o rfl) ⟨nofun, rfl⟩

/-- The types of a document follow from its tree, with the style sheets. -/
theorem map_type?_eq {text' : List Char} (r' : Rounds e o fonts text' s)
    (styles : r'.root.styles = r.root.styles) : r'.document.root.figures.map Figure.type? =
      (r'.root.drawn []).map (r.outcome.registers.type? o) := by
  have desk : r'.desk = r.desk := by
    have styled := r'.styled
    rw [StyleBlock.applyAll_congr e styles, r.styled] at styled
    exact (congrArg Prod.snd styled).symm
  have same : r'.outcome.registers.type? o = r.outcome.registers.type? o := by
    funext site
    simp only [Registers.type?, outcome, desk]
  rw [Registers.map_type?_of_forall₂ r'.forall₂_typesets, same]

end Rounds

/-- The texts of a document that is read are set, each axis on its own, in what the elements around
them ask for. So an element in a text that sets nothing has the type of that text, and whatever
comes in the place of a subtree, with the same style sheets in the document, the rest has the same
types as before. -/
theorem Document.type_inherited (ok : (Document.read e o fonts text s).result = .ok d) :
    let registers := (Document.read e o fonts text s).registers
    ∃ root, Xml.Node.read? text = some root ∧
      List.Forall₂ (registers.Typesets o) (root.drawn []) d.root.figures ∧
      (∀ site style inner innerStyle,
        (site, Figure.text style) ∈ (root.drawn []).zip d.root.figures →
        (inner, Figure.text innerStyle) ∈ (root.drawn []).zip d.root.figures →
        inner.around = site.head :: site.around → ¬inner.head.SetsType registers.classes →
          innerStyle.font = style.font ∧ innerStyle.size = style.size) ∧
      ∀ (slot : Slot) n n' text' d', slot.IsOpen → root = slot.fill n →
        Xml.Node.read? text' = some (slot.fill n') →
        (slot.fill n').styles = (slot.fill n).styles →
        (Document.read e o fonts text' s).result = .ok d' →
          d.root.figures.map Figure.type? =
            (slot.before ++ n.drawn slot.heads ++ slot.after).map (registers.type? o) ∧
          d'.root.figures.map Figure.type? =
            (slot.before ++ n'.drawn slot.heads ++ slot.after).map (registers.type? o) := by
  intro registers
  obtain ⟨r, rfl⟩ := Document.exists_rounds ok
  have outcome : registers = r.outcome.registers := congrArg Outcome.registers r.read_eq
  rw [outcome]
  refine ⟨r.root, read?_of_frame r.framed, r.forall₂_typesets, ?parents, ?siblings⟩
  case parents =>
    intro site style inner innerStyle outside inside parent plain
    have outside := List.forall₂_zip r.forall₂_typesets outside
    have inside := List.forall₂_zip r.forall₂_typesets inside
    exact outside.eq_of_not_setsType inside parent plain
  case siblings =>
    intro slot n n' text' d' isOpen root read styles ok'
    obtain ⟨r', rfl⟩ := Document.exists_rounds ok'
    have root' : r'.root = slot.fill n' :=
      Option.some.inj ((read?_of_frame r'.framed).symm.trans read)
    have types := r.map_type?_eq r rfl
    have types' := r.map_type?_eq r' (by rw [root, root', styles])
    rw [root, Slot.drawn_fill isOpen] at types
    rw [root', Slot.drawn_fill isOpen] at types'
    exact ⟨types, types'⟩

end

/-- A picture with a group, a text in that, a part of that text, and a text beside the group. -/
def nestedText (beside : String) : List Char :=
  ["<svg font-size=\"20\" ", "font-family=\"Inter\">", "<g font-style=\"italic\">",
    "<text font-size=\"50%\">", "a<tspan>b</tspan>", "</text></g>", "<text font-size=\"", beside,
    "\">c</text></svg>"].flatMap String.toList

def pictureHead : Head := plainHead "svg" [("font-size", "20"), ("font-family", "Inter")]

def groupHead : Head := plainHead "g" [("font-style", "italic")]

def textHead (size : String) : Head := plainHead "text" [("font-size", size)]

def spanHead : Head := plainHead "tspan" []

def besideSlot : Slot :=
  [⟨pictureHead, [.element groupHead [.element (textHead "50%") [.text ['a'],
    .element spanHead [.text ['b']]]]], []⟩]

def besideText (size : String) : Xml.Node := .element (textHead size) [.text ['c']]

/-- A family with an upright and an italic face. -/
def interTable : FontTable :=
  (FontTable.empty.insert "Inter" "400" "normal" (.byName "Upright")).insert "Inter" "400" "italic"
    (.byName "Slanted")

def Figure.typeName? (f : Figure) : Option (String × Float) :=
  f.type?.map fun t => (t.1.name, t.2)

theorem read?_nestedText : ∀ size ∈ ["2em", "3px"],
    Xml.Node.read? (nestedText size) = some (besideSlot.fill (besideText size)) := by
  unfold nestedText besideSlot besideText textHead pictureHead groupHead spanHead plainHead
  refine List.forall_mem_cons.mpr ⟨?_, List.forall_mem_singleton.mpr ?_⟩ <;> cbv

theorem drawn_nested (size : String) : (besideSlot.fill (besideText size)).drawn [] =
    [⟨pictureHead, []⟩, ⟨groupHead, [pictureHead]⟩, ⟨textHead "50%", [groupHead, pictureHead]⟩,
      ⟨spanHead, [textHead "50%", groupHead, pictureHead]⟩, ⟨textHead size, [pictureHead]⟩] := by
  cbv

/-- The part of the text has the type of the text, and the type of neither changes with the size of
the text beside the group. -/
theorem type_inherited_nested :
    let read (size : String) :=
      Document.read Workshop.embedder .initial interTable (nestedText size) {}
    ∃ d d' style inner, (read "2em").result = .ok d ∧ (read "3px").result = .ok d' ∧
      d.root.figures[2]? = some (.text style) ∧ d.root.figures[3]? = some (.text inner) ∧
      inner.font = style.font ∧ inner.size = style.size ∧
      (d'.root.figures.map Figure.type?).take 4 = (d.root.figures.map Figure.type?).take 4 ∧
      d.root.figures.filterMap Figure.typeName? =
        [("Slanted", 10), ("Slanted", 10), ("Upright", 40)] := by
  intro read
  have names : (read "2em").result.toOption.map
      (fun d => d.root.figures.filterMap Figure.typeName?) =
        some [("Slanted", 10), ("Slanted", 10), ("Upright", 40)] := by decide +kernel
  have readable : (read "3px").result.toOption.isSome = true := by decide +kernel
  have isOpen : besideSlot.IsOpen := by
    unfold Slot.IsOpen
    decide +kernel
  cases ok : (read "2em").result with
  | error problem =>
    rw [ok] at names
    cases names
  | ok d =>
    rw [ok] at names
    cases ok' : (read "3px").result with
    | error problem =>
      rw [ok'] at readable
      cases readable
    | ok d' =>
      obtain ⟨root, known, typesets, parents, siblings⟩ := Document.type_inherited ok
      cases known.symm.trans (read?_nestedText "2em" (by decide))
      obtain ⟨types, types'⟩ := siblings besideSlot (besideText "2em") (besideText "3px") _ d'
        isOpen rfl (read?_nestedText "3px" (by decide)) (Slot.styles_fill_of_bare rfl _) ok'
      have four : besideSlot.before.length = 4 := by cbv
      rw [drawn_nested] at typesets parents
      generalize figures : d.root.figures = fs at typesets parents
      obtain _ | ⟨-, _ | ⟨-, _ | ⟨text, _ | ⟨span, rest⟩⟩⟩⟩ := typesets
      obtain ⟨style, rfl⟩ := text.exists_text (by decide +kernel)
      obtain ⟨inner, rfl⟩ := span.exists_text (by decide +kernel)
      obtain ⟨font, size⟩ := parents ⟨textHead "50%", [groupHead, pictureHead]⟩ style
        ⟨spanHead, [textHead "50%", groupHead, pictureHead]⟩ inner (by simp) (by simp) rfl (by
          unfold Head.SetsType
          decide +kernel)
      refine ⟨d, d', style, inner, rfl, rfl, ?_, ?_, font, size, ?_, Option.some.inj names⟩
      · rw [figures]
        rfl
      · rw [figures]
        rfl
      · simp only [types, types', ← List.map_take, List.append_assoc, List.take_left' four]

end SvgPage
