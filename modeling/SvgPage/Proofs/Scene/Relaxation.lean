import SvgPage.Scene.Document

/-!
# Relaxed contexts

A context relaxes another if it knows the same things and is at most as strict. What is read in a
context is then read in the relaxed one with the same result: strictness only makes problems.
-/

namespace SvgPage

open Xml

section

variable {α β σ : Type}

theorem exists_of_bind_eq_ok {x : Except Problem α} {f : α → Except Problem β} {b : β}
    (h : (x >>= f) = .ok b) : ∃ a, x = .ok a ∧ f a = .ok b := by
  cases x with
  | error problem => cases h
  | ok a => exact ⟨a, rfl, h⟩

theorem exists_of_map_eq_ok {x : Except Problem α} {f : α → β} {b : β} (h : x.map f = .ok b) :
    ∃ a, x = .ok a ∧ f a = b := by
  cases x with
  | error problem => cases h
  | ok a => exact ⟨a, rfl, Except.ok.inj h⟩

/-- Where the first gives a result, the second gives the same. -/
def Keeps (x y : Except Problem α) : Prop := ∀ a, x = .ok a → y = .ok a

namespace Keeps

variable {x y : Except Problem α}

theorem refl (x : Except Problem α) : Keeps x x := fun _ h => h

theorem error (problem : Problem) : Keeps (.error problem) x := nofun

theorem bind {f g : α → Except Problem β} (h : Keeps x y) (hf : ∀ a, Keeps (f a) (g a)) :
    Keeps (x >>= f) (y >>= g) := by
  intro b hb
  obtain ⟨a, hx, ha⟩ := exists_of_bind_eq_ok hb
  rw [h a hx]
  exact hf a b ha

theorem map (f : α → β) (h : Keeps x y) : Keeps (x.map f) (y.map f) := by
  have bound := h.bind fun a => refl (.ok (f a))
  cases x <;> cases y <;> exact bound

end Keeps

namespace Reading

variable {m m' : Reading σ α}

theorem bind_eq_of_ok {f : α → Reading σ β} {s s' : σ} {a : α} (h : m s = (.ok a, s')) :
    (m >>= f) s = f a s' := by
  change (ExceptT.bindCont f (m s).1 : StateM σ _) (m s).2 = _
  rw [h]
  rfl

theorem bind_eq_of_error {f : α → Reading σ β} {s s' : σ} {problem : Problem}
    (h : m s = (.error problem, s')) : (m >>= f) s = (.error problem, s') := by
  change (ExceptT.bindCont f (m s).1 : StateM σ _) (m s).2 = _
  rw [h]
  rfl

theorem exists_of_bind_eq_ok {f : α → Reading σ β} {s s'' : σ} {b : β}
    (h : (m >>= f) s = (.ok b, s'')) : ∃ a s', m s = (.ok a, s') ∧ f a s' = (.ok b, s'') := by
  rcases first : m s with ⟨problem | a, s'⟩
  · rw [bind_eq_of_error first] at h
    cases h
  · rw [bind_eq_of_ok first] at h
    exact ⟨a, s', rfl, h⟩

end Reading

/-- Where the first reading gives a result, the second gives the same and leaves the same state. -/
def ReadsAlike (m m' : Reading σ α) : Prop := ∀ s a s', m s = (.ok a, s') → m' s = (.ok a, s')

namespace ReadsAlike

variable {m m' : Reading σ α}

theorem refl (m : Reading σ α) : ReadsAlike m m := fun _ _ _ h => h

theorem settled {x y : Except Problem α} (h : Keeps x y) :
    ReadsAlike (Context.settled x : Reading σ α) (Context.settled y) := by
  intro s a s' hx
  obtain ⟨result, rfl⟩ := Prod.ext_iff.mp hx
  exact Prod.ext (h a result) rfl

theorem bind {f g : α → Reading σ β} (h : ReadsAlike m m') (hf : ∀ a, ReadsAlike (f a) (g a)) :
    ReadsAlike (m >>= f) (m' >>= g) := by
  intro s b s'' hb
  obtain ⟨a, s', first, rest⟩ := Reading.exists_of_bind_eq_ok hb
  rw [Reading.bind_eq_of_ok (h s a s' first)]
  exact hf a s' b s'' rest

end ReadsAlike

end

/-- Definitions that give the same at every id. -/
def Definitions.Agree (ds ds' : Definitions Float) : Prop := ∀ id, ds'.get? id = ds.get? id

namespace Definitions.Agree

variable {ds ds' : Definitions Float} (h : ds.Agree ds')

include h

theorem gradient : ds'.gradient = ds.gradient := by
  funext tag id
  simp only [Definitions.gradient, h id]

theorem clipPath : ds'.clipPath = ds.clipPath := by
  funext tag id
  simp only [Definitions.clipPath, h id]

theorem mask : ds'.mask = ds.mask := by
  funext tag id
  simp only [Definitions.mask, h id]

theorem filter : ds'.filter = ds.filter := by
  funext tag id
  simp only [Definitions.filter, h id]

theorem paintStyle : Context.paintStyle ds' = Context.paintStyle ds := by
  funext tag ps inherited
  simp only [Context.paintStyle, Paint.resolve, h.gradient]

end Definitions.Agree

/-- A context that knows the same as another and is at most as strict. -/
structure Context.Relaxes (cx' cx : Context) : Prop where
  strict : cx'.strict = true → cx.strict = true
  viewport : cx'.viewport = cx.viewport
  classes : cx'.classes = cx.classes
  definitions : cx.definitions.Agree cx'.definitions
  fonts : cx'.fonts = cx.fonts

namespace Context.Relaxes

section

variable {cx cx' : Context} (h : cx'.Relaxes cx)

include h

theorem properties : cx'.properties = cx.properties := by
  funext head
  simp only [Context.properties, h.classes]

theorem length? : cx'.length? = cx.length? := by
  funext axis raw
  simp only [Context.length?, h.viewport]

theorem lengthOr : cx'.lengthOr = cx.lengthOr := by
  funext head name axis otherwise
  simp only [Context.lengthOr, Context.length, h.length?]

theorem nonNegative : cx'.nonNegative = cx.nonNegative := by
  funext head name axis
  simp only [Context.nonNegative, h.length?]

theorem firstPosition : cx'.firstPosition = cx.firstPosition := by
  funext head name axis
  simp only [Context.firstPosition, Context.firstPosition?, h.viewport]

theorem outline : cx'.outline = cx.outline := by
  funext kind head
  simp only [Context.outline, h.lengthOr, h.nonNegative]

theorem stop : cx'.stop = cx.stop := by
  funext head
  simp only [Context.stop, h.properties]

theorem base : cx'.base = cx.base := by
  funext head ps box
  simp only [Context.base, Context.clip, h.definitions.clipPath, h.definitions.mask,
    h.definitions.filter]

theorem shape : cx'.shape = cx.shape := by
  funext kind head inherited
  simp only [Context.shape, h.properties, h.outline, h.definitions.paintStyle, h.base]

theorem placeImage : cx'.placeImage = cx.placeImage := by
  funext head inherited image
  simp only [Context.placeImage, h.properties, h.lengthOr, h.nonNegative, h.base]

theorem textStyle : cx'.textStyle = cx.textStyle := by
  funext head start
  simp only [Context.textStyle, h.firstPosition, h.base]

theorem groupStart : cx'.groupStart = cx.groupStart := by
  funext head inherited
  simp only [Context.groupStart, h.properties, h.definitions.paintStyle]

theorem groupEnd : cx'.groupEnd = cx.groupEnd := by
  funext head isNested paint children
  simp only [Context.groupEnd, Context.nestedPlace, h.properties, h.lengthOr, h.base]

theorem passOver (head : Head) (inside : Option String) :
    Keeps (cx.passOver head inside) (cx'.passOver head inside) := by
  unfold Context.passOver
  intro a ha
  split at ha
  · cases ha
  · next lenient =>
    rw [if_neg fun strict => lenient (h.strict strict), ha]

/-- A font that is found is the same under any policy; the strict one never makes one up. -/
theorem resolve (tag : String) (wanted : TextAttributes) :
    Keeps (cx.fonts.resolve tag wanted cx.strict) (cx'.fonts.resolve tag wanted cx'.strict) := by
  rw [h.fonts]
  unfold FontTable.resolve
  cases wanted.family with
  | none => exact .refl _
  | some list =>
    dsimp only
    cases cx.fonts.search wanted.weight wanted.style (FontTable.familyList list) none with
    | ok font => exact .refl _
    | error miss =>
      by_cases strict : cx.strict = true
      · simp only [strict, if_true]
        exact .error _
      · have lenient : ¬cx'.strict = true := fun strict' => strict (h.strict strict')
        simp only [strict, lenient]
        exact .refl _

theorem textStart (head : Head) (paint : PaintStyle Float) (wanted : TextAttributes) :
    Keeps (cx.textStart head paint wanted) (cx'.textStart head paint wanted) := by
  unfold Context.textStart
  rw [h.properties, h.definitions.paintStyle]
  refine .bind (.refl _) fun paint => .bind (.refl _) fun wanted => ?_
  exact .bind (h.resolve head.tag wanted) fun font => .refl _

theorem stops (tag : String) (least : Option Float) (es : List Element) :
    Keeps (cx.stops tag least es) (cx'.stops tag least es) := by
  induction es generalizing least with
  | nil => exact .refl _
  | cons e es ih =>
    unfold Context.stops
    refine .bind (.refl _) fun kind => ?_
    split
    · rw [h.stop]
      exact .bind (.refl _) fun s => .bind (ih _) fun more => .refl _
    · split
      · exact .bind (h.passOver e.head (some tag)) fun _ => ih least
      · exact .refl _

theorem clipOutline (container : String) (m : Matrix Float) (es : List Element) :
    Keeps (cx.clipOutline container m es) (cx'.clipOutline container m es) := by
  induction es with
  | nil => exact .refl _
  | cons e es ih =>
    unfold Context.clipOutline
    rw [h.outline]
    refine .bind (.refl _) fun kind => ?_
    have more : ∀ first, Keeps _ _ := fun first =>
      .bind ih fun more => .refl (Except.ok (first ++ more))
    split
    · exact .bind (.refl _) fun ops => .bind (.refl _) fun own => more _
    split
    · exact .bind ((h.passOver e.head (some container)).map _) more
    · exact .refl _

theorem gradient (kind : ElementKind) (e : Element) :
    Keeps (cx.gradient kind e) (cx'.gradient kind e) := by
  unfold Context.gradient
  refine .bind (.refl _) fun units => .bind (.refl _) fun transform => ?_
  refine .bind (.refl _) fun spread => .bind (.refl _) fun shape => ?_
  exact .bind (h.stops e.head.tag none e.inner) fun stops => .refl _

theorem clipPath (e : Element) : Keeps (cx.clipPath e) (cx'.clipPath e) := by
  unfold Context.clipPath
  rw [h.properties]
  refine .bind (.refl _) fun units => .bind (.refl _) fun rule => .bind (.refl _) fun own => ?_
  exact .bind (h.clipOutline e.head.tag _ e.inner) fun ops => .refl _

theorem mask (e : Element) : Keeps (cx.mask e) (cx'.mask e) := by
  unfold Context.mask
  refine .bind (.refl _) fun ofRegion => .bind (.refl _) fun ofContent => ?_
  refine .bind (.refl _) fun region => ?_
  exact .bind (h.clipOutline e.head.tag .identity e.inner) fun ops => .refl _

end

variable {cx cx' : Context}

mutual

theorem checkDefs (h : cx'.Relaxes cx) (n : Xml.Node) :
    Keeps (cx.checkDefs n) (cx'.checkDefs n) := by
  cases n with
  | element head children =>
    unfold Context.checkDefs
    refine .bind (.refl _) fun kind => ?_
    split
    · exact h.passOver head (some "defs")
    · split
      · exact checkAllDefs h children
      · exact .refl _
  | text content | comment content | instruction =>
    unfold Context.checkDefs
    exact .refl _

theorem checkAllDefs (h : cx'.Relaxes cx) (ns : List Xml.Node) :
    Keeps (cx.checkAllDefs ns) (cx'.checkAllDefs ns) := by
  cases ns with
  | nil =>
    unfold Context.checkAllDefs
    exact .refl _
  | cons n ns =>
    unfold Context.checkAllDefs
    exact .bind (checkDefs h n) fun _ => checkAllDefs h ns

end

mutual

theorem textItem (h : cx'.Relaxes cx) (tag : String) (start : TextStart) (n : Xml.Node) :
    Keeps (cx.textItem tag start n) (cx'.textItem tag start n) := by
  cases n with
  | element head children =>
    unfold Context.textItem
    rw [h.textStyle]
    refine .bind (.refl _) fun kind => ?_
    split
    · have inside : ∀ _ : Unit, Keeps _ _ := fun _ =>
        .bind (h.textStart head start.paint start.wanted) fun inner =>
          .bind (textItems h head.tag inner children) fun items =>
            .refl (cx.textStyle head inner >>= fun style =>
              pure (some (TextItem.nested style items)))
      split
      · exact .bind (h.passOver head (some tag)) inside
      · exact inside ()
    · split
      · exact .bind (h.passOver head (some tag)) fun _ => .refl _
      · exact .refl _
  | text content | comment content | instruction =>
    unfold Context.textItem
    exact .refl _

theorem textItems (h : cx'.Relaxes cx) (tag : String) (start : TextStart) (ns : List Xml.Node) :
    Keeps (cx.textItems tag start ns) (cx'.textItems tag start ns) := by
  cases ns with
  | nil =>
    unfold Context.textItems
    exact .refl _
  | cons n ns =>
    unfold Context.textItems
    exact .bind (textItem h tag start n) fun first =>
      .bind (textItems h tag start ns) fun _ => .refl _

end

theorem text (h : cx'.Relaxes cx) (head : Head) (children : List Xml.Node)
    (inherited : Inherited) :
    Keeps (cx.text head children inherited) (cx'.text head children inherited) := by
  unfold Context.text
  rw [h.textStyle]
  refine .bind (h.textStart head inherited.paint inherited.text) fun start => ?_
  exact .bind (h.textItems head.tag start children) fun items => .refl _

variable {σ : Type} (e : Embedder σ)

theorem image (h : cx'.Relaxes cx) (head : Head) (inherited : PaintStyle Float) :
    cx'.image e head inherited = cx.image e head inherited := by
  unfold Context.image
  rw [h.placeImage]

mutual

/-- By induction on the tree: what is drawn in a context is drawn the same in a relaxed one. -/
theorem node (h : cx'.Relaxes cx) (inherited : Inherited) (n : Xml.Node) :
    ReadsAlike (cx.node e inherited n) (cx'.node e inherited n) := by
  cases n with
  | element head children =>
    unfold Context.node
    rw [h.shape, h.image e, h.groupStart, h.groupEnd]
    refine .bind (.refl _) fun kind => ?_
    split
    · exact .refl _
    split
    · exact .refl _
    split
    · exact .bind (.settled (h.text head children inherited)) fun t => .refl _
    split
    · refine .bind (.refl _) fun start => ?_
      exact .bind (nodes h start children) fun members => .refl _
    split
    · exact .bind (.settled (h.checkAllDefs children)) fun _ => .refl _
    split
    · exact .refl _
    split
    · exact .bind (.settled (h.passOver head inherited.parent)) fun _ => .refl _
    · exact .refl _
  | text content | comment content | instruction =>
    unfold Context.node
    exact .refl _

theorem nodes (h : cx'.Relaxes cx) (inherited : Inherited) (ns : List Xml.Node) :
    ReadsAlike (cx.nodes e inherited ns) (cx'.nodes e inherited ns) := by
  cases ns with
  | nil =>
    unfold Context.nodes
    exact .refl _
  | cons n ns =>
    unfold Context.nodes
    exact .bind (node h inherited n) fun first => .bind (nodes h inherited ns) fun _ => .refl _

end

theorem scene (h : cx'.Relaxes cx) (fontSize : Float) (root : Xml.Node) :
    ReadsAlike (Document.scene e cx fontSize root) (Document.scene e cx' fontSize root) := by
  unfold Document.scene
  exact .bind (node e h _ root) fun _ => .refl _

end Context.Relaxes

end SvgPage
