import SvgPage.Proofs.Page.Uses
import SvgPage.Proofs.Page.WellFormed

/-!
# Compilation up to names

What is compiled from a scene depends on the resources of the page in its names only. Operators
without names are those that a page without names would get; names are determined by the keys of
what the scene uses.
-/

namespace SvgPage

open Drawing
open Resources (Request Within)

namespace Operator

/-- An operator with its name left out. -/
def unnamed : Operator → Operator
  | .graphicsState _ => .graphicsState ""
  | .font _ size => .font "" size
  | .drawImage _ => .drawImage ""
  | .paintShading _ => .paintShading ""
  | op => op

def renamed (op : Operator) (name : Option ResourceName) : Operator :=
  match op, name with
  | .graphicsState _, some (.state name) => .graphicsState name
  | .font _ size, some (.font name) => .font name size
  | .drawImage _, some (.image name) => .drawImage name
  | .paintShading _, some (.shading name) => .paintShading name
  | op, _ => op

theorem unnamed_renamed_resource? (op : Operator) : op.unnamed.renamed op.resource? = op := by
  cases op <;> rfl

theorem unnamed_eq_self {op : Operator} (h : op.resource? = none) : op.unnamed = op := by
  cases op <;> first | rfl | cases h

theorem isSome_resource?_unnamed (op : Operator) :
    op.unnamed.resource?.isSome = op.resource?.isSome := by
  cases op <;> rfl

end Operator

theorem map_unnamed_of_no_names {ops : List Operator} (h : resourceNames ops = []) :
    ops.map Operator.unnamed = ops := by
  have each := List.filterMap_eq_nil_iff.mp h
  exact (List.map_congr_left fun op hop => Operator.unnamed_eq_self (each op hop)).trans
    (List.map_id ops)

/-- Operators that agree without names, and whose names are related one by one, are related place
by place. -/
theorem forall₂_of_unnamed {P : ResourceName → ResourceName → Prop} {ops ops' : List Operator}
    (same : ops.map Operator.unnamed = ops'.map Operator.unnamed)
    (names : List.Forall₂ P (resourceNames ops) (resourceNames ops')) :
    List.Forall₂ (fun op op' => op.unnamed = op'.unnamed ∧ Option.Rel P op.resource? op'.resource?)
      ops ops' := by
  induction ops generalizing ops' with
  | nil =>
    cases ops' with
    | nil => exact .nil
    | cons _ _ => simp at same
  | cons op ops ih =>
    cases ops' with
    | nil => simp at same
    | cons op' ops' =>
      obtain ⟨first, rest⟩ := List.cons.inj same
      have shape : op.resource?.isSome = op'.resource?.isSome := by
        rw [← op.isSome_resource?_unnamed, first, op'.isSome_resource?_unnamed]
      rw [resourceNames_cons, resourceNames_cons] at names
      cases name : op.resource? with
      | none =>
        cases name' : op'.resource? with
        | none =>
          rw [name, name'] at names
          exact .cons ⟨first, by rw [name, name']; exact .none⟩ (ih rest names)
        | some _ => simp [name, name'] at shape
      | some a =>
        cases name' : op'.resource? with
        | none => simp [name, name'] at shape
        | some b =>
          rw [name, name'] at names
          obtain ⟨related, names⟩ := List.forall₂_cons.mp names
          exact .cons ⟨first, by rw [name, name']; exact .some related⟩ (ih rest names)

theorem eq_of_unnamed {ops ops' : List Operator}
    (same : ops.map Operator.unnamed = ops'.map Operator.unnamed)
    (names : resourceNames ops = resourceNames ops') : ops = ops' := by
  have related := forall₂_of_unnamed (P := Eq) same (by rw [names, List.forall₂_eq_eq_eq])
  rw [← List.forall₂_eq_eq_eq]
  refine related.imp fun op op' ⟨unnamed, name⟩ => ?_
  have name : op.resource? = op'.resource? := by
    generalize op.resource? = a at name
    generalize op'.resource? = b at name
    cases name with
    | none => rfl
    | some same => rw [same]
  rw [← op.unnamed_renamed_resource?, unnamed, name, op'.unnamed_renamed_resource?]

/-- A page that gives every resource the empty name. -/
structure Nameless where

instance : Registry Nameless where
  allocateState _ := return ""
  allocateImage _ := return ""
  allocateFont _ := return ""
  allocateShading _ := return ""

variable {ρ : Type}

/-- Operators that are those of a page without names, but for their names. -/
def Follows (plain : StateM Nameless (List Operator)) (m : StateM ρ (List Operator)) : Prop :=
  Yields (fun ops => ops.map Operator.unnamed = (plain ⟨⟩).1) m

namespace Follows

variable {plain plain' : StateM Nameless (List Operator)} {m m' : StateM ρ (List Operator)}

theorem pure {ops : List Operator} (h : resourceNames ops = []) :
    Follows (pure ops) (pure ops : StateM ρ (List Operator)) :=
  Yields.pure (map_unnamed_of_no_names h)

theorem map {f : List Operator → List Operator} (hm : Follows plain m)
    (h : ∀ ops, (f ops).map Operator.unnamed = f (ops.map Operator.unnamed)) :
    Follows (plain >>= fun ops => Pure.pure (f ops)) (m >>= fun ops => Pure.pure (f ops)) :=
  Yields.bind hm fun ops hops => .pure (by rw [h, hops]; rfl)

theorem append {f : List Operator → List Operator → List Operator} (hm : Follows plain m)
    (hm' : Follows plain' m') (h : ∀ ops ops', (f ops ops').map Operator.unnamed =
      f (ops.map Operator.unnamed) (ops'.map Operator.unnamed)) :
    Follows (plain >>= fun ops => plain' >>= fun ops' => Pure.pure (f ops ops'))
      (m >>= fun ops => m' >>= fun ops' => Pure.pure (f ops ops')) :=
  Yields.bind hm fun ops hops => Yields.bind hm' fun ops' hops' =>
    .pure (by rw [h, hops, hops']; rfl)

end Follows

variable [Registry ρ]

namespace Drawing

theorem follows_graphicsState (s : GraphicsState) :
    Follows (graphicsState s) (graphicsState s : StateM ρ (List Operator)) := by
  unfold graphicsState
  split
  · exact .pure rfl
  · exact (Yields.any _).bind fun _ _ => .pure rfl

theorem follows_opening (base : Base Float) (s : GraphicsState) :
    Follows (opening base s) (opening base s : StateM ρ (List Operator)) := by
  refine (follows_graphicsState s).map fun state => ?_
  rw [List.map_append, map_unnamed_of_no_names (by simp [Operator.resource?])]

theorem follows_gradientOf (s : Shape Float) :
    Follows (gradientOf s) (gradientOf s : StateM ρ (List Operator)) := by
  unfold gradientOf
  split
  · unfold gradientFill
    split
    · exact .pure rfl
    · refine (Yields.any _).bind fun name _ => .pure ?_
      rw [List.map_append, map_unnamed_of_no_names (by simp [Operator.resource?])]
      rfl
  · exact .pure rfl

theorem follows_shape (s : Shape Float) :
    Follows (shape s) (shape s : StateM ρ (List Operator)) := by
  refine (follows_opening s.base _).append (follows_gradientOf s) fun start gradient => ?_
  simp [map_unnamed_of_no_names (resourceNames_outline s), Operator.unnamed]

theorem follows_image (i : PlacedImage Float) :
    Follows (image i) (image i : StateM ρ (List Operator)) := by
  refine Yields.bind (follows_opening i.base _) fun start hstart => ?_
  refine (Yields.any _).bind fun name _ => .pure ?_
  rw [List.map_append, List.map_append, hstart]
  rfl

theorem unnamed_run (t : TextStyle Float) (name : String) (pen : Point Float)
    (characters : List Char) :
    (run t name pen characters).map Operator.unnamed = run t "" pen characters := by
  have fill : ∀ o : Option (Color Float), (o.map Operator.fillColor).toList.map Operator.unnamed =
      (o.map Operator.fillColor).toList := fun o =>
    map_unnamed_of_no_names (resourceNames_option (fun _ => rfl) o)
  have stroke : ∀ o : Option (Color Float),
      (o.map Operator.strokeColor).toList.map Operator.unnamed =
        (o.map Operator.strokeColor).toList := fun o =>
    map_unnamed_of_no_names (resourceNames_option (fun _ => rfl) o)
  simp only [run, List.map_append, fill, stroke]
  split <;> rfl

/-- A cursor whose name is left out, if it has one. -/
def Cursor.unnamed (c : Cursor) : Cursor := { c with font := c.font.map fun _ => "" }

mutual

theorem follows_textItem (t : TextStyle Float) (item : TextItem Float) (c : Cursor) :
    Yields (fun out => let plain := ((textItem t item c.unnamed : StateM Nameless _) ⟨⟩).1
        out.1.map Operator.unnamed = plain.1 ∧ out.2.unnamed = plain.2)
      (textItem t item c : StateM ρ (List Operator × Cursor)) := by
  cases item with
  | literal characters =>
    unfold textItem
    refine (Yields.any _).bind fun name _ => .pure ?_
    have plain : (fontName t c.unnamed.font : StateM Nameless String) ⟨⟩ = ("", ⟨⟩) := by
      unfold Cursor.unnamed
      cases c.font <;> rfl
    change _ = run t ((fontName t c.unnamed.font : StateM Nameless String) ⟨⟩).1 c.pen characters ∧
      _ = Cursor.mk (advance t c.pen characters)
        (some ((fontName t c.unnamed.font : StateM Nameless String) ⟨⟩).1)
    rw [plain]
    exact ⟨unnamed_run t name c.pen characters, rfl⟩
  | nested inner items =>
    unfold textItem
    refine Yields.bind (follows_opening inner.base (textState inner)) fun start hstart => ?_
    refine (follows_textItems inner items ⟨startPen inner c.pen, none⟩).bind fun body hbody => ?_
    refine .pure ⟨?_, ?_⟩
    · rw [List.map_append, List.map_append, hstart, hbody.1]
      rfl
    · have pen : body.2.unnamed.pen = _ := congrArg Cursor.pen hbody.2
      exact congrArg (fun p => (⟨p, c.unnamed.font⟩ : Cursor)) pen

theorem follows_textItems (t : TextStyle Float) (items : List (TextItem Float)) (c : Cursor) :
    Yields (fun out => let plain := ((textItems t items c.unnamed : StateM Nameless _) ⟨⟩).1
        out.1.map Operator.unnamed = plain.1 ∧ out.2.unnamed = plain.2)
      (textItems t items c : StateM ρ (List Operator × Cursor)) := by
  cases items with
  | nil =>
    unfold textItems
    exact .pure ⟨rfl, rfl⟩
  | cons i is =>
    unfold textItems
    refine (follows_textItem t i c).bind fun first hfirst => ?_
    refine (follows_textItems t is first.2).bind fun rest hrest => .pure ?_
    rw [hfirst.2] at hrest
    refine ⟨?_, hrest.2⟩
    rw [List.map_append, hfirst.1, hrest.1]
    rfl

end

theorem follows_text (t : TextStyle Float) (items : List (TextItem Float)) :
    Follows (text t items) (text t items : StateM ρ (List Operator)) :=
  (follows_textItem t (.nested t items) ⟨⟨0, 0⟩, none⟩).bind fun _ hout =>
    .pure hout.1

end Drawing

namespace Node

mutual

/-- By induction on the scene: operators without names do not depend on the page. -/
theorem follows_compile (n : Node Float) :
    Follows n.compile (n.compile : StateM ρ (List Operator)) := by
  cases n with
  | shape s =>
    unfold compile
    exact Drawing.follows_shape s
  | image i =>
    unfold compile
    exact Drawing.follows_image i
  | text t items =>
    unfold compile
    exact Drawing.follows_text t items
  | group paint base children =>
    unfold compile
    refine (Drawing.follows_opening base _).append (follows_compileAll children) ?_
    simp [Operator.unnamed]

theorem follows_compileAll (ns : List (Node Float)) :
    Follows (compileAll ns) (compileAll ns : StateM ρ (List Operator)) := by
  cases ns with
  | nil =>
    unfold compileAll
    exact .pure rfl
  | cons n ns =>
    unfold compileAll
    exact (follows_compile n).append (follows_compileAll ns) fun _ _ => List.map_append

end

end Node

namespace Operator

/-- Operators that differ at most in a name, where the names lead to the same key. -/
structure Alike (r r' : Resources) (op op' : Operator) : Prop where
  unnamed : op.unnamed = op'.unnamed
  named : Option.Rel (fun a b => ∃ k, r.key? a = some k ∧ r'.key? b = some k)
    op.resource? op'.resource?

end Operator

/-- The name at some place of a list of operators, if the operator there has one. -/
def nameAt? (ops : List Operator) (i : Nat) : Option ResourceName :=
  ops[i]?.bind Operator.resource?

/-- Operators over some resources each, which differ at most in names for the same things. -/
structure SameButNames (page page' : List Operator × Resources) : Prop where
  length : page.1.length = page'.1.length
  alike : List.Forall₂ (Operator.Alike page.2 page'.2) page.1 page'.1
  /-- Places that share a name in one list share a name in the other. -/
  shared : ∀ i j, nameAt? page.1 i = nameAt? page.1 j ↔ nameAt? page'.1 i = nameAt? page'.1 j

namespace SameButNames

variable {r r' : Resources} {ops ops' : List Operator}

theorem named_at (h : List.Forall₂ (Operator.Alike r r') ops ops') (i : Nat) :
    Option.Rel (fun a b => ∃ k, r.key? a = some k ∧ r'.key? b = some k) (nameAt? ops i)
      (nameAt? ops' i) := by
  induction h generalizing i with
  | nil => exact .none
  | cons first _ ih =>
    cases i with
    | zero => exact first.named
    | succ i => exact ih i

theorem shares (sound' : r'.Sound) (h : List.Forall₂ (Operator.Alike r r') ops ops') {i j : Nat}
    (same : nameAt? ops i = nameAt? ops j) : nameAt? ops' i = nameAt? ops' j := by
  have atI := named_at h i
  have atJ := named_at h j
  rw [same] at atI
  generalize nameAt? ops j = a at atI atJ
  generalize nameAt? ops' i = b at atI
  generalize nameAt? ops' j = b' at atJ
  cases atI with
  | none =>
    cases atJ
    rfl
  | some found =>
    cases atJ with
    | some found' =>
      obtain ⟨k, ha, hb⟩ := found
      obtain ⟨k', ha', hb'⟩ := found'
      cases ha.symm.trans ha'
      rw [sound'.name_eq_of_key? hb hb']

end SameButNames

/-- The same requests get names for the same keys on any two pages. -/
theorem Resources.Sound.forall₂_serveAll {r r' : Resources} (h : r.Sound) (h' : r'.Sound)
    (qs : List Request) :
    List.Forall₂ (fun a b => ∃ k, (Resources.serveAll qs r).2.key? a = some k ∧
        (Resources.serveAll qs r').2.key? b = some k)
      (Resources.serveAll qs r).1 (Resources.serveAll qs r').1 := by
  induction qs generalizing r r' with
  | nil => exact .nil
  | cons q qs ih =>
    have given := (Within.serveAll qs _).key? (h.key?_serve q)
    have given' := (Within.serveAll qs _).key? (h'.key?_serve q)
    exact .cons ⟨q.key, given, given'⟩ (ih (h.serve q) (h'.serve q))

namespace Node

variable (n : Node Float)

theorem unnamed_compile (r r' : Resources) :
    (n.compile r).1.map Operator.unnamed = (n.compile r').1.map Operator.unnamed :=
  (n.follows_compile r).trans (n.follows_compile r').symm

theorem sound_compile {r : Resources} (h : r.Sound) : (n.compile r).2.Sound := by
  obtain ⟨-, served⟩ := Prod.ext_iff.mp (n.compile_eq_serveAll r)
  exact served ▸ h.serveAll n.uses

theorem alike_compile {r r' : Resources} (h : r.Sound) (h' : r'.Sound) :
    List.Forall₂ (Operator.Alike (n.compile r).2 (n.compile r').2)
      (n.compile r).1 (n.compile r').1 := by
  have names := h.forall₂_serveAll h' n.uses
  rw [← n.compile_eq_serveAll, ← n.compile_eq_serveAll] at names
  exact (forall₂_of_unnamed (n.unnamed_compile r r') names).imp fun _ _ h => ⟨h.1, h.2⟩

theorem sameButNames_compile {r r' : Resources} (h : r.Sound) (h' : r'.Sound) :
    SameButNames (n.compile r) (n.compile r') where
  length := (n.alike_compile h h').length_eq
  alike := n.alike_compile h h'
  shared _ _ := ⟨SameButNames.shares (n.sound_compile h') (n.alike_compile h h'),
    SameButNames.shares (n.sound_compile h) (n.alike_compile h' h)⟩

/-- The requests are answered as before, and names are all that could differ. -/
theorem compile_compile (r : Resources) : n.compile (n.compile r).2 = n.compile r := by
  have again := Resources.serveAll_serveAll n.uses r
  rw [← n.compile_eq_serveAll r, ← n.compile_eq_serveAll] at again
  obtain ⟨names, resources⟩ := Prod.ext_iff.mp again
  exact Prod.ext (eq_of_unnamed (n.unnamed_compile _ _) names) resources

/-- From any two pages a scene gets the same operators but for names, and names for the same keys.
On the page that it leaves, it gets the same operators again and changes nothing. -/
theorem compile_up_to_names (before before' : List Request) :
    SameButNames (n.compile (Resources.after before)) (n.compile (Resources.after before')) ∧
      n.compile (n.compile (Resources.after before)).2 = n.compile (Resources.after before) :=
  ⟨n.sameButNames_compile (Resources.sound_after before) (Resources.sound_after before'),
    n.compile_compile _⟩

end Node

end SvgPage
