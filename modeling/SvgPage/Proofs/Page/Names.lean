import SvgPage.Proofs.Page.Tables

/-!
# Names last

Tables only grow, so a name given to a request still leads to an entry with its key when the page is
finished. What a computation writes can therefore be read with the resources of any later time.
-/

namespace SvgPage

namespace Table

variable {κ β : Type} {n : Naming κ β} {t u : Table κ β}

def find? (t : Table κ β) (name : String) : Option β := t.entries.lookup name

theorem Sound.find?_of_mem (h : t.Sound n) {name : String} {b : β} (hb : (name, b) ∈ t.entries) :
    t.find? name = some b := by
  cases found : t.find? name with
  | none =>
    rw [find?, List.lookup_eq_none_iff] at found
    simpa using found _ hb
  | some c =>
    obtain ⟨before, after, split, -⟩ := List.lookup_eq_some_iff.mp found
    have hc : (name, c) ∈ t.entries := by simp [split]
    cases h.eq_of_name hb hc rfl
    rfl

variable [DecidableEq κ]

theorem allocate_isPrefix (n : Naming κ β) (b : β) (t : Table κ β) :
    t.entries <+: (t.allocate n b).2.entries := by
  rcases allocate_cases n b t with ⟨name, -, result⟩ | ⟨-, result⟩
  · simp [result]
  · simp [result]

theorem Sound.find?_allocate (h : t.Sound n) (b : β) (hu : u.Sound n)
    (later : (t.allocate n b).2.entries <+: u.entries) :
    ∃ c, u.find? (t.allocate n b).1 = some c ∧ n.key c = n.key b := by
  obtain ⟨c, hc, sameKey⟩ := h.exists_answer b
  exact ⟨c, hu.find?_of_mem (later.subset hc), sameKey⟩

end Table

namespace Resources

/-- All entries of some resources are in others, at the same places. -/
structure Within (r r' : Resources) : Prop where
  states : r.states.entries <+: r'.states.entries
  images : r.images.entries <+: r'.images.entries
  fonts : r.fonts.entries <+: r'.fonts.entries
  shadings : r.shadings.entries <+: r'.shadings.entries

namespace Within

variable {r r' r'' : Resources}

theorem refl (r : Resources) : r.Within r :=
  ⟨List.prefix_refl _, List.prefix_refl _, List.prefix_refl _, List.prefix_refl _⟩

theorem trans (h : r.Within r') (h' : r'.Within r'') : r.Within r'' :=
  ⟨h.states.trans h'.states, h.images.trans h'.images, h.fonts.trans h'.fonts,
    h.shadings.trans h'.shadings⟩

theorem serve (q : Request) (r : Resources) : r.Within (serve q r).2 := by
  cases q with
  | state s => exact { refl r with states := r.states.allocate_isPrefix .states s }
  | image i => exact { refl r with images := r.images.allocate_isPrefix .images i }
  | font f => exact { refl r with fonts := r.fonts.allocate_isPrefix .fonts f }
  | shading s => exact { refl r with shadings := r.shadings.allocate_isPrefix .shadings s }

end Within

end Resources

variable {α β : Type}

/-- A computation only adds to sound resources, and its result has a property that may speak of the
resources of any later time. -/
structure Lasting (P : Resources → α → Prop) (m : StateM Resources α) : Prop where
  sound : ∀ r : Resources, r.Sound → (m r).2.Sound
  grows : ∀ r : Resources, r.Within (m r).2
  holds : ∀ r final : Resources, r.Sound → final.Sound → (m r).2.Within final → P final (m r).1

namespace Lasting

variable {P : Resources → α → Prop} {Q : Resources → β → Prop}

theorem pure {a : α} (h : ∀ final, P final a) : Lasting P (pure a : StateM Resources α) where
  sound _ hr := hr
  grows := .refl
  holds _ final _ _ _ := h final

/-- What the first part is known to give may be used at every later time. -/
theorem bind {m : StateM Resources α} {f : α → StateM Resources β} (hm : Lasting P m)
    (hf : ∀ a, Lasting (fun final b => P final a → Q final b) (f a)) : Lasting Q (m >>= f) where
  sound r hr := (hf _).sound _ (hm.sound r hr)
  grows r := (hm.grows r).trans ((hf _).grows _)
  holds r final hr hfinal later := by
    have middle := hm.sound r hr
    have first := hm.holds r final hr hfinal (((hf _).grows _).trans later)
    exact (hf _).holds _ final middle hfinal later first

theorem mono {P' : Resources → α → Prop} {m : StateM Resources α} (h : Lasting P m)
    (imp : ∀ final a, P final a → P' final a) : Lasting P' m :=
  { h with holds := fun r final hr hfinal later => imp _ _ (h.holds r final hr hfinal later) }

end Lasting

namespace Resources

/-- A name leads to a graphics state that cannot be told from the one asked for. -/
def NamesState (r : Resources) (name : String) (s : GraphicsState) : Prop :=
  ∃ t, r.states.find? name = some t ∧ t.Alike s

def NamesImage (r : Resources) (name : String) (i : ImageHandle) : Prop :=
  ∃ j, r.images.find? name = some j ∧ j.identity = i.identity

def NamesFont (r : Resources) (name : String) (f : Font) : Prop :=
  ∃ g, r.fonts.find? name = some g ∧ g.identity = f.identity

def NamesShading (r : Resources) (name : String) (s : Shading) : Prop :=
  ∃ t, r.shadings.find? name = some t ∧ t.Alike s

theorem lasting_state (s : GraphicsState) :
    Lasting (fun final name => final.NamesState name s)
      (Registry.allocateState s : StateM Resources String) where
  sound _ hr := hr.serve (.state s)
  grows := .serve (.state s)
  holds r final hr hfinal later := by
    obtain ⟨t, found, sameKey⟩ := hr.states.find?_allocate s hfinal.states later.states
    exact ⟨t, found, (GraphicsState.key_eq_key_iff t s).mp sameKey⟩

theorem lasting_image (i : ImageHandle) :
    Lasting (fun final name => final.NamesImage name i)
      (Registry.allocateImage i : StateM Resources String) where
  sound _ hr := hr.serve (.image i)
  grows := .serve (.image i)
  holds _ _ hr hfinal later := hr.images.find?_allocate i hfinal.images later.images

theorem lasting_font (f : Font) :
    Lasting (fun final name => final.NamesFont name f)
      (Registry.allocateFont f : StateM Resources String) where
  sound _ hr := hr.serve (.font f)
  grows := .serve (.font f)
  holds _ _ hr hfinal later := hr.fonts.find?_allocate f hfinal.fonts later.fonts

theorem lasting_shading (s : Shading) :
    Lasting (fun final name => final.NamesShading name s)
      (Registry.allocateShading s : StateM Resources String) where
  sound _ hr := hr.serve (.shading s)
  grows := .serve (.shading s)
  holds r final hr hfinal later := by
    obtain ⟨t, found, sameKey⟩ := hr.shadings.find?_allocate s hfinal.shadings later.shadings
    exact ⟨t, found, (Shading.key_eq_key_iff t s).mp sameKey⟩

end Resources

end SvgPage
