import SvgPage.Proofs.Page.Names

/-!
# Requests in a row

A request for a known key is answered with the name of that key and changes nothing, and a key that
is known stays known. So a row of requests can be made again and is answered as before. A name in
the tables afterwards was there already or is one of the answers.
-/

namespace SvgPage

namespace Table

variable {κ β : Type} [DecidableEq κ] {n : Naming κ β} {t u : Table κ β}

/-- The name by which a key is known. -/
def known? (t : Table κ β) (k : κ) : Option String := t.names.lookup k

theorem allocate_of_known {b : β} {name : String} (h : t.known? (n.key b) = some name) :
    t.allocate n b = (name, t) := by
  rw [known?] at h
  simp [allocate, h]

theorem known?_allocate (n : Naming κ β) (b : β) (t : Table κ β) :
    (t.allocate n b).2.known? (n.key b) = some (t.allocate n b).1 := by
  rcases allocate_cases n b t with ⟨name, found, result⟩ | ⟨-, result⟩
  · rw [result, known?, found]
  · simp [result, known?]

/-- What is added has a key that was not known, so it hides nothing. -/
theorem known?_allocate_of_known (n : Naming κ β) (b : β) {k : κ} {name : String}
    (h : t.known? k = some name) : (t.allocate n b).2.known? k = some name := by
  rcases allocate_cases n b t with ⟨_, -, result⟩ | ⟨absent, result⟩
  · rw [result, h]
  · rw [known?] at h
    have other : (k == n.key b) = false := by
      rw [beq_eq_false_iff_ne]
      rintro rfl
      simp [h] at absent
    simp [result, known?, List.lookup_cons, other, h]

omit [DecidableEq κ] in
theorem find?_of_isPrefix (h : t.entries <+: u.entries) {name : String} {b : β}
    (found : t.find? name = some b) : u.find? name = some b := by
  obtain ⟨added, split⟩ := h
  rw [find?] at found
  rw [find?, ← split, List.lookup_append, found, Option.some_or]

/-- The table afterwards has no entry but those before and one under the name given. -/
theorem find?_of_allocate (n : Naming κ β) {b c : β} {name : String}
    (found : (t.allocate n b).2.find? name = some c) :
    t.find? name = some c ∨ name = (t.allocate n b).1 := by
  rcases allocate_cases n b t with ⟨_, -, result⟩ | ⟨-, result⟩
  · rw [result] at found
    exact .inl found
  · rw [result] at found ⊢
    by_cases new : name = n.label ++ toString t.entries.length
    · exact .inr new
    · have old : (name == n.label ++ toString t.entries.length) = false := by
        rwa [beq_eq_false_iff_ne]
      rw [find?, List.lookup_append] at found
      simp only [List.lookup_cons, old, List.lookup_nil, Option.or_none] at found
      exact .inl found

omit [DecidableEq κ] in
theorem Sound.name_eq_of_key (h : t.Sound n) {name name' : String} {b b' : β}
    (found : t.find? name = some b) (found' : t.find? name' = some b')
    (same : n.key b = n.key b') : name = name' := by
  have mem_of_find? : ∀ {x : String} {c : β}, t.find? x = some c → (x, c) ∈ t.entries := by
    intro x c hc
    obtain ⟨before, after, split, -⟩ := List.lookup_eq_some_iff.mp hc
    simp [split]
  exact congrArg Prod.fst (h.eq_of_key (mem_of_find? found) (mem_of_find? found') same)

end Table

/-- The name of a resource, with the table that it is a name in. -/
inductive ResourceName where
  | state (name : String)
  | image (name : String)
  | font (name : String)
  | shading (name : String)
  deriving DecidableEq

namespace Resources

namespace Request

/-- What a table knows a resource by, with the table. -/
inductive Key where
  | state (k : GraphicsState.Key)
  | image (k : ResourceKey)
  | font (k : ResourceKey)
  | shading (k : Shading.Key)

def key : Request → Key
  | .state s => .state s.key
  | .image i => .image i.identity
  | .font f => .font f.identity
  | .shading s => .shading s.key

/-- A name in the table that answers a request. -/
def named : Request → String → ResourceName
  | .state _, name => .state name
  | .image _, name => .image name
  | .font _, name => .font name
  | .shading _, name => .shading name

end Request

def known? (r : Resources) : Request → Option String
  | .state s => r.states.known? s.key
  | .image i => r.images.known? i.identity
  | .font f => r.fonts.known? f.identity
  | .shading s => r.shadings.known? s.key

def find? (r : Resources) : ResourceName → Option Request
  | .state name => (r.states.find? name).map .state
  | .image name => (r.images.find? name).map .image
  | .font name => (r.fonts.find? name).map .font
  | .shading name => (r.shadings.find? name).map .shading

def key? (r : Resources) (name : ResourceName) : Option Request.Key :=
  (r.find? name).map Request.key

/-- A table has an entry: a name and the resource that it leads to. -/
inductive Holds (r : Resources) : ResourceName → Request → Prop where
  | state {name s} (found : r.states.find? name = some s) : Holds r (.state name) (.state s)
  | image {name i} (found : r.images.find? name = some i) : Holds r (.image name) (.image i)
  | font {name f} (found : r.fonts.find? name = some f) : Holds r (.font name) (.font f)
  | shading {name s} (found : r.shadings.find? name = some s) : Holds r (.shading name) (.shading s)

theorem find?_eq_some_iff {r : Resources} {name : ResourceName} {q : Request} :
    r.find? name = some q ↔ r.Holds name q := by
  constructor
  · intro found
    cases name <;> obtain ⟨x, hx, rfl⟩ := Option.map_eq_some_iff.mp found
    · exact .state hx
    · exact .image hx
    · exact .font hx
    · exact .shading hx
  · intro h
    cases h with
    | state found | image found | font found | shading found => simp [find?, found]

theorem key?_eq_some_iff {r : Resources} {name : ResourceName} {k : Request.Key} :
    r.key? name = some k ↔ ∃ q, r.Holds name q ∧ q.key = k := by
  simp [key?, find?_eq_some_iff]

variable {r r' : Resources} {q : Request}

theorem serve_of_known {name : String} (h : r.known? q = some name) : serve q r = (name, r) := by
  cases q with
  | state s =>
    have answer : r.states.allocate .states s = (name, r.states) := Table.allocate_of_known h
    exact congrArg (fun p => (p.1, { r with states := p.2 })) answer
  | image i =>
    have answer : r.images.allocate .images i = (name, r.images) := Table.allocate_of_known h
    exact congrArg (fun p => (p.1, { r with images := p.2 })) answer
  | font f =>
    have answer : r.fonts.allocate .fonts f = (name, r.fonts) := Table.allocate_of_known h
    exact congrArg (fun p => (p.1, { r with fonts := p.2 })) answer
  | shading s =>
    have answer : r.shadings.allocate .shadings s = (name, r.shadings) :=
      Table.allocate_of_known h
    exact congrArg (fun p => (p.1, { r with shadings := p.2 })) answer

theorem known?_serve (q : Request) (r : Resources) :
    (serve q r).2.known? q = some (serve q r).1 := by
  cases q with
  | state s => exact r.states.known?_allocate .states s
  | image i => exact r.images.known?_allocate .images i
  | font f => exact r.fonts.known?_allocate .fonts f
  | shading s => exact r.shadings.known?_allocate .shadings s

theorem known?_serve_of_known (q' : Request) {name : String} (h : r.known? q = some name) :
    (serve q' r).2.known? q = some name := by
  cases q' with
  | state s =>
    cases q with
    | state _ => exact Table.known?_allocate_of_known .states s h
    | _ => exact h
  | image i =>
    cases q with
    | image _ => exact Table.known?_allocate_of_known .images i h
    | _ => exact h
  | font f =>
    cases q with
    | font _ => exact Table.known?_allocate_of_known .fonts f h
    | _ => exact h
  | shading s =>
    cases q with
    | shading _ => exact Table.known?_allocate_of_known .shadings s h
    | _ => exact h

theorem Within.holds (h : r.Within r') {name : ResourceName} (there : r.Holds name q) :
    r'.Holds name q := by
  cases there with
  | state found => exact .state (Table.find?_of_isPrefix h.states found)
  | image found => exact .image (Table.find?_of_isPrefix h.images found)
  | font found => exact .font (Table.find?_of_isPrefix h.fonts found)
  | shading found => exact .shading (Table.find?_of_isPrefix h.shadings found)

theorem Within.key? (h : r.Within r') {name : ResourceName} {k : Request.Key}
    (found : r.key? name = some k) : r'.key? name = some k := by
  obtain ⟨q, there, same⟩ := key?_eq_some_iff.mp found
  exact key?_eq_some_iff.mpr ⟨q, h.holds there, same⟩

theorem Sound.key?_serve (h : r.Sound) (q : Request) :
    (Resources.serve q r).2.key? (q.named (Resources.serve q r).1) = some q.key := by
  have after := h.serve q
  rw [key?_eq_some_iff]
  cases q with
  | state s =>
    obtain ⟨t, found, same⟩ := h.states.find?_allocate s after.states (List.prefix_refl _)
    exact ⟨.state t, .state found, congrArg Request.Key.state same⟩
  | image i =>
    obtain ⟨j, found, same⟩ := h.images.find?_allocate i after.images (List.prefix_refl _)
    exact ⟨.image j, .image found, congrArg Request.Key.image same⟩
  | font f =>
    obtain ⟨g, found, same⟩ := h.fonts.find?_allocate f after.fonts (List.prefix_refl _)
    exact ⟨.font g, .font found, congrArg Request.Key.font same⟩
  | shading s =>
    obtain ⟨t, found, same⟩ := h.shadings.find?_allocate s after.shadings (List.prefix_refl _)
    exact ⟨.shading t, .shading found, congrArg Request.Key.shading same⟩

theorem Holds.of_serve {q q' : Request} {name : ResourceName}
    (there : (serve q r).2.Holds name q') : r.Holds name q' ∨ name = q.named (serve q r).1 := by
  cases q with
  | state s =>
    cases there with
    | state found =>
      exact (Table.find?_of_allocate .states found).imp .state (congrArg ResourceName.state)
    | image found => exact .inl (.image found)
    | font found => exact .inl (.font found)
    | shading found => exact .inl (.shading found)
  | image i =>
    cases there with
    | image found =>
      exact (Table.find?_of_allocate .images found).imp .image (congrArg ResourceName.image)
    | state found => exact .inl (.state found)
    | font found => exact .inl (.font found)
    | shading found => exact .inl (.shading found)
  | font f =>
    cases there with
    | font found =>
      exact (Table.find?_of_allocate .fonts found).imp .font (congrArg ResourceName.font)
    | state found => exact .inl (.state found)
    | image found => exact .inl (.image found)
    | shading found => exact .inl (.shading found)
  | shading s =>
    cases there with
    | shading found =>
      exact (Table.find?_of_allocate .shadings found).imp .shading (congrArg ResourceName.shading)
    | state found => exact .inl (.state found)
    | image found => exact .inl (.image found)
    | font found => exact .inl (.font found)

theorem Sound.name_eq_of_key? (h : r.Sound) {a b : ResourceName} {k : Request.Key}
    (ha : r.key? a = some k) (hb : r.key? b = some k) : a = b := by
  obtain ⟨q, thereA, rfl⟩ := key?_eq_some_iff.mp ha
  obtain ⟨q', thereB, same⟩ := key?_eq_some_iff.mp hb
  cases thereA with
  | state found =>
    cases thereB with
    | state found' =>
      exact congrArg _ (h.states.name_eq_of_key found found' (Request.Key.state.inj same).symm)
    | _ => cases same
  | image found =>
    cases thereB with
    | image found' =>
      exact congrArg _ (h.images.name_eq_of_key found found' (Request.Key.image.inj same).symm)
    | _ => cases same
  | font found =>
    cases thereB with
    | font found' =>
      exact congrArg _ (h.fonts.name_eq_of_key found found' (Request.Key.font.inj same).symm)
    | _ => cases same
  | shading found =>
    cases thereB with
    | shading found' =>
      exact congrArg _ (h.shadings.name_eq_of_key found found' (Request.Key.shading.inj same).symm)
    | _ => cases same

def serveAll : List Request → StateM Resources (List ResourceName)
  | [] => return []
  | q :: qs => do
    let name ← serve q
    let names ← serveAll qs
    return q.named name :: names

section

variable (q : Request) (qs qs' : List Request) (r : Resources)

@[simp] theorem serveAll_cons : serveAll (q :: qs) r =
    (q.named (serve q r).1 :: (serveAll qs (serve q r).2).1, (serveAll qs (serve q r).2).2) := rfl

theorem serveAll_append : serveAll (qs ++ qs') r =
    ((serveAll qs r).1 ++ (serveAll qs' (serveAll qs r).2).1,
      (serveAll qs' (serveAll qs r).2).2) := by
  induction qs generalizing r with
  | nil => rfl
  | cons q qs ih => simp [ih]

end

theorem Sound.serveAll (h : r.Sound) (qs : List Request) : (serveAll qs r).2.Sound := by
  induction qs generalizing r with
  | nil => exact h
  | cons q qs ih => exact ih (h.serve q)

theorem Within.serveAll (qs : List Request) (r : Resources) : r.Within (serveAll qs r).2 := by
  induction qs generalizing r with
  | nil => exact .refl r
  | cons q qs ih => exact (Within.serve q r).trans (ih _)

theorem known?_serveAll_of_known (qs : List Request) {name : String}
    (h : r.known? q = some name) : (serveAll qs r).2.known? q = some name := by
  induction qs generalizing r with
  | nil => exact h
  | cons q' qs ih => exact ih (known?_serve_of_known q' h)

theorem Sound.key?_serveAll (h : r.Sound) (qs : List Request) :
    List.Forall₂ (fun name q => (Resources.serveAll qs r).2.key? name = some q.key)
      (Resources.serveAll qs r).1 qs := by
  induction qs generalizing r with
  | nil => exact .nil
  | cons q qs ih => exact .cons ((Within.serveAll qs _).key? (h.key?_serve q)) (ih (h.serve q))

theorem Holds.of_serveAll {qs : List Request} {name : ResourceName}
    (there : (serveAll qs r).2.Holds name q) : r.Holds name q ∨ name ∈ (serveAll qs r).1 := by
  induction qs generalizing r with
  | nil => exact .inl there
  | cons q' qs ih =>
    rcases ih there with served | later
    · refine served.of_serve.imp_right fun first => ?_
      rw [first]
      exact List.mem_cons_self
    · exact .inr (List.mem_cons_of_mem _ later)

/-- Requests that have been answered are answered again with the same names, and nothing changes. -/
theorem serveAll_serveAll (qs : List Request) (r : Resources) :
    serveAll qs (serveAll qs r).2 = serveAll qs r := by
  suffices again : ∀ r',
      (∀ q name, (serveAll qs r).2.known? q = some name → r'.known? q = some name) →
        serveAll qs r' = ((serveAll qs r).1, r') from again _ fun _ _ known => known
  induction qs generalizing r with
  | nil => exact fun _ _ => rfl
  | cons q qs ih =>
    intro r' later
    have first := later q _ (known?_serveAll_of_known qs (known?_serve q r))
    rw [serveAll_cons, serve_of_known first, ih (serve q r).2 r' later, serveAll_cons]

end Resources

end SvgPage
