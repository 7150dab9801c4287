import Mathlib.Data.List.Nodup
import Std.Data.String.ToNat
import SvgPage.Page.Resources

/-!
# Tables of resources

A table is sound when its entries are numbered in order, no two of them have one key, and the map
of names knows exactly the entries. Requests keep tables sound, and each is answered with the name
of the one entry that has its key.
-/

namespace SvgPage

namespace Table

variable {κ β : Type} {n : Naming κ β} {t u : Table κ β}

/-- What holds of a table after any requests. -/
structure Sound (n : Naming κ β) (t : Table κ β) : Prop where
  numbered : ∀ i (h : i < t.entries.length), t.entries[i].1 = n.label ++ toString i
  distinct : (t.entries.map fun e => n.key e.2).Nodup
  known : t.names.Perm (t.entries.map fun e => (n.key e.2, e.1))

theorem sound_empty (n : Naming κ β) : (empty : Table κ β).Sound n where
  numbered i h := by simp [empty] at h
  distinct := by simp [empty]
  known := by simp [empty]

namespace Sound

theorem name_injective (h : t.Sound n) {i j : Nat} (hi : i < t.entries.length)
    (hj : j < t.entries.length) (same : t.entries[i].1 = t.entries[j].1) : i = j := by
  rw [h.numbered i hi, h.numbered j hj, String.append_right_inj] at same
  exact Nat.repr_injective same

theorem eq_of_key (h : t.Sound n) {d e : String × β} (hd : d ∈ t.entries) (he : e ∈ t.entries)
    (same : n.key d.2 = n.key e.2) : d = e :=
  List.inj_on_of_nodup_map h.distinct hd he same

theorem eq_of_name (h : t.Sound n) {d e : String × β} (hd : d ∈ t.entries) (he : e ∈ t.entries)
    (same : d.1 = e.1) : d = e := by
  obtain ⟨i, hi, rfl⟩ := List.mem_iff_getElem.mp hd
  obtain ⟨j, hj, rfl⟩ := List.mem_iff_getElem.mp he
  simp only [h.name_injective hi hj same]

theorem append (h : t.Sound n) {b : β} (fresh : ∀ e ∈ t.entries, n.key e.2 ≠ n.key b) :
    Sound n ⟨t.entries ++ [(n.label ++ toString t.entries.length, b)],
      (n.key b, n.label ++ toString t.entries.length) :: t.names⟩ where
  numbered i hi := by
    rcases Nat.lt_or_ge i t.entries.length with old | new
    · simpa only [List.getElem_append_left old] using h.numbered i old
    · have last : i = t.entries.length := by
        simp only [List.length_append, List.length_singleton] at hi
        omega
      subst last
      simp
  distinct := by
    rw [List.map_append, List.nodup_append]
    refine ⟨h.distinct, by simp, ?_⟩
    intro k hk l hl same
    obtain ⟨e, he, rfl⟩ := List.mem_map.mp hk
    obtain rfl : l = n.key b := by simpa using hl
    exact fresh e he same
  known := by
    rw [List.map_append]
    exact (h.known.cons _).trans (List.perm_append_singleton _ _).symm

variable [DecidableEq κ]

/-- The map of names gives each key the name of its entry and nothing else. -/
theorem lookup_eq_some_iff (h : t.Sound n) (k : κ) (name : String) :
    t.names.lookup k = some name ↔ ∃ b, (name, b) ∈ t.entries ∧ n.key b = k := by
  have mem_iff : ∀ p, p ∈ t.names ↔ ∃ e ∈ t.entries, (n.key e.2, e.1) = p := fun p => by
    rw [h.known.mem_iff, List.mem_map]
  constructor
  · intro found
    obtain ⟨before, after, split, -⟩ := List.lookup_eq_some_iff.mp found
    obtain ⟨⟨_, b⟩, he, same⟩ := (mem_iff (k, name)).mp (by simp [split])
    cases same
    exact ⟨b, he, rfl⟩
  · rintro ⟨b, hb, rfl⟩
    have member : (n.key b, name) ∈ t.names := (mem_iff _).mpr ⟨_, hb, rfl⟩
    cases found : t.names.lookup (n.key b) with
    | none =>
      rw [List.lookup_eq_none_iff] at found
      simpa using found _ member
    | some other =>
      obtain ⟨before, after, split, -⟩ := List.lookup_eq_some_iff.mp found
      obtain ⟨e, he, same⟩ := (mem_iff (n.key b, other)).mp (by simp [split])
      obtain ⟨sameKey, rfl⟩ := Prod.mk.inj same
      rw [h.eq_of_key he hb sameKey]

theorem lookup_eq_none_iff (h : t.Sound n) (k : κ) :
    t.names.lookup k = none ↔ ∀ e ∈ t.entries, n.key e.2 ≠ k := by
  simp only [Option.eq_none_iff_forall_not_mem, Option.mem_def, h.lookup_eq_some_iff, not_exists,
    not_and]
  exact ⟨fun none e he => none e.1 e.2 he, fun none name b hb => none (name, b) hb⟩

end Sound

variable [DecidableEq κ]

theorem allocate_cases (n : Naming κ β) (b : β) (t : Table κ β) :
    (∃ name, t.names.lookup (n.key b) = some name ∧ t.allocate n b = (name, t)) ∨
      t.names.lookup (n.key b) = none ∧
        t.allocate n b =
          (n.label ++ toString t.entries.length,
            ⟨t.entries ++ [(n.label ++ toString t.entries.length, b)],
              (n.key b, n.label ++ toString t.entries.length) :: t.names⟩) := by
  cases found : t.names.lookup (n.key b) with
  | some name => exact .inl ⟨name, rfl, by simp [allocate, found]⟩
  | none => exact .inr ⟨rfl, by simp [allocate, found]⟩

/-- How a table answers a request for an entry: by a name and the table afterwards. -/
structure Answers (n : Naming κ β) (b : β) (t : Table κ β) (name : String) (t' : Table κ β) :
    Prop where
  unique : ∃! e, e ∈ t'.entries ∧ n.key e.2 = n.key b
  named : ∀ e ∈ t'.entries, n.key e.2 = n.key b → e.1 = name
  /-- The table stays if it has the key; else it has one entry more, at the end. -/
  grown : (∃ e ∈ t.entries, n.key e.2 = n.key b) ∧ t' = t ∨
    (∀ e ∈ t.entries, n.key e.2 ≠ n.key b) ∧ t'.entries = t.entries ++ [(name, b)]

namespace Sound

theorem allocate (h : t.Sound n) (b : β) : (t.allocate n b).2.Sound n := by
  rcases allocate_cases n b t with ⟨name, -, result⟩ | ⟨absent, result⟩
  · rw [result]
    exact h
  · rw [result]
    exact h.append ((h.lookup_eq_none_iff _).mp absent)

theorem exists_answer (h : t.Sound n) (b : β) :
    ∃ c, ((t.allocate n b).1, c) ∈ (t.allocate n b).2.entries ∧ n.key c = n.key b := by
  rcases allocate_cases n b t with ⟨name, found, result⟩ | ⟨-, result⟩
  · rw [result]
    exact (h.lookup_eq_some_iff _ _).mp found
  · rw [result]
    exact ⟨b, by simp, rfl⟩

theorem answers (h : t.Sound n) (b : β) :
    Answers n b t (t.allocate n b).1 (t.allocate n b).2 := by
  obtain ⟨c, hc, sameKey⟩ := h.exists_answer b
  have only : ∀ e ∈ (t.allocate n b).2.entries, n.key e.2 = n.key b →
      e = ((t.allocate n b).1, c) := fun e he key =>
    (h.allocate b).eq_of_key he hc (key.trans sameKey.symm)
  refine ⟨⟨_, ⟨hc, sameKey⟩, fun e he => only e he.1 he.2⟩, ?_, ?_⟩
  · intro e he key
    rw [only e he key]
  rcases allocate_cases n b t with ⟨name, found, result⟩ | ⟨absent, result⟩
  · obtain ⟨d, hd, key⟩ := (h.lookup_eq_some_iff _ _).mp found
    exact .inl ⟨⟨_, hd, key⟩, by rw [result]⟩
  · exact .inr ⟨(h.lookup_eq_none_iff _).mp absent, by rw [result]⟩

end Sound

end Table

/-- Numbers that no table tells apart. -/
def SameMilli (x y : Float) : Prop := milli x = milli y

/-- Graphics states that set the same things: opacities up to thousandths, and one blend mode. -/
structure GraphicsState.Alike (s t : GraphicsState) : Prop where
  fillOpacity : Option.Rel SameMilli s.fillOpacity t.fillOpacity
  strokeOpacity : Option.Rel SameMilli s.strokeOpacity t.strokeOpacity
  blendMode : s.blendMode = t.blendMode

theorem GraphicsState.key_eq_key_iff (s t : GraphicsState) : s.key = t.key ↔ s.Alike t := by
  have map_eq_iff : ∀ a b : Option Float, a.map milli = b.map milli ↔ Option.Rel SameMilli a b := by
    intro a b
    cases a <;> cases b <;> simp [SameMilli]
  simp only [key, Prod.mk.injEq, map_eq_iff]
  exact ⟨fun ⟨fill, stroke, blend⟩ => ⟨fill, stroke, blend⟩,
    fun ⟨fill, stroke, blend⟩ => ⟨fill, stroke, blend⟩⟩

/-- Stops that agree up to thousandths in offset and colour. -/
structure ShadingStop.Alike (s t : ShadingStop Float) : Prop where
  offset : SameMilli s.offset t.offset
  r : SameMilli s.color.r t.color.r
  g : SameMilli s.color.g t.color.g
  b : SameMilli s.color.b t.color.b

/-- Shadings of one kind that agree up to thousandths, stop by stop. -/
structure Shading.Alike (s t : Shading) : Prop where
  kind : s.ramp.isRadial = t.ramp.isRadial
  count : s.stops.length = t.stops.length
  coords : List.Forall₂ SameMilli s.ramp.coords t.ramp.coords
  stops : List.Forall₂ ShadingStop.Alike s.stops t.stops

theorem map_milli_eq_map_iff (xs ys : List Float) :
    xs.map milli = ys.map milli ↔ List.Forall₂ SameMilli xs ys := by
  rw [← List.forall₂_eq_eq_eq, List.forall₂_map_left_iff, List.forall₂_map_right_iff]
  rfl

namespace Shading

def stopNumbers (stops : List (ShadingStop Float)) : List Float :=
  stops.flatMap fun t => [t.offset, t.color.r, t.color.g, t.color.b]

/-- Every stop takes four places of the row, so the row has one reading only. -/
theorem stopNumbers_alike_iff (ss ts : List (ShadingStop Float)) :
    List.Forall₂ SameMilli (stopNumbers ss) (stopNumbers ts) ↔
      List.Forall₂ ShadingStop.Alike ss ts := by
  induction ss generalizing ts with
  | nil => cases ts <;> simp [stopNumbers]
  | cons s ss ih =>
    cases ts with
    | nil => simp [stopNumbers]
    | cons t ts =>
      have tails := ih ts
      simp only [stopNumbers, List.flatMap_cons, List.cons_append, List.nil_append,
        List.forall₂_cons] at tails ⊢
      rw [tails]
      constructor
      · rintro ⟨offset, r, g, b, rest⟩
        exact ⟨⟨offset, r, g, b⟩, rest⟩
      · rintro ⟨⟨offset, r, g, b⟩, rest⟩
        exact ⟨offset, r, g, b, rest⟩

theorem length_coords (r : Ramp Float) : r.coords.length = if r.isRadial then 6 else 4 := by
  cases r <;> rfl

/-- The mark in front fixes how many coordinates follow it, so what comes after them are stops. -/
theorem key_eq_key_iff (s t : Shading) : s.key = t.key ↔ s.Alike t := by
  have mark_eq_iff : ((if s.ramp.isRadial then 2 else 1 : Int64) =
      if t.ramp.isRadial then 2 else 1) ↔ s.ramp.isRadial = t.ramp.isRadial := by
    cases s.ramp.isRadial <;> cases t.ramp.isRadial <;> decide
  have key_eq : ∀ u : Shading, u.key =
      (if u.ramp.isRadial then 2 else 1) :: (u.ramp.coords ++ stopNumbers u.stops).map milli :=
    fun _ => rfl
  rw [key_eq, key_eq, List.cons.injEq, mark_eq_iff, List.map_append, List.map_append]
  constructor
  · rintro ⟨kind, numbers⟩
    have sameLength : (s.ramp.coords.map milli).length = (t.ramp.coords.map milli).length := by
      rw [List.length_map, List.length_map, length_coords, length_coords, kind]
    obtain ⟨coords, stops⟩ := List.append_inj numbers sameLength
    rw [map_milli_eq_map_iff] at coords stops
    have stopwise := (stopNumbers_alike_iff _ _).mp stops
    exact ⟨kind, stopwise.length_eq, coords, stopwise⟩
  · rintro ⟨kind, -, coords, stops⟩
    refine ⟨kind, ?_⟩
    rw [(map_milli_eq_map_iff _ _).mpr coords,
      (map_milli_eq_map_iff _ _).mpr ((stopNumbers_alike_iff _ _).mpr stops)]

end Shading

namespace Resources

inductive Request where
  | state (s : GraphicsState)
  | image (i : ImageHandle)
  | font (f : Font)
  | shading (s : Shading)

def serve : Request → StateM Resources String
  | .state s => Registry.allocateState s
  | .image i => Registry.allocateImage i
  | .font f => Registry.allocateFont f
  | .shading s => Registry.allocateShading s

def after (requests : List Request) : Resources :=
  requests.foldl (fun r q => (serve q r).2) empty

structure Sound (r : Resources) : Prop where
  states : r.states.Sound .states
  images : r.images.Sound .images
  fonts : r.fonts.Sound .fonts
  shadings : r.shadings.Sound .shadings

/-- A request is answered by the table of its kind; the other tables stay as they are. -/
def Served (q : Request) (r : Resources) (name : String) (r' : Resources) : Prop :=
  match q with
  | .state s => Table.Answers .states s r.states name r'.states ∧
      r'.images = r.images ∧ r'.fonts = r.fonts ∧ r'.shadings = r.shadings
  | .image i => Table.Answers .images i r.images name r'.images ∧
      r'.states = r.states ∧ r'.fonts = r.fonts ∧ r'.shadings = r.shadings
  | .font f => Table.Answers .fonts f r.fonts name r'.fonts ∧
      r'.states = r.states ∧ r'.images = r.images ∧ r'.shadings = r.shadings
  | .shading s => Table.Answers .shadings s r.shadings name r'.shadings ∧
      r'.states = r.states ∧ r'.images = r.images ∧ r'.fonts = r.fonts

theorem sound_empty : Sound empty :=
  ⟨Table.sound_empty _, Table.sound_empty _, Table.sound_empty _, Table.sound_empty _⟩

theorem Sound.serve {r : Resources} (h : r.Sound) (q : Request) : (serve q r).2.Sound := by
  cases q with
  | state s => exact { h with states := h.states.allocate s }
  | image i => exact { h with images := h.images.allocate i }
  | font f => exact { h with fonts := h.fonts.allocate f }
  | shading s => exact { h with shadings := h.shadings.allocate s }

theorem Sound.served {r : Resources} (h : r.Sound) (q : Request) :
    Served q r (Resources.serve q r).1 (Resources.serve q r).2 := by
  cases q with
  | state s => exact ⟨h.states.answers s, rfl, rfl, rfl⟩
  | image i => exact ⟨h.images.answers i, rfl, rfl, rfl⟩
  | font f => exact ⟨h.fonts.answers f, rfl, rfl, rfl⟩
  | shading s => exact ⟨h.shadings.answers s, rfl, rfl, rfl⟩

theorem sound_after (requests : List Request) : (after requests).Sound := by
  suffices sound : ∀ r : Resources, r.Sound →
      (requests.foldl (fun r q => (serve q r).2) r).Sound from sound empty sound_empty
  induction requests with
  | nil => exact fun _ h => h
  | cons q requests ih => exact fun r h => ih _ (h.serve q)

/-- After any requests the tables are sound, the next request gets the name of the one entry with
its key, and keys tell apart just what differs by a thousandth or in kind. -/
theorem requests_memoized :
    (∀ requests, (after requests).Sound ∧
      ∀ q, Served q (after requests) (serve q (after requests)).1 (serve q (after requests)).2) ∧
    (∀ s t : GraphicsState, s.key = t.key ↔ s.Alike t) ∧
    (∀ s t : Shading, s.key = t.key ↔ s.Alike t) :=
  ⟨fun requests => ⟨sound_after requests, (sound_after requests).served⟩,
    GraphicsState.key_eq_key_iff, Shading.key_eq_key_iff⟩

end Resources

end SvgPage
