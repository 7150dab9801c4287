import SvgPage.Page.Conversion
import SvgPage.Proofs.Page.Uses

/-!
# Documents that share a page

Several documents are converted one after another into the resources of one page. Each name in the
operators of a document leads to what the document uses there, from then on and for good. A document
leaves nothing behind that its own operators do not name, and nothing at all if it fails.
-/

namespace SvgPage

open Resources (Request)

def Resources.entries (r : Resources) : List (ResourceName × Request) :=
  r.states.entries.map (fun e => (.state e.1, .state e.2)) ++
    r.images.entries.map (fun e => (.image e.1, .image e.2)) ++
    r.fonts.entries.map (fun e => (.font e.1, .font e.2)) ++
    r.shadings.entries.map (fun e => (.shading e.1, .shading e.2))

theorem Table.Sound.mem_iff_find? {κ β : Type} {n : Naming κ β} {t : Table κ β} (h : t.Sound n)
    (name : String) (b : β) : (name, b) ∈ t.entries ↔ t.find? name = some b := by
  refine ⟨h.find?_of_mem, fun found => ?_⟩
  obtain ⟨before, after, split, -⟩ := List.lookup_eq_some_iff.mp found
  simp [split]

theorem Resources.Sound.mem_entries_iff {r : Resources} (h : r.Sound) (e : ResourceName × Request) :
    e ∈ r.entries ↔ r.Holds e.1 e.2 := by
  simp only [entries, List.mem_append, List.mem_map, Prod.exists, h.states.mem_iff_find?,
    h.images.mem_iff_find?, h.fonts.mem_iff_find?, h.shadings.mem_iff_find?]
  constructor
  · rintro (((⟨name, s, found, rfl⟩ | ⟨name, i, found, rfl⟩) | ⟨name, f, found, rfl⟩) |
      ⟨name, s, found, rfl⟩)
    · exact .state found
    · exact .image found
    · exact .font found
    · exact .shading found
  · obtain ⟨name, q⟩ := e
    intro there
    cases there with
    | state found => exact .inl (.inl (.inl ⟨_, _, found, rfl⟩))
    | image found => exact .inl (.inl (.inr ⟨_, _, found, rfl⟩))
    | font found => exact .inl (.inr ⟨_, _, found, rfl⟩)
    | shading found => exact .inr ⟨_, _, found, rfl⟩

theorem Document.compile_eq_serveAll (d : Document) (o : Options Float) (r : Resources) :
    (resourceNames (d.compile o r).1, (d.compile o r).2) = Resources.serveAll d.root.uses r := by
  rw [← d.root.compile_eq_serveAll r]
  unfold Document.compile
  cases o.placement d.viewBox d.size with
  | none => rfl
  | some m =>
    change (resourceNames (.push :: .concat m :: (d.root.compile r).1 ++ [.pop]),
      (d.root.compile r).2) = _
    simp [Operator.resource?]

variable {σ : Type}

structure Job (σ : Type) where
  embedder : Embedder σ
  options : Options Float
  text : List Char

/-- The conversion of one document, from the state that the documents before it have left. -/
structure Conversion (σ : Type) where
  job : Job σ
  before : Press σ Resources

namespace Conversion

variable (c : Conversion σ)

def document : Except Problem Document :=
  (Document.read c.job.embedder c.job.options .empty c.job.text c.before.state).result

def result : Except Problem (List Operator) :=
  (convert c.job.embedder c.job.options c.job.text c.before).1

def after : Press σ Resources := (convert c.job.embedder c.job.options c.job.text c.before).2

/-- A conversion fails and leaves the resources alone, or makes the requests of its document. -/
theorem result_cases :
    (∃ problem, c.result = .error problem ∧ c.after.resources = c.before.resources) ∨
      ∃ d ops, c.document = .ok d ∧ c.result = .ok ops ∧
        resourceNames ops = (Resources.serveAll d.root.uses c.before.resources).1 ∧
        c.after.resources = (Resources.serveAll d.root.uses c.before.resources).2 := by
  cases read : c.document with
  | error problem =>
    have converted := convert_of_error (p := c.before) read
    exact .inl ⟨problem, congrArg Prod.fst converted, congrArg (·.2.resources) converted⟩
  | ok d =>
    have converted := convert_of_ok (p := c.before) read
    have served := d.compile_eq_serveAll c.job.options c.before.resources
    refine .inr ⟨d, _, rfl, congrArg Prod.fst converted, congrArg Prod.fst served, ?_⟩
    exact (congrArg (·.2.resources) converted).trans (congrArg Prod.snd served)

end Conversion

/-- The conversions of some documents, each in the state that the one before has left. -/
def conversions : List (Job σ) → Press σ Resources → List (Conversion σ)
  | [], _ => []
  | j :: js, p => ⟨j, p⟩ :: conversions js (Conversion.mk j p).after

/-- The state that the conversions of some documents leave. -/
def finish (jobs : List (Job σ)) (p : Press σ Resources) : Press σ Resources :=
  jobs.foldl (fun p j => (Conversion.mk j p).after) p

/-- What a conversion leaves to the page, whose resources are final when all documents are done. -/
structure Conversion.Closed (c : Conversion σ) (final : Resources) : Prop where
  /-- A document that fails leaves the resources as they were. -/
  failed : ∀ problem, c.result = .error problem → c.after.resources = c.before.resources
  /-- Names lead to what the document uses where they stand, at once and still in the end. -/
  named : ∀ ops, c.result = .ok ops → ∃ d, c.document = .ok d ∧
    List.Forall₂ (fun name q => c.after.resources.key? name = some q.key ∧
      final.find? name = c.after.resources.find? name) (resourceNames ops) d.root.uses
  /-- What has been added is named. -/
  used : ∀ ops, c.result = .ok ops → ∀ e ∈ c.after.resources.entries,
    e ∈ c.before.resources.entries ∨ e.1 ∈ resourceNames ops

namespace Conversion

variable {c : Conversion σ}

theorem sound_after (h : c.before.resources.Sound) : c.after.resources.Sound := by
  rcases c.result_cases with ⟨_, -, same⟩ | ⟨d, ops, -, -, -, after⟩
  · rwa [same]
  · rw [after]
    exact h.serveAll _

theorem within_after (c : Conversion σ) : c.before.resources.Within c.after.resources := by
  rcases c.result_cases with ⟨_, -, same⟩ | ⟨d, ops, -, -, -, after⟩
  · rw [same]
    exact .refl _
  · rw [after]
    exact .serveAll _ _

theorem closed {final : Resources} (h : c.before.resources.Sound)
    (later : c.after.resources.Within final) : c.Closed final := by
  rcases c.result_cases with ⟨problem, result, same⟩ | ⟨d, ops, document, result, named, after⟩
  · refine ⟨fun _ _ => same, fun ops ok => ?_, fun ops ok => ?_⟩ <;> simp [result] at ok
  refine ⟨fun problem error => by simp [result] at error, ?_, ?_⟩
  · rintro _ ok
    cases result.symm.trans ok
    refine ⟨d, document, ?_⟩
    rw [named]
    refine (h.key?_serveAll d.root.uses).imp fun name q found => ?_
    rw [← after] at found
    obtain ⟨q', there, same⟩ := Resources.key?_eq_some_iff.mp found
    refine ⟨found, ?_⟩
    rw [Resources.find?_eq_some_iff.mpr there, Resources.find?_eq_some_iff.mpr (later.holds there)]
  · rintro _ ok e there
    cases result.symm.trans ok
    rw [(sound_after h).mem_entries_iff, after] at there
    rw [h.mem_entries_iff, named]
    exact there.of_serveAll

end Conversion

theorem within_finish (jobs : List (Job σ)) (p : Press σ Resources) :
    p.resources.Within (finish jobs p).resources := by
  induction jobs generalizing p with
  | nil => exact .refl _
  | cons j js ih => exact (Conversion.within_after ⟨j, p⟩).trans (ih _)

theorem sound_of_mem_conversions {jobs : List (Job σ)} {p : Press σ Resources}
    (h : p.resources.Sound) {c : Conversion σ} (member : c ∈ conversions jobs p) :
    c.before.resources.Sound ∧ c.after.resources.Within (finish jobs p).resources := by
  induction jobs generalizing p with
  | nil => cases member
  | cons j js ih =>
    rcases List.mem_cons.mp member with rfl | member
    · exact ⟨h, within_finish js _⟩
    · exact ih (Conversion.sound_after h) member

/-- After any requests to an empty page, any documents may follow one another: each names what it
uses and uses what it adds, as seen when all of them are done. -/
theorem conversions_closed (requests : List Request) (jobs : List (Job σ)) (s : σ) :
    ∀ c ∈ conversions jobs ⟨s, Resources.after requests⟩,
      c.Closed (finish jobs ⟨s, Resources.after requests⟩).resources := by
  intro c member
  obtain ⟨before, later⟩ := sound_of_mem_conversions (Resources.sound_after requests) member
  exact Conversion.closed before later

/-- A document converted with the first choices, which brings nothing to embed. -/
def Job.plain (text : String) : Job Unit :=
  ⟨⟨fun _ _ s => (none, s), fun _ _ s => (none, s)⟩, .initial, text.toList⟩

/-- A blended text; a document that fails; the blended text again, and one that is blended in
another way. -/
def blendedJobs : List (Job Unit) :=
  [.plain "<svg><text mix-blend-mode=\"screen\">a</text></svg>", .plain "<svg><shade/></svg>",
    .plain ("<svg><text mix-blend-mode=\"screen\">b</text>" ++
      "<text mix-blend-mode=\"darken\">c</text></svg>")]

/-- The third document names entries of the first and adds one of its own. -/
theorem conversions_closed_blended :
    ∃ c ∈ conversions blendedJobs ⟨(), Resources.after []⟩,
      c.result.toOption.map resourceNames =
        some [.state "GS0", .font "F0", .state "GS1", .font "F0"] ∧
      c.Closed (finish blendedJobs ⟨(), Resources.after []⟩).resources := by
  refine ⟨_, .tail _ (.tail _ (.head _)), by decide +kernel, ?_⟩
  exact conversions_closed [] blendedJobs () _ (.tail _ (.tail _ (.head _)))

end SvgPage
