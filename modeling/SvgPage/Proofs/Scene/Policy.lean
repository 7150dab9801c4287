import SvgPage.Page.Conversion
import SvgPage.Proofs.Scene.Relaxation
import SvgPage.Proofs.Scene.Rounds

/-!
# Strict and lenient

The strict policy only turns results into problems. What it reads, the lenient policy reads too: the
same document, from the same registered classes, definitions and fonts, with the embedder asked for
the same things in the same order.
-/

namespace SvgPage

open Xml

namespace Context.Relaxes

variable {cx cx' : Context}

theorem add (h : cx'.Relaxes cx) (g : Gathering) (e : Element) :
    Keeps (g.add cx e) (g.add cx' e) := by
  have ofGradient (kind : ElementKind) (tag id : String) :
      Keeps (Gathering.add.ofGradient cx g e kind tag id)
        (Gathering.add.ofGradient cx' g e kind tag id) := by
    unfold Gathering.add.ofGradient
    split
    · exact .refl _
    · exact (h.gradient kind e).map _
  unfold Gathering.add
  split
  · exact ofGradient _ _ _
  · exact ofGradient _ _ _
  · exact .bind (h.clipPath e) fun _ => .refl _
  · exact .bind (h.mask e) fun _ => .refl _
  · exact .refl _
  · exact .refl _

theorem addAll (h : cx'.Relaxes cx) {g : Gathering} {es : List Element}
    (ok : (g.addAll cx es).1 = .ok ()) : g.addAll cx' es = g.addAll cx es := by
  induction es generalizing g with
  | nil => rfl
  | cons e es ih =>
    unfold Gathering.addAll at ok ⊢
    cases first : g.add cx e with
    | error problem =>
      rw [first] at ok
      cases ok
    | ok next =>
      rw [first] at ok
      rw [h.add g e next first]
      exact ih ok

theorem gatherDefinitions (h : cx'.Relaxes cx) (start : cx'.definitions = cx.definitions)
    {root : Xml.Node} (ok : (SvgPage.gatherDefinitions cx root).1 = .ok ()) :
    SvgPage.gatherDefinitions cx' root = SvgPage.gatherDefinitions cx root := by
  unfold SvgPage.gatherDefinitions at ok ⊢
  have taken : (Gathering.addAll cx ⟨cx.definitions, []⟩ root.elements).1 = .ok () := by
    split at ok
    · cases ok
    · next taken => rw [taken]
  rw [start, h.addAll taken]

end Context.Relaxes

/-- Nothing but the policy is different, and the lenient one asks for less. -/
theorem Context.Relaxes.lenient {viewport : Option (Size Float)} {classes : ClassTable}
    {definitions : Definitions Float} {fonts : FontTable} (strict : Bool) :
    Relaxes ⟨false, viewport, classes, definitions, fonts⟩
      ⟨strict, viewport, classes, definitions, fonts⟩ :=
  ⟨nofun, rfl, rfl, fun _ => rfl, rfl⟩

section

variable {σ : Type} {e : Embedder σ} {o : Options Float} {fonts : FontTable} {text : List Char}
  {s : σ}

/-- Each round of a strict reading is one of the lenient reading. -/
def Rounds.lenient (r : Rounds e { o with strict := true } fonts text s) :
    Rounds e { o with strict := false } fonts text s where
  root := r.root
  viewBox := r.viewBox
  size := r.size
  desk := r.desk
  definitions := r.definitions
  node := r.node
  state := r.state
  framed := r.framed
  styled := r.styled
  gathered := by
    rw [← r.gathered]
    exact (Context.Relaxes.lenient true).gatherDefinitions rfl (congrArg Prod.fst r.gathered)
  drawn := (Context.Relaxes.lenient true).scene e o.fontSize r.root _ _ _ r.drawn

theorem Document.read_lenient {d : Document}
    (h : (read e { o with strict := true } fonts text s).result = .ok d) :
    read e { o with strict := false } fonts text s =
      read e { o with strict := true } fonts text s := by
  obtain ⟨r, -⟩ := exists_rounds h
  rw [r.read_eq, r.lenient.read_eq]
  rfl

end

/-- What the strict policy reads or converts, the lenient policy reads or converts with all the same
results. The state of the embedder is arbitrary: it may be the list of all that was asked of it, as
in `Embedder.logged`. -/
theorem strict_restricts_lenient {σ ρ : Type} [Registry ρ] (e : Embedder σ) (o : Options Float)
    (text : List Char) :
    (∀ fonts s d, (Document.read e { o with strict := true } fonts text s).result = .ok d →
      Document.read e { o with strict := false } fonts text s =
        Document.read e { o with strict := true } fonts text s ∧
      ∀ resources : ρ, d.compile { o with strict := false } resources =
        d.compile { o with strict := true } resources) ∧
    ∀ (p : Press σ ρ) ops, (convert e { o with strict := true } text p).1 = .ok ops →
      convert e { o with strict := false } text p = convert e { o with strict := true } text p := by
  refine ⟨fun fonts s d ok => ⟨Document.read_lenient ok, fun _ => rfl⟩, fun p ops ok => ?_⟩
  cases read : (Document.read e { o with strict := true } .empty text p.state).result with
  | error problem => simp [convert_of_error read] at ok
  | ok d =>
    have same := Document.read_lenient read
    rw [convert_of_ok read, convert_of_ok (same ▸ read), same]
    rfl

/-- Makes a font of any file under the name that the document hints at, and a pixel of any image. -/
def studio : Embedder Unit where
  font _ hint s := (some (.byName hint), s)
  image format bytes s := (some ⟨.digest bytes, format, 1, 1⟩, s)

/-- A text in a font that comes with the document, after an image. -/
def letterhead : List Char :=
  ["<svg><style>", "@font-face\x7b", "font-family:a;", "font-weight:bold;",
    "src:url(data:font/ttf;", "base64,AAAA)\x7d", "</style><image ", "href=\"data:", "image/png;", "base64,AAAA\"/>",
    "<text font-family=\"a\" ", "font-weight=\"bold\">", "b</text></svg>"].flatMap String.toList

/-- The letterhead is converted strictly, so it is read and converted the same in both ways; the
font and the image are asked for. -/
theorem strict_restricts_lenient_letterhead :
    let strict : Options Float := { Options.initial with strict := true }
    let lenient : Options Float := { Options.initial with strict := false }
    let p : Press (List EmbedCall × Unit) Resources := ⟨([], ()), .empty⟩
    (∃ d, (Document.read studio.logged strict .empty letterhead p.state).result = .ok d ∧
      Document.read studio.logged lenient .empty letterhead p.state =
        Document.read studio.logged strict .empty letterhead p.state) ∧
    (∃ ops, (convert studio.logged strict letterhead p).1 = .ok ops ∧ ops.length = 15 ∧
      convert studio.logged lenient letterhead p = convert studio.logged strict letterhead p) ∧
    (convert studio.logged strict letterhead p).2.state.1 =
      [.font [0, 0, 0] "a bold normal", .image .png [0, 0, 0]] := by
  intro strict lenient p
  have general := strict_restricts_lenient (ρ := Resources) studio.logged .initial letterhead
  obtain ⟨converted, calls⟩ :
      (convert studio.logged strict letterhead p).1.toOption.map List.length = some 15 ∧
        (convert studio.logged strict letterhead p).2.state.1 =
          [.font [0, 0, 0] "a bold normal", .image .png [0, 0, 0]] := by decide +kernel
  refine ⟨?_, ?_, calls⟩
  · cases ok : (Document.read studio.logged strict .empty letterhead p.state).result with
    | error problem => simp [convert_of_error ok, Except.toOption] at converted
    | ok d => exact ⟨d, rfl, (general.1 _ _ d ok).1⟩
  · cases ok : (convert studio.logged strict letterhead p).1 with
    | error problem => simp [ok, Except.toOption] at converted
    | ok ops =>
      rw [ok] at converted
      exact ⟨ops, rfl, Option.some.inj converted, general.2 p ops ok⟩

end SvgPage
