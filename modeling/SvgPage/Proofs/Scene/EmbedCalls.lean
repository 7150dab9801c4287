import SvgPage.Proofs.Payload.DataUri
import SvgPage.Proofs.Scene.Descent
import SvgPage.Proofs.Scene.Policy
import SvgPage.Proofs.Scene.Position
import SvgPage.Proofs.Scene.Registration
import SvgPage.Proofs.Style.Rules

/-!
# Requests to the embedder

A document has sources of fonts and images: the font faces of its style sheets, then the images
that are visible, all in document order. When it is read, one request is made for each source in
turn. Where reading comes to an end before the last source, the later ones are not asked for.
-/

namespace SvgPage

open Xml

/-- The request for a font face, unless the rule is faulty. -/
def StyleBlock.faceCall? (ds : List Css.Declaration) : Option EmbedCall :=
  (fontFace ds).toOption.map fun face =>
    .font face.bytes (face.family ++ " " ++ face.weight ++ " " ++ face.style)

/-- The requests for the font faces of a style sheet, one for each rule. -/
def StyleBlock.faceCalls (css : List Char) : List (Option EmbedCall) :=
  (Css.Rule.faceRulesAmong (Css.Rule.list (Text.trim css))).map faceCall?

/-- The request for an image, if the type of its data is one of an image. -/
def Xml.Head.imageCall? (h : Head) : Option EmbedCall :=
  (DataUri.read? (h.link?.getD "").toList).bind fun uri =>
    (ImageFormat.ofMime? uri.mime).map fun format => .image format uri.bytes

/-- The requests for images among the elements at some places, one for each image. -/
def Xml.Site.imageCalls (sites : List Site) : List (Option EmbedCall) :=
  (sites.filter fun site => site.head.isOf (· == .image)).map fun site => site.head.imageCall?

def Xml.Node.embedCalls (n : Xml.Node) : List (Option EmbedCall) :=
  n.styles.flatMap StyleBlock.faceCalls ++ Site.imageCalls (n.visible [])

def Document.embedCalls (text : List Char) : List (Option EmbedCall) :=
  (Xml.Node.read? text).elim [] Xml.Node.embedCalls

section

variable {α β σ τ υ : Type}

/-- Requests for sources from the first one on, and for all of them where there is a result. -/
structure Serves (calls : List EmbedCall) (sources : List (Option EmbedCall))
    (result : Except Problem α) : Prop where
  ordered : calls.map some <+: sources
  complete : ∀ a, result = .ok a → calls.map some = sources

namespace Serves

variable {calls calls' : List EmbedCall} {sources sources' : List (Option EmbedCall)}
  {result : Except Problem α}

theorem nothing (problem : Problem) (sources : List (Option EmbedCall)) :
    Serves [] sources (.error problem : Except Problem α) :=
  ⟨List.nil_prefix, nofun⟩

theorem whole (calls : List EmbedCall) (result : Except Problem α) :
    Serves calls (calls.map some) result :=
  ⟨List.prefix_rfl, fun _ _ => rfl⟩

theorem abort {problem problem' : Problem}
    (h : Serves calls sources (.error problem : Except Problem α))
    (later : List (Option EmbedCall)) :
    Serves calls (sources ++ later) (.error problem' : Except Problem β) :=
  ⟨h.ordered.trans (List.prefix_append _ _), nofun⟩

theorem map (f : α → β) (h : Serves calls sources result) :
    Serves calls sources (result.map f) := by
  refine ⟨h.ordered, fun b found => ?_⟩
  obtain ⟨a, found, -⟩ := exists_of_map_eq_ok found
  exact h.complete a found

theorem append {a : α} {result' : Except Problem β}
    (h : Serves calls sources (.ok a : Except Problem α)) (h' : Serves calls' sources' result') :
    Serves (calls ++ calls') (sources ++ sources') result' := by
  have first := h.complete a rfl
  refine ⟨?_, fun b found => ?_⟩
  · rw [List.map_append, first]
    exact (List.prefix_append_right_inj sources).mpr h'.ordered
  · rw [List.map_append, first, h'.complete b found]

end Serves

/-- The first reading has a log in its state, where it puts the requests that the second one makes.
Otherwise they do the same. The requests serve the sources. -/
def Logs (put : List EmbedCall → τ → υ) (m : Reading υ α) (m' : Reading τ α)
    (sources : List (Option EmbedCall)) : Prop :=
  ∀ log s, ∃ calls, m (put log s) = ((m' s).1, put (log ++ calls) (m' s).2) ∧
    Serves calls sources (m' s).1

namespace Logs

variable {put : List EmbedCall → τ → υ} {m : Reading υ α} {m' : Reading τ α}
  {f : α → Reading υ β} {f' : α → Reading τ β} {sources sources' : List (Option EmbedCall)}

theorem settled {r : Except Problem α} (none : ∀ a, r = .ok a → sources = []) :
    Logs put (Context.settled r) (Context.settled r) sources := by
  intro log s
  refine ⟨[], ?_, List.nil_prefix, fun a found => (none a found).symm⟩
  rw [List.append_nil]
  rfl

theorem pure (a : α) : Logs put (Pure.pure a) (Pure.pure a) [] :=
  settled (r := .ok a) fun _ _ => rfl

theorem bind (h : Logs put m m' sources) (hf : ∀ a, Logs put (f a) (f' a) sources') :
    Logs put (m >>= f) (m' >>= f') (sources ++ sources') := by
  intro log s
  obtain ⟨calls, first, served⟩ := h log s
  rcases answer : m' s with ⟨problem | a, s'⟩
  · rw [answer] at first served
    rw [Reading.bind_eq_of_error first, Reading.bind_eq_of_error answer]
    exact ⟨calls, rfl, served.abort _⟩
  · rw [answer] at first served
    rw [Reading.bind_eq_of_ok first, Reading.bind_eq_of_ok answer]
    obtain ⟨calls', rest, served'⟩ := hf a (log ++ calls) s'
    refine ⟨calls ++ calls', ?_, served.append served'⟩
    rw [rest, List.append_assoc]

/-- What goes on from a reading without requests may rely on its result. -/
theorem settled_bind {r : Except Problem α}
    (hf : ∀ a, r = .ok a → Logs put (f a) (f' a) sources) :
    Logs put (Context.settled r >>= f) (Context.settled r >>= f') sources := by
  intro log s
  cases r with
  | error problem => exact ⟨[], by rw [List.append_nil]; rfl, .nothing _ _⟩
  | ok a => exact hf a rfl log s

theorem forM {as : List α} {g : α → Reading υ PUnit} {g' : α → Reading τ PUnit}
    {row : α → List (Option EmbedCall)} (h : ∀ a, Logs put (g a) (g' a) (row a)) :
    Logs put (as.forM g) (as.forM g') (as.flatMap row) := by
  induction as with
  | nil => exact .pure _
  | cons a as ih => exact (h a).bind fun _ => ih

end Logs

end

namespace StyleBlock

variable {σ : Type} (e : Embedder σ)

/-- The state of the first round, with a log beside the state of the embedder. -/
def logDesk (log : List EmbedCall) (d : Desk σ) : Desk (List EmbedCall × σ) :=
  ⟨d.classes, d.fonts, (log, d.state)⟩

theorem logs_embedFace (face : FontFace) :
    Logs logDesk (embedFace e.logged face) (embedFace e face)
      [some (.font face.bytes (hint face))] := by
  intro log d
  refine ⟨[.font face.bytes (hint face)], ?_, .whole _ _⟩
  rcases answer : e.font face.bytes (hint face) d.state with ⟨_ | font, s⟩ <;>
    simp [embedFace, Embedder.logged, logDesk, answer]

theorem embedFaces_eq_forM (faces : List FontFace) :
    embedFaces e faces = faces.forM (embedFace e) := by
  induction faces with
  | nil => rfl
  | cons face faces ih =>
    rw [embedFaces, ih]
    rfl

theorem faceCalls_of_read {css : List Char} {block : StyleBlock} (found : read css = .ok block) :
    faceCalls css = block.fontFaces.flatMap fun face => [some (.font face.bytes (hint face))] := by
  have faces := (gathers_of_ofRules found).fontFaces
  have calls := congrArg (List.map fun face : Except FontFaceFault FontFace =>
    face.toOption.map fun face => EmbedCall.font face.bytes (hint face)) faces
  rw [List.map_map, List.map_map] at calls
  rw [← List.map_eq_flatMap]
  exact calls

theorem logs_apply (css : List Char) :
    Logs logDesk (apply e.logged css) (apply e css) (faceCalls css) := by
  intro log d
  unfold apply
  cases found : read css with
  | error fault => exact ⟨[], by rw [List.append_nil], .nothing _ _⟩
  | ok block =>
    dsimp only
    rw [faceCalls_of_read found, embedFaces_eq_forM, embedFaces_eq_forM]
    exact Logs.forM (logs_embedFace e) log ⟨mergeClasses d.classes block.classes, d.fonts, d.state⟩

theorem logs_applyAll (n : Xml.Node) :
    Logs logDesk (applyAll e.logged n.elements) (applyAll e n.elements)
      (n.styles.flatMap faceCalls) := by
  rw [applyAll_eq_forM, applyAll_eq_forM]
  exact .forM (logs_apply e)

end StyleBlock

namespace Xml.Site

theorem imageCalls_append (sites sites' : List Site) :
    imageCalls (sites ++ sites') = imageCalls sites ++ imageCalls sites' := by
  rw [imageCalls, List.filter_append, List.map_append]
  rfl

variable {head : Head} {kind : ElementKind} (around : List Head) (children : List Xml.Node)

section

variable (known : head.kind = .ok kind)

include known

theorem imageCalls_open (isOpen : kind.isOpen = true) :
    imageCalls (Node.visible around (.element head children)) =
      imageCalls (Node.visibleAmong (head :: around) children) := by
  have other : (kind == .image) = false := by
    revert isOpen
    cases kind <;> decide
  simp [imageCalls, Node.visible, Head.isOf_eq known, isOpen, other]

theorem imageCalls_closed (closed : kind.isOpen = false) (other : kind ≠ .image) :
    imageCalls (Node.visible around (.element head children)) = [] := by
  simp [imageCalls, Node.visible, Head.isOf_eq known, closed, other]

end

theorem imageCalls_image (known : head.kind = .ok .image) :
    imageCalls (Node.visible around (.element head children)) = [head.imageCall?] := by
  have closed : ElementKind.image.isOpen = false := by decide
  simp [imageCalls, Node.visible, Head.isOf_eq known, closed]

end Xml.Site

namespace Context

variable {σ : Type} (cx : Context) (e : Embedder σ)

mutual

theorem imageCalls_textItem {cx : Context} {tag : String} {start : TextStart} {n : Xml.Node}
    {item : Option (TextItem Float)} (read : cx.textItem tag start n = .ok item)
    (around : List Head) : Site.imageCalls (n.visible around) = [] := by
  cases n with
  | element head children =>
    cases readsItem_of_eq_ok read with
    | @span _ _ kind inner items style known spans started contents styled =>
      have isOpen : kind.isOpen = true := by rcases spans with rfl | rfl <;> rfl
      rw [Site.imageCalls_open around children known isOpen]
      exact imageCalls_textItems contents (head :: around)
    | @remark _ _ kind known remark =>
      have undrawn := isDrawn_of_isTextRemark remark
      refine Site.imageCalls_closed around children known
        (ElementKind.isOpen_of_not_isDrawn undrawn) ?_
      rintro rfl
      cases undrawn
    | other noElement => cases noElement
  | text content | comment content | instruction => rfl

theorem imageCalls_textItems {cx : Context} {tag : String} {start : TextStart}
    {ns : List Xml.Node} {items : List (TextItem Float)}
    (read : cx.textItems tag start ns = .ok items) (around : List Head) :
    Site.imageCalls (Node.visibleAmong around ns) = [] := by
  cases ns with
  | nil => rfl
  | cons n ns =>
    unfold textItems at read
    obtain ⟨first, one, read⟩ := exists_of_bind_eq_ok read
    obtain ⟨rest, others, -⟩ := exists_of_bind_eq_ok read
    rw [Node.visibleAmong, Site.imageCalls_append, imageCalls_textItem one around,
      imageCalls_textItems others around]
    rfl

end

theorem logs_embedImage (format : ImageFormat) (bytes : List UInt8) :
    Logs Prod.mk (embedImage e.logged format bytes) (embedImage e format bytes)
      [some (.image format bytes)] := by
  intro log s
  refine ⟨[.image format bytes], ?_, .whole _ _⟩
  rcases answer : e.image format bytes s with ⟨_ | image, s'⟩ <;>
    simp [embedImage, Embedder.logged, answer]

theorem logs_image (h : Head) (inherited : PaintStyle Float) :
    Logs Prod.mk (cx.image e.logged h inherited) (cx.image e h inherited) [h.imageCall?] := by
  unfold image
  refine .settled_bind fun (format, bytes) found => ?_
  obtain ⟨uri, decoded, known, rfl⟩ := imageData_eq_ok_iff.mp found
  have call : h.imageCall? = some (.image format uri.bytes) := by
    rw [Head.imageCall?, decoded, Option.bind_some, known, Option.map_some]
  rw [call, ← List.append_nil [some (EmbedCall.image format uri.bytes)]]
  exact (logs_embedImage e format uri.bytes).bind fun handle => .settled fun _ _ => rfl

mutual

/-- Requests are made for the images among the open elements, as these are walked through. -/
theorem logs_node (inherited : Inherited) (around : List Head) (n : Xml.Node) :
    Logs Prod.mk (cx.node e.logged inherited n) (cx.node e inherited n)
      (Site.imageCalls (n.visible around)) := by
  cases n with
  | element head children =>
    unfold node
    refine .settled_bind fun kind known => ?_
    split_ifs with isShape isImage isText isGroup isDefs isSpan isUnsupported
    · have undrawn : kind ≠ .image := by
        rintro rfl
        cases isShape
      rw [Site.imageCalls_closed around children known (ElementKind.isOpen_of_isShape isShape)
        undrawn]
      exact .settled_bind fun _ _ => .pure _
    · subst isImage
      rw [Site.imageCalls_image around children known, ← List.append_nil [head.imageCall?]]
      exact (logs_image cx e head inherited.paint).bind fun _ => .pure _
    · subst isText
      refine .settled_bind fun t set => ?_
      obtain ⟨start, -, set⟩ := exists_of_bind_eq_ok set
      obtain ⟨items, contents, -⟩ := exists_of_bind_eq_ok set
      rw [Site.imageCalls_open around children known rfl, imageCalls_textItems contents]
      exact .pure _
    · have isOpen : kind.isOpen = true := by rcases isGroup with rfl | rfl <;> rfl
      rw [Site.imageCalls_open around children known isOpen,
        ← List.append_nil (Site.imageCalls _)]
      refine .settled_bind fun start _ => ?_
      refine (logs_nodes start (head :: around) children).bind fun nodes => ?_
      exact .settled_bind fun _ _ => .pure _
    · subst isDefs
      rw [Site.imageCalls_closed around children known rfl nofun]
      exact .settled_bind fun _ _ => .pure _
    · exact .settled nofun
    all_goals
      -- What is left is passed over or contributes nothing, whatever the policy.
      have undrawn : kind.isDrawn = false := by
        revert isShape isImage isText isGroup isSpan
        cases kind <;> decide
      rw [Site.imageCalls_closed around children known
        (ElementKind.isOpen_of_not_isDrawn undrawn) isImage]
    · exact .settled_bind fun _ _ => .pure _
    · exact .pure _
  | text content | comment content | instruction =>
    unfold node
    exact .pure _

theorem logs_nodes (inherited : Inherited) (around : List Head) (ns : List Xml.Node) :
    Logs Prod.mk (cx.nodes e.logged inherited ns) (cx.nodes e inherited ns)
      (Site.imageCalls (Node.visibleAmong around ns)) := by
  cases ns with
  | nil =>
    unfold nodes
    exact .pure _
  | cons n ns =>
    unfold nodes
    rw [Node.visibleAmong, Site.imageCalls_append]
    refine (logs_node inherited around n).bind fun first => ?_
    rw [← List.append_nil (Site.imageCalls _)]
    exact (logs_nodes inherited around ns).bind fun rest => .pure _

end

end Context

namespace Document

variable {σ : Type} (e : Embedder σ)

theorem logs_scene (cx : Context) (fontSize : Float) (root : Xml.Node) :
    Logs Prod.mk (scene e.logged cx fontSize root) (scene e cx fontSize root)
      (Site.imageCalls (root.visible [])) := by
  unfold scene
  rw [← List.append_nil (Site.imageCalls _)]
  refine (cx.logs_node e _ [] root).bind fun found => ?_
  cases found with
  | none => exact .settled nofun
  | some n => exact .pure n

/-- A log beside the state of the embedder has no part in what is read. -/
theorem read_logged (o : Options Float) (fonts : FontTable) (text : List Char)
    (log : List EmbedCall) (s : σ) :
    ∃ calls, Document.read e.logged o fonts text (log, s) =
        ⟨(Document.read e o fonts text s).result, (Document.read e o fonts text s).registers,
          (log ++ calls, (Document.read e o fonts text s).state)⟩ ∧
      Serves calls (embedCalls text) (Document.read e o fonts text s).result := by
  cases framed : frame text with
  | error problem =>
    refine ⟨[], ?_, ?_⟩
    · simp [Document.read, framed]
    · simp only [Document.read, framed]
      exact .nothing _ _
  | ok frame =>
    obtain ⟨root, viewBox, size⟩ := frame
    have sources : embedCalls text = root.embedCalls := by
      rw [embedCalls, read?_of_frame framed]
      rfl
    rw [sources, Node.embedCalls]
    obtain ⟨calls, styled, served⟩ := StyleBlock.logs_applyAll e root log ⟨.empty, fonts, s⟩
    unfold StyleBlock.logDesk at styled
    rcases done : StyleBlock.applyAll e root.elements ⟨.empty, fonts, s⟩ with ⟨problem | ⟨⟩, d⟩
    · rw [done] at styled served
      simp only [Document.read, framed, styled, done]
      exact ⟨calls, rfl, served.abort _⟩
    rw [done] at styled served
    simp only [Document.read, framed, styled, done]
    rcases gathered : gatherDefinitions (.start o.strict viewBox size d) root with
      ⟨problem | ⟨⟩, definitions⟩
    · unfold Context.start at gathered
      rw [gathered]
      exact ⟨calls, rfl, by simpa using served.append (.nothing problem _)⟩
    · obtain ⟨calls', drawn, served'⟩ := logs_scene e
        { Context.start o.strict viewBox size d with definitions } o.fontSize root (log ++ calls)
        d.state
      unfold Context.start at gathered drawn
      simp only [gathered, drawn]
      refine ⟨calls ++ calls', ?_, (served.append served').map _⟩
      rw [List.append_assoc]
      rfl

end Document

/-- Whatever embedder, options, text and page: a log of requests has no part in a conversion, and
the requests are those for the sources of the document in their order, each one once. They are
those for all sources if the document is converted, and for the first ones if it fails. -/
theorem convert_logged {σ ρ : Type} [Registry ρ] (e : Embedder σ) (o : Options Float)
    (text : List Char) (p : Press σ ρ) (log : List EmbedCall) :
    ∃ calls, convert e.logged o text ⟨(log, p.state), p.resources⟩ =
        ((convert e o text p).1,
          ⟨(log ++ calls, (convert e o text p).2.state), (convert e o text p).2.resources⟩) ∧
      calls.map some <+: Document.embedCalls text ∧
      ∀ ops, (convert e o text p).1 = .ok ops → calls.map some = Document.embedCalls text := by
  obtain ⟨calls, read, served⟩ := Document.read_logged e o .empty text log p.state
  refine ⟨calls, ?_, served.ordered, ?_⟩
  · cases found : (Document.read e o .empty text p.state).result with
    | error problem =>
      rw [convert_of_error found, convert_of_error (by rw [read, found]), read]
    | ok d => rw [convert_of_ok found, convert_of_ok (by rw [read, found]), read]
  · intro ops converted
    cases found : (Document.read e o .empty text p.state).result with
    | error problem => simp [convert_of_error found] at converted
    | ok d => exact served.complete d found

/-- An image among the definitions, which is not visible, between a style sheet with a font face and
an image that is visible. -/
def catalogue : List Char :=
  ["<svg><style>", "@font-face\x7b", "font-family:a;", "font-weight:bold;",
    "src:url(data:font/ttf;", "base64,AAAA)\x7d", "</style><defs>", "<image href=\"data:",
    "image/png;", "base64,BBBB\"/>", "</defs><g>", "<image href=\"data:", "image/JPG;",
    "base64,AAAA\"/>", "</g></svg>"].flatMap String.toList

/-- The font and the visible image are asked for, in this order. -/
theorem convert_logged_catalogue :
    (∃ ops, (convert studio .initial catalogue ⟨(), Resources.empty⟩).1 = .ok ops) ∧
      (convert studio.logged .initial catalogue ⟨([], ()), Resources.empty⟩).2.state.1 =
        [.font [0, 0, 0] "a bold normal", .image .jpeg [0, 0, 0]] := by
  have converted : (convert studio .initial catalogue ⟨(), Resources.empty⟩).1.toOption.isSome =
      true := by decide +kernel
  have sources : Document.embedCalls catalogue =
      [some (.font [0, 0, 0] "a bold normal"), some (.image .jpeg [0, 0, 0])] := by decide +kernel
  obtain ⟨calls, kept, -, complete⟩ :=
    convert_logged studio .initial catalogue ⟨(), Resources.empty⟩ []
  cases ok : (convert studio .initial catalogue ⟨(), Resources.empty⟩).1 with
  | error problem =>
    rw [ok] at converted
    cases converted
  | ok ops =>
    refine ⟨⟨ops, rfl⟩, ?_⟩
    have requests : calls = [.font [0, 0, 0] "a bold normal", .image .jpeg [0, 0, 0]] :=
      List.map_injective_iff.mpr (Option.some_injective _) ((complete ops ok).trans sources)
    rw [kept, requests]
    rfl

end SvgPage
