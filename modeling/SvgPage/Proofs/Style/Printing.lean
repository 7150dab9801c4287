import Mathlib.Data.Bool.AllAny
import SvgPage.Proofs.Text.Ends
import SvgPage.Style.Declarations

/-!
# Printed declarations

Splitting is the inverse of printing: a list of declarations is read back from any text in which it
is written down, however it is spaced and in whatever case its names stand. A value may hold what it
likes, as long as it closes what it opens: the splitter leaves such a text as it came in.
-/

namespace SvgPage.Properties

/-- Text in which every quote and every bracket that is opened is closed, and one character stands
between quotes or brackets only. A backslash is a character like others. So is a closing bracket
that matches nothing, which can only stand outside of all brackets. -/
inductive Closed : Char → List Char → Prop
  | nil {stop} : Closed stop []
  | plain {stop c cs} : c ≠ stop → c ∉ ['"', '\'', '('] → Closed stop cs → Closed stop (c :: cs)
  | quoted {stop q inside cs} : q ∈ ['"', '\''] → q ∉ inside → Closed stop cs →
      Closed stop (q :: (inside ++ q :: cs))
  | bracketed {stop inside cs} : Closed ')' inside → Closed stop cs →
      Closed stop ('(' :: (inside ++ ')' :: cs))

namespace Nesting

/-- A text that is no place to cut leads from one nesting to another. -/
def Leads (n m : Nesting) (cs : List Char) : Prop :=
  ∀ rest, ∃ chunk more, chunks m rest = chunk :: more ∧
    chunks n (cs ++ rest) = (cs ++ chunk) :: more

variable {n m k : Nesting} {cs ds : List Char}

theorem exists_chunk (n : Nesting) (cs : List Char) :
    ∃ chunk more, chunks n cs = chunk :: more := by
  cases cs with
  | nil => exact ⟨[], [], rfl⟩
  | cons c cs =>
    unfold chunks
    split
    · exact ⟨_, _, rfl⟩
    · split <;> exact ⟨_, _, rfl⟩

theorem leads_nil (n : Nesting) : Leads n n [] := by
  intro rest
  obtain ⟨chunk, more, first⟩ := exists_chunk n rest
  exact ⟨chunk, more, first, first⟩

theorem Leads.append (h : Leads n m cs) (h' : Leads m k ds) : Leads n k (cs ++ ds) := by
  intro rest
  obtain ⟨chunk, more, last, middle⟩ := h' rest
  obtain ⟨chunk', more', middle', first⟩ := h (ds ++ rest)
  rw [middle] at middle'
  cases middle'
  exact ⟨chunk, more, last, by rw [List.append_assoc, first, List.append_assoc]⟩

theorem Leads.cons {c : Char} (kept : ¬(c = ';' ∧ n = outside)) (step : n.after c = m)
    (h : Leads m k cs) : Leads n k (c :: cs) := by
  intro rest
  obtain ⟨chunk, more, last, first⟩ := h rest
  refine ⟨chunk, more, last, ?_⟩
  rw [List.cons_append, chunks, if_neg kept, step, first]
  rfl

theorem leads_quoted {q : Char} (absent : q ∉ cs) (depth : Nat) :
    Leads ⟨some q, depth⟩ ⟨some q, depth⟩ cs := by
  induction cs with
  | nil => exact leads_nil _
  | cons c cs ih =>
    rw [List.mem_cons, not_or] at absent
    exact .cons (by simp [outside]) (by simp [after, Ne.symm absent.1]) (ih absent.2)

/-- How deep in brackets a text stands in which a character must not occur plainly. -/
inductive Bounds : Char → Nat → Prop
  | semicolon : Bounds ';' 0
  | bracket (depth) : Bounds ')' (depth + 1)

theorem leads_closed {stop : Char} {depth : Nat} (closed : Closed stop cs)
    (bounds : Bounds stop depth) : Leads ⟨none, depth⟩ ⟨none, depth⟩ cs := by
  induction closed generalizing depth with
  | nil => exact leads_nil _
  | @plain stop c cs other bare closed ih =>
    simp only [List.mem_cons, List.not_mem_nil, or_false, not_or] at bare
    have kept : ¬(c = ';' ∧ (⟨none, depth⟩ : Nesting) = outside) := by
      rintro ⟨rfl, isOutside⟩
      cases bounds with
      | semicolon => exact other rfl
      | bracket => cases isOutside
    have same : after ⟨none, depth⟩ c = ⟨none, depth⟩ := by
      cases bounds <;> simp [after, bare, other]
    exact .cons kept same (ih bounds)
  | @quoted stop q inside cs quote absent closed ih =>
    simp only [List.mem_cons, List.not_mem_nil, or_false] at quote
    have kept (n : Nesting) : ¬(q = ';' ∧ n = outside) := by
      rintro ⟨rfl, -⟩
      simp at quote
    have entered : after ⟨none, depth⟩ q = ⟨some q, depth⟩ := by simp [after, quote]
    have left : after ⟨some q, depth⟩ q = ⟨none, depth⟩ := by simp [after]
    exact .cons (kept _) entered
      ((leads_quoted absent depth).append (.cons (kept _) left (ih bounds)))
  | @bracketed stop inside cs _ _ ih ih' =>
    have entered : after ⟨none, depth⟩ '(' = ⟨none, depth + 1⟩ := by simp [after]
    have left : after ⟨none, depth + 1⟩ ')' = ⟨none, depth⟩ := by simp [after]
    exact .cons (by simp) entered
      ((ih (.bracket depth)).append (.cons (by simp) left (ih' bounds)))

end Nesting

theorem Closed.append {stop : Char} {cs ds : List Char} (h : Closed stop cs) (h' : Closed stop ds) :
    Closed stop (cs ++ ds) := by
  induction h with
  | nil => exact h'
  | plain other bare _ ih => exact .plain other bare (ih h')
  | quoted quote absent _ ih =>
    rw [List.cons_append, List.append_assoc, List.cons_append]
    exact .quoted quote absent (ih h')
  | bracketed inside _ _ ih =>
    rw [List.cons_append, List.append_assoc, List.cons_append]
    exact .bracketed inside (ih h')

theorem chunks_closed {cs : List Char} (closed : Closed ';' cs) : chunks .outside cs = [cs] := by
  obtain ⟨chunk, more, last, first⟩ := Nesting.leads_closed closed .semicolon []
  rw [chunks] at last
  cases last
  rwa [List.append_nil] at first

theorem chunks_closed_append {cs : List Char} (closed : Closed ';' cs) (rest : List Char) :
    chunks .outside (cs ++ ';' :: rest) = cs :: chunks .outside rest := by
  obtain ⟨chunk, more, last, first⟩ := Nesting.leads_closed closed .semicolon (';' :: rest)
  have cut : chunks .outside (';' :: rest) = [] :: chunks .outside rest := by simp [chunks]
  rw [← Nesting.outside, cut] at last
  cases last
  rwa [List.append_nil] at first

/-- What is left to close in a text at some depth: the brackets around it, one after another. -/
def Unwinds : Nat → List Char → Prop
  | 0, cs => Closed ';' cs
  | depth + 1, cs =>
    ∃ inside rest, cs = inside ++ ')' :: rest ∧ Closed ')' inside ∧ Unwinds depth rest

namespace Unwinds

variable {depth : Nat} {c : Char} {cs inside : List Char}

theorem prepend {front : List Char} (widens : ∀ stop, Nesting.Bounds stop depth →
      ∀ inside, Closed stop inside → Closed stop (front ++ inside))
    (h : Unwinds depth cs) : Unwinds depth (front ++ cs) := by
  cases depth with
  | zero => exact widens ';' .semicolon cs h
  | succ depth =>
    obtain ⟨inside, rest, rfl, closed, outer⟩ := h
    exact ⟨front ++ inside, rest, (List.append_assoc ..).symm,
      widens ')' (.bracket depth) inside closed, outer⟩

theorem plain (other : ∀ stop, Nesting.Bounds stop depth → c ≠ stop) (bare : c ∉ ['"', '\'', '('])
    (h : Unwinds depth cs) : Unwinds depth (c :: cs) := by
  have longer : Unwinds depth ([c] ++ cs) :=
    h.prepend fun stop bounds _ closed => .plain (other stop bounds) bare closed
  exact longer

theorem quoted (quote : c ∈ ['"', '\'']) (absent : c ∉ inside) (h : Unwinds depth cs) :
    Unwinds depth (c :: (inside ++ c :: cs)) := by
  rw [List.append_cons, ← List.cons_append]
  refine h.prepend fun stop _ more closed => ?_
  rw [List.cons_append, List.append_assoc]
  exact .quoted quote absent closed

theorem bracketed (within : Closed ')' inside) (h : Unwinds depth cs) :
    Unwinds depth ('(' :: (inside ++ ')' :: cs)) := by
  rw [List.append_cons, ← List.cons_append]
  refine h.prepend fun stop _ more closed => ?_
  rw [List.cons_append, List.append_assoc]
  exact .bracketed within closed

/-- A closing bracket ends the innermost group, or is a plain character outside of all groups. -/
theorem closing (h : Unwinds (depth - 1) cs) : Unwinds depth (')' :: cs) := by
  cases depth with
  | zero => exact Closed.plain (by decide) (by decide) h
  | succ depth => exact ⟨[], cs, rfl, .nil, h⟩

end Unwinds

/-- A semicolon behind the text is the only place to cut. -/
def Intact (n : Nesting) (cs : List Char) : Prop := chunks n (cs ++ [';']) = [cs, []]

theorem Intact.nil {n : Nesting} (h : Intact n []) : n = .outside := by
  by_contra inside
  unfold Intact at h
  simp [chunks, inside] at h

theorem Intact.cons {n : Nesting} {c : Char} {cs : List Char} (h : Intact n (c :: cs)) :
    ¬(c = ';' ∧ n = .outside) ∧ Intact (n.after c) cs := by
  unfold Intact at h ⊢
  rw [List.cons_append, chunks] at h
  split at h
  · cases h
  · next kept =>
    obtain ⟨chunk, more, first⟩ := Nesting.exists_chunk (n.after c) (cs ++ [';'])
    rw [first] at h ⊢
    cases h
    exact ⟨kept, rfl⟩

/-- By induction on the text, in which a quote or bracket is closed by what comes after it. -/
theorem unwinds_of_intact {n : Nesting} {cs : List Char} (h : Intact n cs) :
    match n.quote with
    | none => Unwinds n.depth cs
    | some q => ∃ inside rest, cs = inside ++ q :: rest ∧ q ∉ inside ∧ Unwinds n.depth rest := by
  induction cs generalizing n with
  | nil =>
    rw [h.nil]
    exact Closed.nil
  | cons c cs ih =>
    obtain ⟨kept, further⟩ := h.cons
    have next := ih further
    obtain ⟨_ | q, depth⟩ := n
    · by_cases quote : c ∈ ['"', '\'']
      · have entered : Nesting.after ⟨none, depth⟩ c = ⟨some c, depth⟩ := by
          simp only [List.mem_cons, List.not_mem_nil, or_false] at quote
          simp [Nesting.after, quote]
        rw [entered] at next
        obtain ⟨inside, rest, rfl, absent, outer⟩ := next
        exact outer.quoted quote absent
      simp only [List.mem_cons, List.not_mem_nil, or_false, not_or] at quote
      by_cases opens : c = '('
      · subst opens
        have entered : Nesting.after ⟨none, depth⟩ '(' = ⟨none, depth + 1⟩ := by
          simp [Nesting.after]
        rw [entered] at next
        obtain ⟨inside, rest, rfl, within, outer⟩ := next
        exact outer.bracketed within
      by_cases closes : c = ')'
      · subst closes
        have left : Nesting.after ⟨none, depth⟩ ')' = ⟨none, depth - 1⟩ := by simp [Nesting.after]
        rw [left] at next
        exact Unwinds.closing next
      · have same : Nesting.after ⟨none, depth⟩ c = ⟨none, depth⟩ := by
          simp [Nesting.after, quote, opens, closes]
        rw [same] at next
        refine Unwinds.plain (fun stop bounds => ?_) (by simp [quote, opens]) next
        cases bounds with
        | semicolon => exact fun cut => kept ⟨cut, rfl⟩
        | bracket => exact closes
    · by_cases closes : c = q
      · subst closes
        have left : Nesting.after ⟨some c, depth⟩ c = ⟨none, depth⟩ := by simp [Nesting.after]
        rw [left] at next
        exact ⟨[], cs, rfl, List.not_mem_nil, next⟩
      · have same : Nesting.after ⟨some q, depth⟩ c = ⟨some q, depth⟩ := by
          simp [Nesting.after, closes]
        rw [same] at next
        obtain ⟨inside, rest, rfl, absent, outer⟩ := next
        exact ⟨c :: inside, rest, rfl, by simp [Ne.symm closes, absent], outer⟩

/-- The texts that close what they open are just those that the splitter leaves whole. -/
theorem closed_iff_intact {cs : List Char} : Closed ';' cs ↔ Intact .outside cs :=
  ⟨fun closed => chunks_closed_append closed [], unwinds_of_intact⟩

instance (cs : List Char) : Decidable (Closed ';' cs) :=
  decidable_of_iff (chunks .outside (cs ++ [';']) = [cs, []]) closed_iff_intact.symm

/-- The characters that count where declarations are told apart. -/
def marks : List Char := [':', ';', '"', '\'', '(', ')']

/-- Without such characters. -/
def Bare (cs : List Char) : Prop := ∀ c ∈ cs, c ∉ marks

instance (cs : List Char) : Decidable (Bare cs) := List.decidableBAll _ _

/-- A name and a value that can be written as a declaration. -/
structure Printable (name value : List Char) : Prop where
  named : name ≠ []
  trimmedName : Text.trim name = name
  bareName : Bare name
  valued : value ≠ []
  trimmedValue : Text.trim value = value
  unmarked : ¬"!important".toList <:+: Text.lower value
  closed : Closed ';' value

/-- A mark of importance in any case, with white space before it; or none. -/
inductive Emphasis : List Char → Prop
  | none : Emphasis []
  | important {gap word} : Text.AllBlank gap → Text.lower word = "!important".toList →
      Emphasis (gap ++ word)

/-- A declaration written with white space around its name, in whatever case, and its value, which
may be marked as important. -/
inductive Spelled (name value : List Char) : List Char → Prop
  | intro {before word after front emphasis back} : Text.AllBlank before →
      Text.lower word = name → Text.AllBlank after → Text.AllBlank front → Emphasis emphasis →
      Text.AllBlank back →
      Spelled name value
        (before ++ (word ++ after) ++ ':' :: (front ++ (value ++ emphasis ++ back)))

/-- Declarations written with a semicolon between any two. More semicolons may stand at the end, or
anywhere with nothing between them. -/
inductive Printed : List (String × String) → List Char → Prop
  | nil {cs} : Text.AllBlank cs → Printed [] cs
  | single {d cs} : Spelled d.1.toList d.2.toList cs → Printed [d] cs
  | cons {d ds cs rest} : Spelled d.1.toList d.2.toList cs → Printed ds rest →
      Printed (d :: ds) (cs ++ ';' :: rest)
  | gap {ds cs rest} : Text.AllBlank cs → Printed ds rest → Printed ds (cs ++ ';' :: rest)

theorem closed_of_bare {cs : List Char} (bare : Bare cs) : Closed ';' cs := by
  induction cs with
  | nil => exact .nil
  | cons c cs ih =>
    obtain ⟨first, rest⟩ := List.forall_mem_cons.mp bare
    simp only [marks, List.mem_cons, List.not_mem_nil, or_false, not_or] at first
    exact .plain first.2.1 (by simp [first]) (ih rest)

theorem bare_of_allBlank {cs : List Char} (blank : Text.AllBlank cs) : Bare cs := by
  have visible : ∀ c ∈ marks, Text.isBlank c = false := List.all_iff_forall_prop.mp (by decide)
  intro c inside mark
  exact absurd (blank c inside) (by simp [visible c mark])

theorem bare_of_lower {cs : List Char} (bare : Bare (Text.lower cs)) : Bare cs := by
  have caseless : ∀ c ∈ marks, c.toLower = c := List.all_iff_forall_prop.mp (by decide)
  intro c inside mark
  refine bare c.toLower (List.mem_map_of_mem inside) ?_
  rwa [caseless c mark]

theorem closed_of_emphasis {cs : List Char} (h : Emphasis cs) : Closed ';' cs := by
  cases h with
  | none => exact .nil
  | important gap word =>
    refine (closed_of_bare (bare_of_allBlank gap)).append (closed_of_bare (bare_of_lower ?_))
    rw [word]
    decide

theorem closed_of_spelled {name value cs : List Char} (fit : Printable name value)
    (h : Spelled name value cs) : Closed ';' cs := by
  obtain ⟨before, word, after, front, emphasis, back⟩ := h
  have blank {cs : List Char} (h : Text.AllBlank cs) : Closed ';' cs :=
    closed_of_bare (bare_of_allBlank h)
  have name : Closed ';' _ := closed_of_bare (bare_of_lower (word ▸ fit.bareName))
  exact ((blank before).append (name.append (blank after))).append <|
    .plain (by decide) (by decide) <|
      (blank front).append ((fit.closed.append (closed_of_emphasis emphasis)).append (blank back))

theorem dropImportant_append {value emphasis : List Char} (trimmed : Text.trim value = value)
    (unmarked : ¬"!important".toList <:+: Text.lower value) (h : Emphasis emphasis) :
    dropImportant (value ++ emphasis) = value := by
  cases h with
  | none => rw [List.append_nil, dropImportant, Text.beforeLast?_eq_none unmarked]
  | @important gap word blank mark =>
    have found : Text.beforeLast? "!important".toList (Text.lower (value ++ (gap ++ word))) =
        some (Text.lower (value ++ gap)) := by
      rw [← List.append_assoc, Text.lower, List.map_append, ← Text.lower, ← Text.lower, mark]
      exact Text.beforeLast?_append (by decide) _
    have front :
        (value ++ (gap ++ word)).take (Text.lower (value ++ gap)).length = value ++ gap := by
      rw [← List.append_assoc, Text.lower, List.length_map, List.take_left]
    rw [dropImportant, found]
    simp only [front]
    rw [Text.dropTail_append_of_eq_nil value (Text.dropTail_eq_nil blank),
      Text.dropTail_of_trimBy trimmed]

theorem trim_append_emphasis {value emphasis : List Char} (trimmed : Text.trim value = value)
    (valued : value ≠ []) (h : Emphasis emphasis) :
    Text.trim (value ++ emphasis) = value ++ emphasis := by
  refine Text.trimBy_append_of_ends trimmed valued ?_
  cases h with
  | none => rfl
  | @important gap word _ mark =>
    have ends : Text.dropTail Text.isBlank word = word :=
      Text.dropTail_of_lower (by rw [mark]; decide)
    have filled : Text.dropTail Text.isBlank word ≠ [] := by
      rw [ends]
      rintro rfl
      cases mark
    rw [Text.dropTail_append_of_ne_nil gap filled, ends]

theorem declaration?_of_spelled {name value cs : List Char} (fit : Printable name value)
    (h : Spelled name value cs) :
    declaration? cs = some (String.ofList name, String.ofList value) := by
  obtain @⟨before, word, after, front, emphasis, back, blank, same, blank₁, blank₂, emphatic,
    blank₃⟩ := h
  have bare : Bare (before ++ (word ++ after)) :=
    List.forall_mem_append.mpr ⟨bare_of_allBlank blank, List.forall_mem_append.mpr
      ⟨bare_of_lower (same ▸ fit.bareName), bare_of_allBlank blank₁⟩⟩
  have whole : ∀ c ∈ before ++ (word ++ after), (c == ':') = false := by
    intro c inside
    rw [beq_eq_false_iff_ne]
    rintro rfl
    exact bare _ inside (by decide)
  have readName : Text.lower (Text.trim (before ++ (word ++ after))) = name := by
    rw [Text.trim, Text.trimBy_between blank blank₁, ← Text.trim, ← Text.trim_lower, same,
      fit.trimmedName]
  have readValue : dropImportant (Text.trim (front ++ (value ++ emphasis ++ back))) = value := by
    rw [Text.trim, Text.trimBy_between blank₂ blank₃, ← Text.trim,
      trim_append_emphasis fit.trimmedValue fit.valued emphatic,
      dropImportant_append fit.trimmedValue fit.unmarked emphatic]
  rw [declaration?, Text.splitFirst?_append_cons whole (by decide), Option.bind_some]
  dsimp only
  rw [readName, readValue, if_neg (by simp [fit.named, fit.valued])]

theorem declaration?_of_allBlank {cs : List Char} (blank : Text.AllBlank cs) :
    declaration? cs = none := by
  have none : Text.splitFirst? (· == ':') cs = none := by
    by_contra found
    obtain ⟨⟨before, after⟩, found⟩ := Option.ne_none_iff_exists'.mp found
    obtain ⟨c, rfl, colon, -⟩ := Text.exists_of_splitFirst? found
    rw [beq_iff_eq] at colon
    exact bare_of_allBlank blank c (by simp) (by rw [colon]; decide)
  rw [declaration?, none, Option.bind_none]

/-- What is printed as a list of declarations is split into just these, in order. -/
theorem split_of_printed {ds : List (String × String)} {cs : List Char}
    (fit : ∀ d ∈ ds, Printable d.1.toList d.2.toList) (printed : Printed ds cs) :
    split cs = ds := by
  induction printed with
  | nil blank =>
    rw [split, chunks_closed (closed_of_bare (bare_of_allBlank blank)),
      List.filterMap_cons_none (declaration?_of_allBlank blank), List.filterMap_nil]
  | @single d cs spelled =>
    have fit := fit d (.head _)
    rw [split, chunks_closed (closed_of_spelled fit spelled),
      List.filterMap_cons_some (declaration?_of_spelled fit spelled), List.filterMap_nil,
      String.ofList_toList, String.ofList_toList]
  | @cons d ds cs rest spelled _ ih =>
    obtain ⟨first, others⟩ := List.forall_mem_cons.mp fit
    rw [split, chunks_closed_append (closed_of_spelled first spelled),
      List.filterMap_cons_some (declaration?_of_spelled first spelled), String.ofList_toList,
      String.ofList_toList]
    exact congrArg (d :: ·) (ih others)
  | gap blank _ ih =>
    rw [split, chunks_closed_append (closed_of_bare (bare_of_allBlank blank)),
      List.filterMap_cons_none (declaration?_of_allBlank blank)]
    exact ih fit

/-- Names in capitals, marks of importance, white space of several kinds; and in the values, a
colon, semicolons, an opening bracket and an apostrophe that part nothing. -/
theorem split_of_printed_quoted :
    let style := [("fill", "url('#a;b')"), ("font-family", "\"x;(y:'\", serif")]
    let text :=
      " FILL :\turl('#a;b') !Important ;\nFont-Family:\"x;(y:'\", serif!important; ".toList
    (∀ d ∈ style, Printable d.1.toList d.2.toList) ∧ Printed style text ∧ split text = style := by
  intro style text
  have fit : ∀ d ∈ style, Printable d.1.toList d.2.toList := by
    rw [List.forall_mem_cons, List.forall_mem_singleton]
    constructor <;> constructor <;> decide +kernel
  have fill := @Spelled.intro "fill".toList "url('#a;b')".toList [' '] "FILL".toList [' '] ['\t'] _
    [' '] (by decide) (by decide) (by decide) (by decide)
    (@Emphasis.important [' '] "!Important".toList (by decide) (by decide)) (by decide)
  have family := @Spelled.intro "font-family".toList "\"x;(y:'\", serif".toList ['\n']
    "Font-Family".toList [] [] _ [] (by decide) (by decide) (by decide) (by decide)
    (@Emphasis.important [] "!important".toList (by decide) (by decide)) (by decide)
  have printed : Printed style text :=
    @Printed.cons ("fill", "url('#a;b')") _ _ _ fill
      (@Printed.cons ("font-family", "\"x;(y:'\", serif") _ _ _ family
        (@Printed.nil [' '] (by decide)))
  exact ⟨fit, printed, split_of_printed fit printed⟩

end SvgPage.Properties
