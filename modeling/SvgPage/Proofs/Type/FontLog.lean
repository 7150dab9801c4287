import Mathlib.Data.List.Induction
import SvgPage.Proofs.Shelf
import SvgPage.Type.FontTable

/-!
# The log of registrations

Three levels of shelves come down to one list of what was registered, in order. An axis that is not
requested is that of the earliest face that is left, and of the fonts for one face the latest one
counts. A face that is registered again stays where it is and has the new font.
-/

namespace SvgPage

namespace Shelf

section

variable {α β : Type} (key : α → String) (start : β) (step : α → β → β)

/-- Each value goes to the shelf under its key, one after another. -/
def gather (as : List α) : Shelf β := as.foldl (fun shelf a => shelf.update (key a) start (step a)) []

/-- What one key has gathered. -/
def collect (as : List α) : β := as.foldl (fun b a => step a b) start

theorem gather_concat (as : List α) (a : α) : gather key start step (as ++ [a]) =
    (gather key start step as).update (key a) start (step a) :=
  List.foldl_concat ..

theorem collect_concat (as : List α) (a : α) :
    collect start step (as ++ [a]) = step a (collect start step as) :=
  List.foldl_concat ..

/-- A key has what those values give that were put there. -/
theorem get?_gather (as : List α) (k : String) : get? (gather key start step as) k =
    if as.filter (key · == k) = [] then none
    else some (collect start step (as.filter (key · == k))) := by
  induction as using List.reverseRecOn with
  | nil => rfl
  | append_singleton as a ih =>
    rw [gather_concat, get?_update, List.filter_append]
    by_cases same : k = key a
    · subst same
      have own : [a].filter (key · == key a) = [a] := by simp
      rw [own, if_pos rfl, if_neg (by simp), collect_concat, ih]
      split
      · next none => rw [none]; rfl
      · rfl
    · have other : [a].filter (key · == k) = [] := by simpa using Ne.symm same
      rw [other, if_neg same, List.append_nil, ih]

theorem keys_gather_concat (as : List α) (a : α) : keys (gather key start step (as ++ [a])) =
    if key a ∈ keys (gather key start step as) then keys (gather key start step as)
    else keys (gather key start step as) ++ [key a] := by
  rw [gather_concat, keys_update]

theorem mem_keys_gather {as : List α} {k : String} :
    k ∈ keys (gather key start step as) ↔ ∃ a ∈ as, key a = k := by
  rw [← isSome_get?_iff, get?_gather]
  split
  · next none => simpa [List.filter_eq_nil_iff] using none
  · next some => simpa [List.filter_eq_nil_iff] using some

theorem head?_keys_gather (as : List α) :
    (keys (gather key start step as)).head? = as.head?.map key := by
  induction as using List.reverseRecOn with
  | nil => rfl
  | append_singleton as a ih =>
    rw [keys_gather_concat]
    cases as with
    | nil => rfl
    | cons first as =>
      split
      · exact ih
      · rw [List.head?_append, ih]
        rfl

theorem nodup_keys_gather (as : List α) : (keys (gather key start step as)).Nodup := by
  induction as using List.reverseRecOn with
  | nil => exact List.nodup_nil
  | append_singleton as a ih =>
    rw [gather_concat]
    exact nodup_keys_update ih ..

theorem keys_gather_map {g : α → α} (kept : ∀ a, key (g a) = key a) (as : List α) :
    keys (gather key start step (as.map g)) = keys (gather key start step as) := by
  induction as using List.reverseRecOn with
  | nil => rfl
  | append_singleton as a ih =>
    rw [List.map_append, List.map_singleton, keys_gather_concat, keys_gather_concat, ih, kept]

theorem update_const (key : String) (start start' value : β) :
    update key start (fun _ => value) = update key start' fun _ => value := by
  funext shelf
  induction shelf with
  | nil => rfl
  | cons entry shelf ih => rw [update, update, ih]

/-- A value that is put in again changes those before it under its key, and no others. -/
theorem gather_again {as : List α} {a : α} {g : α → α} (kept : ∀ a, key (g a) = key a)
    (known : ∃ b ∈ as, key b = key a) (others : ∀ b ∈ as, key b ≠ key a → g b = b)
    (changes : collect start step (as.filter (key · == key a) ++ [a]) =
      collect start step ((as.filter (key · == key a)).map g)) :
    gather key start step (as ++ [a]) = gather key start step (as.map g) := by
  have filter_map (k : String) :
      (as.map g).filter (key · == k) = (as.filter (key · == k)).map g := by
    rw [List.filter_map]
    simp only [Function.comp_def, kept]
  refine ext_get? (nodup_keys_gather key start step _) ?order fun k => ?same
  case order =>
    rw [keys_gather_map key start step kept, keys_gather_concat,
      if_pos ((mem_keys_gather key start step).mpr known)]
  case same =>
    rw [get?_gather, get?_gather, filter_map, List.filter_append]
    by_cases own : k = key a
    · subst own
      have some : as.filter (key · == key a) ≠ [] := by
        obtain ⟨b, member, same⟩ := known
        exact List.ne_nil_of_mem (List.mem_filter.mpr ⟨member, beq_iff_eq.mpr same⟩)
      have last : [a].filter (key · == key a) = [a] := by simp
      rw [last, changes, if_neg (by simp), if_neg (by simpa using some)]
    · have none : [a].filter (key · == k) = [] := by simpa using Ne.symm own
      have unchanged : (as.filter (key · == k)).map g = as.filter (key · == k) := by
        refine (List.map_congr_left fun b inside => ?_).trans (List.map_id _)
        obtain ⟨member, same⟩ := List.mem_filter.mp inside
        exact others b member (beq_iff_eq.mp same ▸ own)
      rw [none, List.append_nil, unchanged]

end

end Shelf

structure FontEntry where
  family : String
  weight : String
  style : String
  font : Font

namespace FontEntry

open FontTable

def isOfFamily (e : FontEntry) (family : String) : Bool :=
  normalFamily e.family == normalFamily family

def isOfWeight (e : FontEntry) (weight : String) : Bool :=
  normalWeight e.weight == normalWeight weight

def isOfStyle (e : FontEntry) (style : String) : Bool := normalStyle e.style == normalStyle style

/-- Whether two entries are of one face. -/
def isOfFace (e e' : FontEntry) : Bool :=
  e.isOfFamily e'.family && e.isOfWeight e'.weight && e.isOfStyle e'.style

/-- An entry for a face that is registered again: it has the new font. -/
def renew (again e : FontEntry) : FontEntry :=
  if e.isOfFace again then { e with font := again.font } else e

variable (again e : FontEntry)

@[simp] theorem family_renew : (again.renew e).family = e.family := by
  unfold renew
  split <;> rfl

@[simp] theorem weight_renew : (again.renew e).weight = e.weight := by
  unfold renew
  split <;> rfl

@[simp] theorem style_renew : (again.renew e).style = e.style := by
  unfold renew
  split <;> rfl

variable {again e}

theorem renew_of_other (other : e.isOfFace again = false) : again.renew e = e := by
  simp [renew, other]

theorem font_renew (same : e.isOfFace again = true) : (again.renew e).font = again.font := by
  simp [renew, same]

end FontEntry

abbrev FontLog := List FontEntry

namespace FontLog

open FontTable

def table (log : FontLog) : FontTable :=
  log.foldl (fun t e => t.insert e.family e.weight e.style e.font) .empty

/-- The font of a family. An axis that is not requested is that of the earliest face that is left,
and of several fonts for one face the latest counts. -/
def find (log : FontLog) (family : String) (weight style : Option String) : Except Miss Font := do
  let ofFamily := log.filter (·.isOfFamily family)
  let first ← ofFamily.head?.elim (.error .family) .ok
  let ofWeight := ofFamily.filter (·.isOfWeight (weight.getD first.weight))
  let first ← ofWeight.head?.elim (.error .weight) .ok
  let ofStyle := ofWeight.filter (·.isOfStyle (style.getD first.style))
  let last ← ofStyle.getLast?.elim (.error .style) .ok
  return last.font

/-- What a family in a list gives, if it is generic or has a match. -/
def answer? (log : FontLog) (weight style : Option String) (family : String) : Option Font :=
  if isGeneric family then some Font.helvetica else (log.find family weight style).toOption

/-- The problem of a list without an answer. It names the first family, the weight if there is a
face of the family, and the style if there is one of the family and the weight. -/
def missing (log : FontLog) (tag : String) (wanted : TextAttributes) (list : String) : Problem :=
  match (familyList list).head? with
  | none => .unresolvedFont tag list none none
  | some family =>
    .unresolvedFont tag family
      (wanted.weight.filter fun _ => log.any (·.isOfFamily family))
      (wanted.style.filter fun _ =>
        log.any fun e => e.isOfFamily family && wanted.weight.all e.isOfWeight)

/-- The font that some attributes ask for: that of the first family in the list with an answer. -/
def resolve (log : FontLog) (tag : String) (wanted : TextAttributes) (strict : Bool) :
    Except Problem Font :=
  match wanted.family with
  | none => .ok Font.helvetica
  | some list =>
    match (familyList list).findSome? (log.answer? wanted.weight wanted.style) with
    | some font => .ok font
    | none => if strict then .error (log.missing tag wanted list) else .ok Font.helvetica

def styles (log : FontLog) : Shelf Font :=
  Shelf.gather (fun e => normalStyle e.style) Font.helvetica (fun e _ => e.font) log

def weights (log : FontLog) : Shelf (Shelf Font) :=
  Shelf.gather (fun e => normalWeight e.weight) []
    (fun e => Shelf.update (normalStyle e.style) Font.helvetica fun _ => e.font) log

def families (log : FontLog) : Shelf (Shelf (Shelf Font)) :=
  Shelf.gather (fun e => normalFamily e.family) []
    (fun e => Shelf.update (normalWeight e.weight) []
      (Shelf.update (normalStyle e.style) Font.helvetica fun _ => e.font)) log

theorem families_table (log : FontLog) : log.table.families = log.families := by
  have insert (t : FontTable) (e : FontEntry) :
      (t.insert e.family e.weight e.style e.font).families =
        t.families.update (normalFamily e.family) [] (Shelf.update (normalWeight e.weight) []
          (Shelf.update (normalStyle e.style) Font.helvetica fun _ => e.font)) := by
    rw [FontTable.insert, Shelf.update_const _ e.font Font.helvetica]
  exact (List.foldl_hom FontTable.families fun t e => (insert t e).symm).symm

theorem get?_families (log : FontLog) (family : String) :
    Shelf.get? log.families (normalFamily family) =
      if log.filter (·.isOfFamily family) = [] then none
      else some (weights (log.filter (·.isOfFamily family))) :=
  Shelf.get?_gather ..

theorem get?_weights (log : FontLog) (weight : String) :
    Shelf.get? log.weights (normalWeight weight) =
      if log.filter (·.isOfWeight weight) = [] then none
      else some (styles (log.filter (·.isOfWeight weight))) :=
  Shelf.get?_gather ..

theorem collect_fonts (log : FontLog) : Shelf.collect Font.helvetica (fun e _ => e.font) log =
    (log.getLast?.map FontEntry.font).getD Font.helvetica := by
  induction log using List.reverseRecOn with
  | nil => rfl
  | append_singleton log e ih =>
    rw [Shelf.collect_concat, List.getLast?_concat]
    rfl

theorem get?_styles (log : FontLog) (style : String) :
    Shelf.get? log.styles (normalStyle style) =
      (log.filter (·.isOfStyle style)).getLast?.map FontEntry.font := by
  refine (Shelf.get?_gather ..).trans ?_
  rw [collect_fonts]
  change (if log.filter (·.isOfStyle style) = [] then _ else
    some (((log.filter (·.isOfStyle style)).getLast?.map _).getD _)) = _
  cases some : (log.filter (·.isOfStyle style)).getLast? with
  | none => rw [if_pos (List.getLast?_eq_none_iff.mp some)]; rfl
  | some last =>
    rw [if_neg (fun none => by rw [none] at some; cases some)]
    rfl

theorem choose_gather {α β : Type} (axis : α → String) (normal : String → String) (start : β)
    (step : α → β → β) (first : α) (rest : List α) (requested : Option String) :
    choose (Shelf.gather (fun a => normal (axis a)) start step (first :: rest))
        (requested.map normal) =
      Shelf.get? (Shelf.gather (fun a => normal (axis a)) start step (first :: rest))
        (normal (requested.getD (axis first))) := by
  cases requested with
  | some key => rfl
  | none =>
    have head := Shelf.head?_keys_gather (fun a => normal (axis a)) start step (first :: rest)
    cases gathered : Shelf.gather (fun a => normal (axis a)) start step (first :: rest) with
    | nil =>
      rw [gathered] at head
      cases head
    | cons entry shelf =>
      rw [gathered] at head
      have first : entry.1 = normal (axis first) := Option.some.inj head
      rw [Shelf.get?_cons, Option.getD_none, if_pos first]
      rfl

theorem choose_weights (first : FontEntry) (rest : FontLog) (weight : Option String) :
    choose (weights (first :: rest)) (weight.map normalWeight) =
      if (first :: rest).filter (·.isOfWeight (weight.getD first.weight)) = [] then none
      else some (styles ((first :: rest).filter (·.isOfWeight (weight.getD first.weight)))) :=
  (choose_gather FontEntry.weight ..).trans (get?_weights ..)

theorem choose_styles (first : FontEntry) (rest : FontLog) (style : Option String) :
    choose (styles (first :: rest)) (style.map normalStyle) =
      ((first :: rest).filter (·.isOfStyle (style.getD first.style))).getLast?.map
        FontEntry.font :=
  (choose_gather FontEntry.style ..).trans (get?_styles ..)

/-- One axis after the other, the shelves hold what the log leaves. -/
theorem lookup_table (log : FontLog) (family : String) (weight style : Option String) :
    log.table.lookup family weight style = log.find family weight style := by
  unfold FontTable.lookup find
  rw [families_table, get?_families]
  cases ofFamily : log.filter (·.isOfFamily family) with
  | nil => rfl
  | cons first rest =>
    have weighed := choose_weights first rest weight
    simp only [reduceCtorEq, if_false, List.head?_cons, Option.elim_some, bind, Except.bind,
      weighed]
    cases ofWeight : (first :: rest).filter (·.isOfWeight (weight.getD first.weight)) with
    | nil => rfl
    | cons second others =>
      have styled := choose_styles second others style
      simp only [reduceCtorEq, if_false, List.head?_cons, Option.elim_some, styled]
      cases ((second :: others).filter (·.isOfStyle (style.getD second.style))).getLast? <;> rfl

/-- The axis on which a family is missed says what the log has of it. -/
theorem any_of_find_eq_error {log : FontLog} {family : String} {weight style : Option String}
    {axis : Miss} (missed : log.find family weight style = .error axis) :
    log.any (·.isOfFamily family) = (axis != .family) ∧
      (log.any fun e => e.isOfFamily family && weight.all e.isOfWeight) = (axis == .style) := by
  unfold find at missed
  have inside (e : FontEntry) : e ∈ log.filter (·.isOfFamily family) ↔
      e ∈ log ∧ e.isOfFamily family = true := List.mem_filter
  cases ofFamily : log.filter (·.isOfFamily family) with
  | nil =>
    rw [ofFamily] at missed inside
    cases missed
    have unknown (e : FontEntry) (member : e ∈ log) : e.isOfFamily family = false :=
      Bool.eq_false_iff.mpr fun own => List.not_mem_nil ((inside e).mpr ⟨member, own⟩)
    constructor
    · exact List.any_eq_false.mpr fun e member => by simp [unknown e member]
    · exact List.any_eq_false.mpr fun e member => by simp [unknown e member]
  | cons first rest =>
    simp only [ofFamily, List.head?_cons, Option.elim_some, bind, Except.bind] at missed
    rw [ofFamily] at inside
    have known : log.any (·.isOfFamily family) = true :=
      List.any_eq_true.mpr ⟨first, (inside first).mp (.head rest)⟩
    have weighed (e : FontEntry) : e ∈ (first :: rest).filter
        (·.isOfWeight (weight.getD first.weight)) ↔
          (e ∈ log ∧ e.isOfFamily family = true) ∧ e.isOfWeight (weight.getD first.weight) = true :=
      List.mem_filter.trans (and_congr_left' (inside e))
    cases ofWeight : (first :: rest).filter (·.isOfWeight (weight.getD first.weight)) with
    | nil =>
      rw [ofWeight] at missed weighed
      cases missed
      refine ⟨known, List.any_eq_false.mpr fun e member both => ?_⟩
      rw [Bool.and_eq_true] at both
      cases weight with
      | none =>
        have first := (inside first).mp (.head rest)
        exact List.not_mem_nil ((weighed _).mpr ⟨first, beq_self_eq_true _⟩)
      | some w => exact List.not_mem_nil ((weighed e).mpr ⟨⟨member, both.1⟩, both.2⟩)
    | cons second others =>
      simp only [ofWeight, List.head?_cons, Option.elim_some] at missed
      rw [ofWeight] at weighed
      obtain ⟨⟨member, own⟩, same⟩ := (weighed second).mp (.head others)
      have heavy : (log.any fun e => e.isOfFamily family && weight.all e.isOfWeight) = true := by
        refine List.any_eq_true.mpr ⟨second, member, ?_⟩
        cases weight with
        | none => simp [own]
        | some w => simpa [own] using same
      cases last : ((second :: others).filter (·.isOfStyle (style.getD second.style))).getLast? with
      | none =>
        rw [last] at missed
        cases missed
        exact ⟨known, heavy⟩
      | some e =>
        rw [last] at missed
        cases missed

/-- A family with the axis on which it is missed, if it is. -/
def missed? (log : FontLog) (weight style : Option String) (family : String) :
    Option (String × Miss) :=
  match log.find family weight style with
  | .ok _ => none
  | .error axis => some (family, axis)

/-- By induction on the list: the first answer counts, or else the first miss. -/
theorem search_table (log : FontLog) (weight style : Option String) (names : List String)
    (miss : Option (String × Miss)) : log.table.search weight style names miss =
      match names.findSome? (log.answer? weight style) with
      | some font => .ok font
      | none => .error (miss.or (names.head?.bind (log.missed? weight style))) := by
  induction names generalizing miss with
  | nil => cases miss <;> rfl
  | cons family names ih =>
    rw [FontTable.search, List.findSome?_cons, answer?, lookup_table, List.head?_cons,
      Option.bind_some, missed?]
    split
    · rfl
    · cases found : log.find family weight style with
      | ok font => rfl
      | error axis =>
        have kept : (miss.or (some (family, axis))).or (names.head?.bind
            (log.missed? weight style)) = miss.or (some (family, axis)) := by
          cases miss <;> rfl
        simp only [Except.toOption]
        rw [ih, kept]

theorem missing_eq_filter (tag : String) (wanted : TextAttributes) (family : String) (axis : Miss) :
    FontTable.missing tag wanted family axis = .unresolvedFont tag family
      (wanted.weight.filter fun _ => axis != .family)
      (wanted.style.filter fun _ => axis == .style) := by
  obtain ⟨families, weight, style, size⟩ := wanted
  cases axis <;> cases weight <;> cases style <;> rfl

theorem missing_eq {log : FontLog} (tag : String) {list : String} {wanted : TextAttributes}
    (unanswered : (familyList list).findSome? (log.answer? wanted.weight wanted.style) = none) :
    let miss := ((familyList list).head?.bind (log.missed? wanted.weight wanted.style)).getD
      (list, .family)
    FontTable.missing tag wanted miss.1 miss.2 = log.missing tag wanted list := by
  cases names : familyList list with
  | nil => simp [FontTable.missing, missing, names]
  | cons family names' =>
    rw [names, List.findSome?_cons] at unanswered
    have first : log.answer? wanted.weight wanted.style family = none := by
      cases answer : log.answer? wanted.weight wanted.style family with
      | none => rfl
      | some font =>
        rw [answer] at unanswered
        cases unanswered
    unfold answer? at first
    split at first
    · cases first
    · cases found : log.find family wanted.weight wanted.style with
      | ok font =>
        rw [found] at first
        cases first
      | error axis =>
        obtain ⟨known, heavy⟩ := any_of_find_eq_error found
        simp only [List.head?_cons, Option.bind_some, missed?, found, Option.getD_some, missing,
          names, known, heavy, missing_eq_filter]

theorem resolve_table (log : FontLog) (tag : String) (wanted : TextAttributes) (strict : Bool) :
    log.table.resolve tag wanted strict = log.resolve tag wanted strict := by
  unfold FontTable.resolve resolve
  cases wanted.family with
  | none => rfl
  | some list =>
    simp only [search_table]
    cases answer : (familyList list).findSome? (log.answer? wanted.weight wanted.style) with
    | some font => rfl
    | none =>
      have missing := missing_eq tag answer
      rw [← missing]
      rfl

section

variable {log : FontLog} {again : FontEntry}

theorem styles_again
    (same : ∀ e ∈ log, (e.isOfFamily again.family && e.isOfWeight again.weight) = true)
    (known : ∃ e ∈ log, e.isOfFace again = true) :
    styles (log ++ [again]) = styles (log.map again.renew) := by
  have face {e : FontEntry} (member : e ∈ log) : e.isOfFace again = e.isOfStyle again.style := by
    rw [FontEntry.isOfFace, same e member, Bool.true_and]
  obtain ⟨e, member, known⟩ := known
  rw [face member] at known
  refine Shelf.gather_again _ _ _ (fun e => ?kept) ⟨e, member, beq_iff_eq.mp known⟩
    (fun e member other => ?others) ?changes
  case kept => rw [FontEntry.style_renew]
  case others => exact FontEntry.renew_of_other ((face member).trans (beq_false_of_ne other))
  case changes =>
    change Shelf.collect _ _ (log.filter (·.isOfStyle again.style) ++ [again]) =
      Shelf.collect _ _ ((log.filter (·.isOfStyle again.style)).map again.renew)
    have some : log.filter (·.isOfStyle again.style) ≠ [] :=
      List.ne_nil_of_mem (List.mem_filter.mpr ⟨member, known⟩)
    obtain ⟨inside, own⟩ := List.mem_filter.mp (List.getLast_mem some)
    rw [collect_fonts, collect_fonts, List.getLast?_concat, List.getLast?_map,
      List.getLast?_eq_some_getLast some, Option.map_some, Option.map_some, Option.map_some,
      FontEntry.font_renew ((face inside).trans own)]

theorem weights_again (same : ∀ e ∈ log, e.isOfFamily again.family = true)
    (known : ∃ e ∈ log, e.isOfFace again = true) :
    weights (log ++ [again]) = weights (log.map again.renew) := by
  obtain ⟨e, member, known⟩ := known
  have heavy : e.isOfWeight again.weight = true := by
    rw [FontEntry.isOfFace, Bool.and_eq_true, Bool.and_eq_true] at known
    exact known.1.2
  refine Shelf.gather_again _ _ _ (fun e => ?kept) ⟨e, member, beq_iff_eq.mp heavy⟩
    (fun e member other => ?others) ?changes
  case kept => rw [FontEntry.weight_renew]
  case others =>
    have light : e.isOfWeight again.weight = false := beq_false_of_ne other
    exact FontEntry.renew_of_other (by simp [FontEntry.isOfFace, light])
  case changes =>
    refine styles_again (fun e inside => ?_) ⟨e, List.mem_filter.mpr ⟨member, heavy⟩, known⟩
    obtain ⟨member, heavy⟩ := List.mem_filter.mp inside
    exact Bool.and_eq_true_iff.mpr ⟨same e member, heavy⟩

/-- A face that is registered again stays where it is and has the new font. -/
theorem table_again (known : ∃ e ∈ log, e.isOfFace again = true) :
    table (log ++ [again]) = table (log.map again.renew) := by
  obtain ⟨e, member, known⟩ := known
  have own : e.isOfFamily again.family = true := by
    rw [FontEntry.isOfFace, Bool.and_eq_true, Bool.and_eq_true] at known
    exact known.1.1
  suffices families (log ++ [again]) = families (log.map again.renew) by
    rw [← families_table, ← families_table] at this
    exact congrArg FontTable.mk this
  refine Shelf.gather_again _ _ _ (fun e => ?kept) ⟨e, member, beq_iff_eq.mp own⟩
    (fun e member other => ?others) ?changes
  case kept => rw [FontEntry.family_renew]
  case others =>
    have foreign : e.isOfFamily again.family = false := beq_false_of_ne other
    exact FontEntry.renew_of_other (by simp [FontEntry.isOfFace, foreign])
  case changes =>
    refine weights_again (fun e inside => ?_) ⟨e, List.mem_filter.mpr ⟨member, own⟩, known⟩
    exact (List.mem_filter.mp inside).2

end

/-- A table resolves as the log of its registrations says, and a face that is registered again has
the new font in its old place. -/
theorem resolves_by_log (log : FontLog) :
    (∀ tag wanted strict, log.table.resolve tag wanted strict = log.resolve tag wanted strict) ∧
      ∀ again : FontEntry, (∃ e ∈ log, e.isOfFace again = true) →
        table (log ++ [again]) = table (log.map again.renew) :=
  ⟨resolve_table log, fun _ => table_again⟩

/-- Two weights of a family, one of them under its name and in two styles. -/
def inter : FontLog :=
  [⟨"Inter", "400", "normal", .byName "Regular"⟩, ⟨"\"INTER\"", "Bold", "Normal", .byName "Bold"⟩,
    ⟨" inter ", "700", "italic", .byName "Slanted"⟩]

/-- The same face with another font. -/
def heavier : FontEntry := ⟨"inter", "bold", "normal", .byName "Heavy"⟩

/-- The name of the font for a family list, a weight and a style. -/
def fontName (t : FontTable) (families : String) (weight style : Option String) :
    Except Problem String :=
  (t.resolve "text" ⟨some families, weight, style, 16⟩ true).map Font.name

/-- Without a style the first one registered is taken, with the font that it was given last. A style
that is not there is named, since the weight is there, and a missing family alone. -/
theorem resolves_by_log_inter :
    let t := table (inter ++ [heavier])
    t = table (inter.map heavier.renew) ∧
      fontName t "Roboto, 'Inter'" (some "700") none = .ok "Heavy" ∧
      fontName t "Inter, Roboto" (some "bold") (some "oblique") =
        .error (.unresolvedFont "text" "Inter" (some "bold") (some "oblique")) ∧
      fontName t "Roboto, Inter" (some "900") (some "oblique") =
        .error (.unresolvedFont "text" "Roboto" none none) := by
  have known : ∃ e ∈ inter, e.isOfFace heavier = true := by decide +kernel
  refine ⟨(resolves_by_log inter).2 heavier known, ?_⟩
  simp only [fontName, (resolves_by_log (inter ++ [heavier])).1]
  decide +kernel

end FontLog

end SvgPage
