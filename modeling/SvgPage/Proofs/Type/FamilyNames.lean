import SvgPage.Proofs.Shelf
import SvgPage.Proofs.Text.Pieces
import SvgPage.Type.FontTable

/-!
# Names of families

A face is registered under its whole name, and asked for by an entry of a list. Between quotes a
name is an entry as it stands, unless there is a comma in it: quotes do not keep an entry together,
so no entry of any list is a name with a comma.
-/

namespace SvgPage

namespace Text

variable {cs : List Char}

theorem unquote_of_plain (plain : ∀ c ∈ cs, c ≠ '"' ∧ c ≠ '\'') : unquote cs = cs := by
  have double : trimBy (· == '"') ([] ++ (cs ++ [])) = cs :=
    trimBy_append (fun c inside => by simp [(plain c inside).1]) nofun nofun
  have single : trimBy (· == '\'') ([] ++ (cs ++ [])) = cs :=
    trimBy_append (fun c inside => by simp [(plain c inside).2]) nofun nofun
  rw [List.nil_append, List.append_nil] at double single
  rw [unquote, double, single]

theorem unquote_between (plain : ∀ c ∈ cs, c ≠ '"' ∧ c ≠ '\'') :
    unquote (['"'] ++ (cs ++ ['"'])) = cs := by
  have double : trimBy (· == '"') (['"'] ++ (cs ++ ['"'])) = cs :=
    trimBy_append (fun c inside => by simp [(plain c inside).1]) (by simp) (by simp)
  have single : trimBy (· == '\'') ([] ++ (cs ++ [])) = cs :=
    trimBy_append (fun c inside => by simp [(plain c inside).2]) nofun nofun
  rw [List.nil_append, List.append_nil] at single
  rw [unquote, double, single]

theorem trim_between (cs : List Char) : trim (['"'] ++ (cs ++ ['"'])) = ['"'] ++ (cs ++ ['"']) := by
  have visible : ¬isBlank '"' = true := by decide
  rw [trim, trimBy, List.singleton_append, List.dropWhile_cons_of_neg visible,
    dropTail_eq_rdropWhile, ← List.cons_append, List.rdropWhile_concat_neg _ _ _ visible]

theorem mem_trim_comma : ',' ∈ trim cs ↔ ',' ∈ cs :=
  ⟨mem_of_mem_trimBy, fun inside => mem_trimBy_of_mem inside (by decide)⟩

theorem mem_unquote_comma : ',' ∈ unquote cs ↔ ',' ∈ cs := by
  constructor
  · exact fun inside => mem_of_mem_trimBy (mem_of_mem_trimBy inside)
  · exact fun inside => mem_trimBy_of_mem (mem_trimBy_of_mem inside (by decide)) (by decide)

theorem toLower_eq_comma {c : Char} : c.toLower = ',' ↔ c = ',' := by
  constructor
  · intro lowered
    unfold Char.toLower at lowered
    split at lowered
    · next upper =>
      have value := congrArg UInt32.toNat (congrArg Char.val lowered)
      rw [UInt32.toNat_add] at value
      simp only [ge_iff_le, UInt32.le_iff_toNat_le] at upper
      change 65 ≤ c.val.toNat ∧ c.val.toNat ≤ 90 at upper
      change (c.val.toNat + 32) % 2 ^ 32 = 44 at value
      omega
    · exact lowered
  · rintro rfl
    rfl

theorem mem_lower_comma : ',' ∈ lower cs ↔ ',' ∈ cs := by
  simp [lower, toLower_eq_comma]

end Text

namespace FontTable

variable {t : FontTable} {family weight style : String} {font : Font}

theorem mem_normalFamily_comma : ',' ∈ (normalFamily family).toList ↔ ',' ∈ family.toList := by
  rw [normalFamily, String.toList_ofList, Text.mem_lower_comma, Text.mem_trim_comma,
    Text.mem_unquote_comma, Text.mem_trim_comma]

theorem no_comma_of_mem_familyList {list entry : String} (member : entry ∈ familyList list) :
    ',' ∉ entry.toList := by
  obtain ⟨inside, -⟩ := List.mem_filter.mp member
  obtain ⟨piece, isPiece, rfl⟩ := List.mem_map.mp inside
  rw [String.toList_ofList, Text.mem_trim_comma, Text.mem_unquote_comma, Text.mem_trim_comma]
  intro comma
  have := Text.whole_of_mem_pieces isPiece ',' comma
  cases this

theorem lookup_insert_self {entry : String} (same : normalFamily entry = normalFamily family) :
    (t.insert family weight style font).lookup entry (some weight) (some style) = .ok font := by
  simp only [lookup, insert, same, choose, Option.map_some, Shelf.get?_update, if_true,
    Option.elim_some, bind, Except.bind]

theorem lookup_insert_of_ne {entry : String} (other : normalFamily entry ≠ normalFamily family)
    (weight' style' : Option String) :
    (t.insert family weight style font).lookup entry weight' style' =
      t.lookup entry weight' style' := by
  rw [lookup, insert, Shelf.get?_update, if_neg other, lookup]

/-- By induction on the list: where no entry is the family, nothing has changed. -/
theorem search_insert_of_ne {names : List String}
    (others : ∀ entry ∈ names, normalFamily entry ≠ normalFamily family)
    (weight' style' : Option String) (miss : Option (String × Miss)) :
    (t.insert family weight style font).search weight' style' names miss =
      t.search weight' style' names miss := by
  induction names generalizing miss with
  | nil => rfl
  | cons entry names ih =>
    rw [search, search, lookup_insert_of_ne (others entry (.head names))]
    simp only [ih fun entry member => others entry (.tail _ member)]

theorem resolve_insert_comma (comma : ',' ∈ family.toList) (tag : String)
    (wanted : TextAttributes) (strict : Bool) :
    (t.insert family weight style font).resolve tag wanted strict =
      t.resolve tag wanted strict := by
  have others (list entry : String) (member : entry ∈ familyList list) :
      normalFamily entry ≠ normalFamily family := by
    intro same
    refine no_comma_of_mem_familyList member ?_
    rwa [← mem_normalFamily_comma, same, mem_normalFamily_comma]
  unfold resolve
  cases wanted.family with
  | none => rfl
  | some list => simp only [search_insert_of_ne (others list)]

def inQuotes (family : String) : String := String.ofList (['"'] ++ (family.toList ++ ['"']))

/-- A family name that can stand between quotes, is not blank, and is that of no generic family. -/
structure Nameable (family : String) : Prop where
  plain : ∀ c ∈ family.toList, c ≠ '"' ∧ c ≠ '\''
  filled : Text.trim family.toList ≠ []
  specific : isGeneric (String.ofList (Text.trim family.toList)) = false

theorem familyList_inQuotes (h : Nameable family) (whole : ',' ∉ family.toList) :
    familyList (inQuotes family) = [String.ofList (Text.trim family.toList)] := by
  have closed (c : Char) (inside : c ∈ ['"'] ++ (family.toList ++ ['"'])) : (c == ',') = false := by
    rw [beq_eq_false_iff_ne]
    rintro rfl
    simp [whole] at inside
  rw [familyList, inQuotes, String.toList_ofList, Text.pieces_of_whole closed, List.map_singleton,
    Text.trim_between, Text.unquote_between h.plain]
  exact List.filter_cons_of_pos (by simpa using h.filled)

theorem normalFamily_trim (plain : ∀ c ∈ family.toList, c ≠ '"' ∧ c ≠ '\'') :
    normalFamily (String.ofList (Text.trim family.toList)) = normalFamily family := by
  have unquoted : Text.unquote (Text.trim family.toList) = Text.trim family.toList :=
    Text.unquote_of_plain fun c inside => plain c (Text.mem_of_mem_trimBy inside)
  rw [normalFamily, normalFamily, String.toList_ofList, Text.trim_trim, unquoted]

theorem resolve_inQuotes (h : Nameable family) (whole : ',' ∉ family.toList) (size : Float)
    (tag : String) (strict : Bool) :
    (t.insert family weight style font).resolve tag
      ⟨some (inQuotes family), some weight, some style, size⟩ strict = .ok font := by
  have found : (t.insert family weight style font).lookup
      (String.ofList (Text.trim family.toList)) (some weight) (some style) = .ok font :=
    lookup_insert_self (normalFamily_trim h.plain)
  simp only [resolve, familyList_inQuotes h whole, search, h.specific, found]
  rfl

/-- A registered family is found under its name between quotes, whatever the table held before, if
and only if there is no comma in the name. One with a comma is never found: its registration changes
no answer at all. -/
theorem named_iff_no_comma (t : FontTable) {family : String} (nameable : Nameable family) :
    ((∀ weight style font size tag strict, (t.insert family weight style font).resolve tag
        ⟨some (inQuotes family), some weight, some style, size⟩ strict = .ok font) ↔
      ',' ∉ family.toList) ∧
    (',' ∈ family.toList → ∀ weight style font tag wanted strict,
      (t.insert family weight style font).resolve tag wanted strict =
        t.resolve tag wanted strict) := by
  refine ⟨⟨fun found comma => ?_, fun whole weight style font size tag strict => ?_⟩,
    fun comma weight style font => resolve_insert_comma comma⟩
  · -- With a comma two fonts would be found in one and the same table.
    have first := found "" "" (.byName "a") 0 "" true
    have second := found "" "" (.byName "b") 0 "" true
    rw [resolve_insert_comma comma] at first second
    have same := congrArg Font.name (Except.ok.inj (first.symm.trans second))
    exact absurd same (by decide)
  · exact resolve_inQuotes nameable whole size tag strict

theorem nameable_foo_bar : Nameable "Foo, Bar" :=
  ⟨List.forall_iff_forall_mem.mp (by decide +kernel), by decide +kernel, by decide +kernel⟩

/-- A name with a blank and a full stop is found. Where there is a comma in place of the stop, the
request comes apart and finds the font of another family. -/
theorem named_iff_no_comma_pair :
    let foo := empty.insert "Foo" "400" "normal" (.byName "Foo")
    let request (family : String) : TextAttributes :=
      ⟨some (inQuotes family), some "400", some "normal", 16⟩
    (foo.insert "Foo. Bar" "400" "normal" (.byName "Both")).resolve "text" (request "Foo. Bar")
        true = .ok (.byName "Both") ∧
      (foo.insert "Foo, Bar" "400" "normal" (.byName "Both")).resolve "text" (request "Foo, Bar")
          true = foo.resolve "text" (request "Foo, Bar") true ∧
        (foo.resolve "text" (request "Foo, Bar") true).map Font.name = .ok "Foo" := by
  intro foo request
  have stop : Nameable "Foo. Bar" :=
    ⟨List.forall_iff_forall_mem.mp (by decide +kernel), by decide +kernel, by decide +kernel⟩
  refine ⟨?_, ?_, by decide +kernel⟩
  · exact (named_iff_no_comma foo stop).1.mpr (by decide +kernel) _ _ _ _ _ _
  · exact (named_iff_no_comma foo nameable_foo_bar).2 (by decide +kernel) _ _ _ _ _ _

/-- Not every registered family can be named: one with a comma is a problem of its first part. -/
theorem not_named_comma : ¬∀ (t : FontTable) (family : String), Nameable family →
    ∀ weight style font size tag strict, (t.insert family weight style font).resolve tag
      ⟨some (inQuotes family), some weight, some style, size⟩ strict = .ok font := by
  intro all
  have found := all empty "Foo, Bar" nameable_foo_bar "400" "normal" (.byName "Both") 16 "text" true
  have missed : ((empty.insert "Foo, Bar" "400" "normal" (.byName "Both")).resolve "text"
      ⟨some (inQuotes "Foo, Bar"), some "400", some "normal", 16⟩ true).map Font.name =
        .error (.unresolvedFont "text" "Foo" none none) := by decide +kernel
  rw [found] at missed
  cases missed

end FontTable

end SvgPage
