import Mathlib.Data.List.DropRight
import Mathlib.Data.List.TakeWhile
import Mathlib.Tactic.SplitIfs
import SvgPage.Text.Chars

/-!
# Pieces of text

Words that are joined with a separator between them come apart again where it stands. The fields of
a text are the words that are left when it is cut at every run of separators.
-/

namespace SvgPage.Text

variable {p : Char → Bool}

theorem pieces_append_cons {word : List Char} (whole : ∀ c ∈ word, p c = false) {c : Char}
    (separates : p c = true) (cs : List Char) :
    pieces p (word ++ c :: cs) = word :: pieces p cs := by
  induction word with
  | nil => simp [pieces, separates]
  | cons d word ih =>
    have rest := ih fun c inside => whole c (.tail d inside)
    simp [pieces, rest, whole d (.head word)]

theorem pieces_of_whole {word : List Char} (whole : ∀ c ∈ word, p c = false) :
    pieces p word = [word] := by
  induction word with
  | nil => rfl
  | cons d word ih =>
    have rest := ih fun c inside => whole c (.tail d inside)
    simp [pieces, rest, whole d (.head word)]

theorem whole_of_mem_pieces {cs word : List Char} (member : word ∈ pieces p cs) :
    ∀ c ∈ word, p c = false := by
  induction cs generalizing word with
  | nil =>
    rw [pieces, List.mem_singleton] at member
    simp [member]
  | cons d cs ih =>
    unfold pieces at member
    split_ifs at member with separates
    · obtain rfl | member := List.mem_cons.mp member
      · nofun
      · exact ih member
    · cases rest : pieces p cs with
      | nil =>
        rw [rest, List.mem_singleton] at member
        simpa [member] using separates
      | cons piece others =>
        rw [rest] at member ih
        obtain rfl | member := List.mem_cons.mp member
        · exact List.forall_mem_cons.mpr ⟨by simpa using separates, ih (.head others)⟩
        · exact ih (.tail piece member)

theorem fields_join {c : Char} (separates : p c = true) {words : List (List Char)}
    (whole : ∀ word ∈ words, word ≠ [] ∧ ∀ c ∈ word, p c = false) :
    fields p (join [c] words) = words := by
  induction words with
  | nil => rfl
  | cons word words ih =>
    obtain ⟨filled, closed⟩ := whole word (.head words)
    have rest := ih fun w inside => whole w (.tail word inside)
    cases words with
    | nil => simp [join, fields, pieces_of_whole closed, filled]
    | cons next words =>
      have joined : join [c] (word :: next :: words) = word ++ c :: join [c] (next :: words) := by
        simp [join]
      rw [fields, joined, pieces_append_cons closed separates,
        List.filter_cons_of_pos (by simpa using filled)]
      exact congrArg _ rest

/-- Words with runs of separators around them; at least one separator stands between two words. -/
inductive Separated (p : Char → Bool) : List Char → List (List Char) → Prop
  | gap {gap} : (∀ c ∈ gap, p c = true) → Separated p gap []
  | word {gap word rest words} : (∀ c ∈ gap, p c = true) → word ≠ [] →
      (∀ c ∈ word, p c = false) → (∀ c ∈ rest.head?, p c = true) → Separated p rest words →
        Separated p (gap ++ (word ++ rest)) (word :: words)

theorem fields_cons {c : Char} (separates : p c = true) (cs : List Char) :
    fields p (c :: cs) = fields p cs := by
  simp [fields, pieces, separates]

theorem fields_gap_append {gap : List Char} (separates : ∀ c ∈ gap, p c = true) (cs : List Char) :
    fields p (gap ++ cs) = fields p cs := by
  induction gap with
  | nil => rfl
  | cons c gap ih =>
    rw [List.cons_append, fields_cons (separates c (.head gap))]
    exact ih fun d inside => separates d (.tail c inside)

theorem fields_word_append {word rest : List Char} (filled : word ≠ [])
    (whole : ∀ c ∈ word, p c = false) (stops : ∀ c ∈ rest.head?, p c = true) :
    fields p (word ++ rest) = word :: fields p rest := by
  have kept : (!word.isEmpty) = true := by simpa using filled
  cases rest with
  | nil => simp [fields, pieces_of_whole whole, pieces, kept]
  | cons c rest =>
    have separates : p c = true := stops c rfl
    rw [fields_cons separates, fields, pieces_append_cons whole separates]
    exact List.filter_cons_of_pos kept

theorem exists_word (p : Char → Bool) (cs : List Char) :
    (∀ c ∈ cs, p c = true) ∨ ∃ gap word rest, cs = gap ++ (word ++ rest) ∧
      (∀ c ∈ gap, p c = true) ∧ word ≠ [] ∧ (∀ c ∈ word, p c = false) ∧
        ∀ c ∈ rest.head?, p c = true := by
  have gap : ∀ c ∈ cs.takeWhile p, p c = true := fun c inside => List.mem_takeWhile_imp inside
  have split : cs = cs.takeWhile p ++ cs.dropWhile p := List.takeWhile_append_dropWhile.symm
  cases some : cs.dropWhile p with
  | nil =>
    rw [some, List.append_nil] at split
    exact .inl (split ▸ gap)
  | cons d ds =>
    have first : p d = false := by
      have := List.head?_dropWhile_not p cs
      rwa [some, List.head?_cons] at this
    refine .inr ⟨cs.takeWhile p, d :: ds.takeWhile (!p ·), ds.dropWhile (!p ·), ?_, gap,
      List.cons_ne_nil _ _, ?_, ?_⟩
    · rw [List.cons_append, List.takeWhile_append_dropWhile, ← some, ← split]
    · refine List.forall_mem_cons.mpr ⟨first, fun c inside => ?_⟩
      simpa using List.mem_takeWhile_imp inside
    · intro c head
      have := List.head?_dropWhile_not (!p ·) ds
      rw [Option.mem_def.mp head] at this
      simpa using this

/-- By induction on the length, since each step takes a run of separators and a whole word. -/
theorem separated_fields (p : Char → Bool) (cs : List Char) : Separated p cs (fields p cs) := by
  obtain separates | ⟨gap, word, rest, split, separates, filled, whole, stops⟩ := exists_word p cs
  · have none : fields p cs = [] := by
      rw [← List.append_nil cs, fields_gap_append separates]
      rfl
    rw [none]
    exact .gap separates
  · have shorter : rest.length < cs.length := by
      have := List.length_pos_iff.mpr filled
      rw [split, List.length_append, List.length_append]
      omega
    rw [split, fields_gap_append separates, fields_word_append filled whole stops]
    exact .word separates filled whole stops (separated_fields p rest)
termination_by cs.length

theorem fields_eq_iff {cs : List Char} {words : List (List Char)} :
    fields p cs = words ↔ Separated p cs words := by
  constructor
  · rintro rfl
    exact separated_fields p cs
  · intro h
    induction h with
    | @gap gap separates =>
      rw [← List.append_nil gap, fields_gap_append separates]
      rfl
    | word separates filled whole stops _ ih =>
      rw [fields_gap_append separates, fields_word_append filled whole stops, ih]

theorem fields_eq_nil_iff {cs : List Char} : fields p cs = [] ↔ ∀ c ∈ cs, p c = true := by
  rw [fields_eq_iff]
  constructor
  · rintro ⟨separates⟩
    exact separates
  · exact .gap

theorem dropTail_eq_nil {cs : List Char} (drops : ∀ c ∈ cs, p c = true) : dropTail p cs = [] := by
  induction cs with
  | nil => rfl
  | cons c cs ih =>
    have rest := ih fun d inside => drops d (.tail c inside)
    simp [dropTail, rest, drops c (.head cs)]

theorem dropTail_append {word tail : List Char} (whole : ∀ c ∈ word, p c = false)
    (drops : ∀ c ∈ tail, p c = true) : dropTail p (word ++ tail) = word := by
  induction word with
  | nil => exact dropTail_eq_nil drops
  | cons c word ih =>
    have rest := ih fun d inside => whole d (.tail c inside)
    rw [List.cons_append, dropTail, rest]
    cases word with
    | nil => simp [whole c (.head [])]
    | cons d word => rfl

theorem exists_tail (p : Char → Bool) (cs : List Char) :
    ∃ tail, cs = dropTail p cs ++ tail ∧ ∀ c ∈ tail, p c = true := by
  induction cs with
  | nil => exact ⟨[], rfl, by simp⟩
  | cons c cs ih =>
    obtain ⟨tail, split, drops⟩ := ih
    unfold dropTail
    cases rest : dropTail p cs with
    | nil =>
      rw [rest, List.nil_append] at split
      by_cases drop : p c = true
      · refine ⟨c :: tail, by simp [drop, split], ?_⟩
        exact List.forall_mem_cons.mpr ⟨drop, drops⟩
      · exact ⟨tail, by simp [drop, split], drops⟩
    | cons d ds =>
      rw [rest] at split
      exact ⟨tail, congrArg (c :: ·) split, drops⟩

theorem trimBy_append {front word tail : List Char} (whole : ∀ c ∈ word, p c = false)
    (before : ∀ c ∈ front, p c = true) (after : ∀ c ∈ tail, p c = true) :
    trimBy p (front ++ (word ++ tail)) = word := by
  rw [trimBy, List.dropWhile_append_of_pos before]
  cases word with
  | nil =>
    apply dropTail_eq_nil
    intro c inside
    exact after c ((List.dropWhile_suffix p).subset inside)
  | cons d word =>
    have first : ¬p d = true := by simp [whole d (.head word)]
    rw [List.cons_append, List.dropWhile_cons_of_neg first, ← List.cons_append]
    exact dropTail_append whole after

theorem exists_ends (p : Char → Bool) (cs : List Char) :
    ∃ front tail, cs = front ++ (trimBy p cs ++ tail) ∧ (∀ c ∈ front, p c = true) ∧
      ∀ c ∈ tail, p c = true := by
  obtain ⟨tail, split, after⟩ := exists_tail p (cs.dropWhile p)
  refine ⟨cs.takeWhile p, tail, ?_, fun c inside => List.mem_takeWhile_imp inside, after⟩
  rw [trimBy, ← split, List.takeWhile_append_dropWhile]

theorem mem_of_mem_trimBy {c : Char} {cs : List Char} (inside : c ∈ trimBy p cs) : c ∈ cs := by
  obtain ⟨front, tail, split, -, -⟩ := exists_ends p cs
  rw [split]
  exact List.mem_append_right front (List.mem_append_left tail inside)

theorem mem_trimBy_of_mem {c : Char} {cs : List Char} (inside : c ∈ cs) (stays : p c = false) :
    c ∈ trimBy p cs := by
  obtain ⟨front, tail, split, before, after⟩ := exists_ends p cs
  rw [split, List.mem_append, List.mem_append] at inside
  rcases inside with h | h | h
  · simp [before c h] at stays
  · exact h
  · simp [after c h] at stays

theorem dropTail_eq_rdropWhile (p : Char → Bool) (cs : List Char) :
    dropTail p cs = cs.rdropWhile p := by
  induction cs with
  | nil => rfl
  | cons c cs ih =>
    rw [dropTail, ih, List.rdropWhile, List.rdropWhile, List.reverse_cons, List.dropWhile_append]
    cases rest : cs.reverse.dropWhile p with
    | nil => by_cases drop : p c <;> simp [drop]
    | cons d ds => simp

theorem dropWhile_dropTail {cs : List Char} (h : cs.dropWhile p = cs) :
    (dropTail p cs).dropWhile p = dropTail p cs := by
  rw [dropTail_eq_rdropWhile, List.dropWhile_eq_self_iff]
  rw [List.dropWhile_eq_self_iff] at h
  intro some
  have front := List.rdropWhile_prefix p cs
  rw [front.getElem]
  exact h (Nat.lt_of_lt_of_le some front.length_le)

theorem trim_trim (cs : List Char) : trim (trim cs) = trim cs := by
  unfold trim trimBy
  rw [dropWhile_dropTail (List.dropWhile_idempotent _ cs), dropTail_eq_rdropWhile,
    dropTail_eq_rdropWhile, List.rdropWhile_idempotent]

theorem mem_join {c d : Char} {words : List (List Char)} (inside : d ∈ join [c] words) :
    d = c ∨ ∃ word ∈ words, d ∈ word := by
  induction words with
  | nil => cases inside
  | cons word words ih =>
    cases words with
    | nil => exact .inr ⟨word, .head _, inside⟩
    | cons next words =>
      simp only [join, List.mem_append, List.mem_singleton, or_assoc] at inside
      rcases inside with h | h | h
      · exact .inr ⟨word, .head _, h⟩
      · exact .inl h
      · exact (ih h).imp_right fun ⟨w, member, h⟩ => ⟨w, .tail _ member, h⟩

theorem splitFirst?_append_cons {word : List Char} (whole : ∀ c ∈ word, p c = false) {c : Char}
    (ends : p c = true) (cs : List Char) : splitFirst? p (word ++ c :: cs) = some (word, cs) := by
  induction word with
  | nil => simp [splitFirst?, ends]
  | cons d word ih =>
    have rest := ih fun c inside => whole c (.tail d inside)
    simp [splitFirst?, rest, whole d (.head word)]

theorem length_of_splitFirst? {cs before after : List Char}
    (split : splitFirst? p cs = some (before, after)) : after.length < cs.length := by
  induction cs generalizing before with
  | nil => cases split
  | cons c cs ih =>
    unfold splitFirst? at split
    split_ifs at split
    · cases split
      exact Nat.lt_succ_self _
    · obtain ⟨⟨front, back⟩, rest, same⟩ := Option.map_eq_some_iff.mp split
      cases same
      exact Nat.lt_succ_of_lt (ih rest)

theorem exists_of_splitFirst? {cs before after : List Char}
    (split : splitFirst? p cs = some (before, after)) :
    ∃ c, cs = before ++ c :: after ∧ p c = true ∧ ∀ d ∈ before, p d = false := by
  induction cs generalizing before with
  | nil => cases split
  | cons c cs ih =>
    unfold splitFirst? at split
    split_ifs at split with ends
    · cases split
      exact ⟨c, rfl, ends, by simp⟩
    · obtain ⟨⟨front, back⟩, rest, same⟩ := Option.map_eq_some_iff.mp split
      cases same
      obtain ⟨d, rfl, ends', whole⟩ := ih rest
      exact ⟨d, rfl, ends', List.forall_mem_cons.mpr ⟨by simpa using ends, whole⟩⟩

end SvgPage.Text
