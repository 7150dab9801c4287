import Mathlib.Data.List.Infix
import SvgPage.Proofs.Text.Collapse

/-!
# Ends of texts

White space around a text is trimmed away, whatever stands inside, and letter case has no part in
that. A word at the end of a text is the last one of its kind.
-/

namespace SvgPage.Text

variable {p : Char → Bool} {cs word : List Char}

def AllBlank (cs : List Char) : Prop := ∀ c ∈ cs, isBlank c = true

instance (cs : List Char) : Decidable (AllBlank cs) := List.decidableBAll _ _

theorem trimBy_between {front tail : List Char} (before : ∀ c ∈ front, p c = true)
    (after : ∀ c ∈ tail, p c = true) (cs : List Char) :
    trimBy p (front ++ (cs ++ tail)) = trimBy p cs := by
  rw [trimBy, trimBy, List.dropWhile_append_of_pos before, List.dropWhile_append]
  split
  · next none =>
    rw [List.isEmpty_iff] at none
    rw [none, dropTail_eq_nil fun c inside => after c ((List.dropWhile_suffix p).subset inside)]
    rfl
  · exact dropTail_append_of_eq_nil _ (dropTail_eq_nil after)

theorem dropTail_of_trimBy (trimmed : trimBy p cs = cs) : dropTail p cs = cs := by
  have again : dropTail p (trimBy p cs) = trimBy p cs := by
    rw [trimBy, dropTail_eq_rdropWhile, dropTail_eq_rdropWhile, List.rdropWhile_idempotent]
  rwa [trimmed] at again

theorem dropWhile_of_trimBy (trimmed : trimBy p cs = cs) : cs.dropWhile p = cs := by
  have again := dropWhile_dropTail (List.dropWhile_idempotent p cs)
  rwa [← trimBy, trimmed] at again

/-- A text is not trimmed if it begins and ends with texts that are not trimmed at these ends. -/
theorem trimBy_append_of_ends {ds : List Char} (begins : trimBy p cs = cs) (filled : cs ≠ [])
    (ends : dropTail p ds = ds) : trimBy p (cs ++ ds) = cs ++ ds := by
  have front : (cs ++ ds).dropWhile p = cs ++ ds := by
    rw [List.dropWhile_append, dropWhile_of_trimBy begins, if_neg (by simpa using filled)]
  rw [trimBy, front]
  by_cases none : ds = []
  · rw [none, List.append_nil, dropTail_of_trimBy begins]
  · rw [dropTail_append_of_ne_nil cs (by rwa [ends]), ends]

theorem toLower_cases (c : Char) : c.toLower = c ∨
    (65 ≤ c.toNat ∧ c.toNat ≤ 90) ∧ 97 ≤ c.toLower.toNat ∧ c.toLower.toNat ≤ 122 := by
  unfold Char.toLower
  split
  · next upper =>
    simp only [ge_iff_le, UInt32.le_iff_toNat_le] at upper
    have capital : 65 ≤ c.toNat ∧ c.toNat ≤ 90 := upper
    refine .inr ⟨capital, ?_⟩
    change 97 ≤ (c.val + 32).toNat ∧ (c.val + 32).toNat ≤ 122
    have value : (c.val + 32).toNat = (c.toNat + 32) % 2 ^ 32 := UInt32.toNat_add ..
    omega
  · exact .inl rfl

theorem isBlank_toLower (c : Char) : isBlank c.toLower = isBlank c := by
  obtain same | ⟨capital, small⟩ := toLower_cases c
  · rw [same]
  · simp only [isBlank]
    grind

theorem dropWhile_lower (cs : List Char) :
    (lower cs).dropWhile isBlank = lower (cs.dropWhile isBlank) := by
  rw [lower, List.dropWhile_map]
  exact congrArg (List.map Char.toLower) (congrArg (List.dropWhile · cs) (funext isBlank_toLower))

theorem dropTail_lower (cs : List Char) :
    dropTail isBlank (lower cs) = lower (dropTail isBlank cs) := by
  have reversed : (lower cs).reverse = lower cs.reverse := (List.map_reverse ..).symm
  rw [dropTail_eq_rdropWhile, dropTail_eq_rdropWhile, List.rdropWhile, List.rdropWhile, reversed,
    dropWhile_lower]
  exact (List.map_reverse ..).symm

theorem dropTail_of_lower (whole : dropTail isBlank (lower cs) = lower cs) :
    dropTail isBlank cs = cs := by
  obtain ⟨tail, split, -⟩ := exists_tail isBlank cs
  have short := congrArg List.length whole
  have long := congrArg List.length split
  rw [dropTail_lower, lower, lower, List.length_map, List.length_map] at short
  rw [List.length_append, short] at long
  have none : tail = [] := List.eq_nil_of_length_eq_zero (by omega)
  rwa [none, List.append_nil, eq_comm] at split

theorem trim_lower (cs : List Char) : trim (lower cs) = lower (trim cs) := by
  rw [trim, trimBy, dropWhile_lower, dropTail_lower]
  rfl

theorem after?_append (word cs : List Char) : after? word (word ++ cs) = some cs := by
  induction word with
  | nil => rfl
  | cons c word ih => rw [List.cons_append, after?, if_pos rfl, ih]

theorem eq_append_of_after? {rest : List Char} (found : after? word cs = some rest) :
    cs = word ++ rest := by
  fun_induction after? word cs with
  | case1 cs => exact Option.some.inj found
  | case2 => cases found
  | case3 p ps cs ih => rw [ih found, List.cons_append]
  | case4 => cases found

theorem beforeLast?_eq_none (absent : ¬word <:+: cs) : beforeLast? word cs = none := by
  induction cs with
  | nil =>
    have filled : word ≠ [] := by
      rintro rfl
      exact absent List.nil_infix
    simp [beforeLast?, filled]
  | cons c cs ih =>
    have here : after? word (c :: cs) = none := by
      by_contra found
      obtain ⟨rest, found⟩ := Option.ne_none_iff_exists'.mp found
      exact absent ⟨[], rest, (eq_append_of_after? found).symm⟩
    have later : beforeLast? word cs = none :=
      ih fun inside => absent (inside.trans (List.suffix_cons c cs).isInfix)
    rw [beforeLast?, later, here]
    rfl

/-- At the end of a text a word is met last, since it cannot begin again in what follows. -/
theorem beforeLast?_append (filled : word ≠ []) (cs : List Char) :
    beforeLast? word (cs ++ word) = some cs := by
  induction cs with
  | nil =>
    obtain ⟨c, rest, rfl⟩ := List.exists_cons_of_ne_nil filled
    have later : beforeLast? (c :: rest) rest = none :=
      beforeLast?_eq_none fun inside => Nat.not_succ_le_self _ inside.length_le
    have here : after? (c :: rest) (c :: rest) = some [] := by
      simpa using after?_append (c :: rest) []
    rw [List.nil_append, beforeLast?, later, here]
    rfl
  | cons c cs ih => rw [List.cons_append, beforeLast?, ih]

end SvgPage.Text
