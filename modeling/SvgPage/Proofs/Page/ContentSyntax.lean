import SvgPage.Page.Stream
import SvgPage.Proofs.Number.Shortest
import SvgPage.Proofs.Text.Pieces

/-!
# The syntax of content streams

Tokens are words, names, strings of bytes and lists. White space stands between tokens that would
run together. What is written for an operation is read as one token for each operand and the
keyword after them.
-/

namespace SvgPage.Content

def isSpace (c : Char) : Bool := ['\x00', '\t', '\n', '\x0c', '\r', ' '].contains c

def isDelimiter (c : Char) : Bool :=
  ['(', ')', '<', '>', '[', ']', '\x7b', '\x7d', '/', '%'].contains c

def isRegular (c : Char) : Bool := !isSpace c && !isDelimiter c

/-- A word is a numeral or a keyword. -/
inductive Token where
  | word (cs : List Char)
  | name (cs : List Char)
  | bytes (bs : List UInt8)
  | list (words : List (List Char))
  deriving DecidableEq

def hexValue? (c : Char) : Option Nat :=
  let place := "0123456789ABCDEF".toList.idxOf c.toUpper
  if place < 16 then some place else none

def hexBytes? : List Char → Option (List UInt8)
  | [] => some []
  | [_] => none
  | c :: d :: cs => do
    let high ← hexValue? c
    let low ← hexValue? d
    let bs ← hexBytes? cs
    return UInt8.ofNat (16 * high + low) :: bs

def token? : List Char → Option (Token × List Char)
  | [] => none
  | c :: cs =>
    if c = '/' then some (.name (cs.takeWhile isRegular), cs.dropWhile isRegular)
    else if c = '<' then do
      let (digits, rest) ← Text.splitFirst? (· == '>') cs
      return (.bytes (← hexBytes? digits), rest)
    else if c = '[' then do
      let (inside, rest) ← Text.splitFirst? (· == ']') cs
      return (.list (Text.fields isSpace inside), rest)
    else if isRegular c then
      some (.word (c :: cs.takeWhile isRegular), cs.dropWhile isRegular)
    else none

theorem length_of_token? {cs rest : List Char} {t : Token} (h : token? cs = some (t, rest)) :
    rest.length < cs.length := by
  cases cs with
  | nil => cases h
  | cons c cs =>
    have dropped := (List.dropWhile_suffix (l := cs) isRegular).length_le
    simp only [token?] at h
    split_ifs at h
    · cases h
      exact Nat.lt_succ_of_le dropped
    · obtain ⟨⟨digits, after⟩, split, h⟩ := Option.bind_eq_some_iff.mp h
      obtain ⟨bs, -, same⟩ := Option.bind_eq_some_iff.mp h
      cases same
      exact Nat.lt_succ_of_lt (Text.length_of_splitFirst? split)
    · obtain ⟨⟨inside, after⟩, split, same⟩ := Option.bind_eq_some_iff.mp h
      cases same
      exact Nat.lt_succ_of_lt (Text.length_of_splitFirst? split)
    · cases h
      exact Nat.lt_succ_of_le dropped

def tokens? (cs : List Char) : Option (List Token) :=
  if cs.all isSpace then some []
  else
    match _ : token? (cs.dropWhile isSpace) with
    | none => none
    | some (t, rest) => (tokens? rest).map (t :: ·)
termination_by cs.length
decreasing_by exact lt_of_lt_of_le (length_of_token? ‹_›) (List.dropWhile_suffix _).length_le

theorem tokens?_eq (cs : List Char) :
    tokens? cs = if cs.all isSpace then some []
      else (token? (cs.dropWhile isSpace)).bind fun (t, rest) => (tokens? rest).map (t :: ·) := by
  rw [tokens?]
  split_ifs with blank
  · rfl
  · split <;> simp [*]

theorem tokens?_space (cs : List Char) : tokens? (' ' :: cs) = tokens? cs := by
  rw [tokens?_eq, tokens?_eq cs, List.all_cons, List.dropWhile_cons_of_pos rfl]
  rfl

theorem isSpace_of_token? {c : Char} {cs : List Char} (found : (token? (c :: cs)).isSome) :
    isSpace c = false := by
  by_contra space
  rw [Bool.not_eq_false] at space
  have mark {d : Char} (visible : isSpace d = false) : c ≠ d := by
    rintro rfl
    rw [space] at visible
    cases visible
  simp [token?, isRegular, space, mark (d := '/') rfl, mark (d := '<') rfl, mark (d := '[') rfl]
    at found

theorem tokens?_cons {cs rest : List Char} {t : Token} (found : token? cs = some (t, rest)) :
    tokens? cs = (tokens? rest).map (t :: ·) := by
  cases cs with
  | nil => cases found
  | cons c cs =>
    have shown : isSpace c = false := isSpace_of_token? (by rw [found]; rfl)
    rw [tokens?_eq, List.all_cons, List.dropWhile_cons_of_neg (by simp [shown]), found, if_neg]
    · rfl
    · simp [shown]

theorem span_append {word rest : List Char} (regular : ∀ c ∈ word, isRegular c = true)
    (ends : ∀ c ∈ rest.head?, isRegular c = false) :
    (word ++ rest).takeWhile isRegular = word ∧ (word ++ rest).dropWhile isRegular = rest := by
  rw [List.takeWhile_append_of_pos regular, List.dropWhile_append_of_pos regular]
  cases rest with
  | nil => simp
  | cons c cs =>
    have other := ends c rfl
    simp [other]

theorem ne_of_isRegular {c d : Char} (regular : isRegular c = true) (other : isRegular d = false) :
    c ≠ d := by
  rintro rfl
  rw [regular] at other
  cases other

theorem isSpace_of_isRegular {c : Char} (regular : isRegular c = true) : isSpace c = false := by
  simp_all [isRegular]

def Token.of : Operand → Token
  | .whole n => .word (toString n).toList
  | .real x => .word (singleText x)
  | .name s => .name s.toList
  | .bytes bs => .bytes bs
  | .list xs => .list (xs.map singleText)

theorem Token.of_list (xs : List Float32) : Token.of (.list xs) = .list (xs.map singleText) := rfl

theorem Token.of_name (s : String) : Token.of (.name s) = .name s.toList := rfl

theorem hexValue?_hexDigit {n : Nat} (small : n < 16) : hexValue? (Operand.hexDigit n) = some n := by
  revert n
  decide

theorem hexBytes?_hexText (bs : List UInt8) : hexBytes? (Operand.hexText bs) = some bs := by
  induction bs with
  | nil => rfl
  | cons b bs ih =>
    have high := hexValue?_hexDigit (n := b.toNat / 16) (by have := b.toNat_lt; omega)
    have low := hexValue?_hexDigit (n := b.toNat % 16) (by omega)
    have whole : UInt8.ofNat (16 * (b.toNat / 16) + b.toNat % 16) = b := by
      rw [Nat.div_add_mod, UInt8.ofNat_toNat]
    have split : Operand.hexText (b :: bs) = Operand.hexDigit (b.toNat / 16) ::
        Operand.hexDigit (b.toNat % 16) :: Operand.hexText bs := rfl
    rw [split, hexBytes?, high, low, ih]
    exact congrArg (fun c => some (c :: bs)) whole

theorem isRegular_of_isPrinted {c : Char} (printed : IsPrinted c) : isRegular c = true := by
  by_contra irregular
  simp only [isRegular, isSpace, isDelimiter, Bool.and_eq_true, Bool.not_eq_true',
    List.contains_eq_mem, decide_eq_false_iff_not, not_and_or, not_not, List.mem_cons,
    List.not_mem_nil, or_false] at irregular
  rcases irregular with h | h
  · rcases h with rfl | rfl | rfl | rfl | rfl | rfl <;> revert printed <;> simp [IsPrinted]
  · rcases h with rfl | rfl | rfl | rfl | rfl | rfl | rfl | rfl | rfl | rfl <;> revert printed <;>
      simp [IsPrinted]

theorem isRegular_of_mem_singleText {x : Float32} {c : Char} (inside : c ∈ singleText x) :
    isRegular c = true :=
  isRegular_of_isPrinted (isPrinted_of_mem_singleText inside)

theorem isRegular_of_mem_whole {n : Nat} {c : Char} (inside : c ∈ (Operand.whole n).text) :
    isRegular c = true := by
  have digits : (Operand.whole n).text = Nat.toDigits 10 n := Nat.toList_repr
  exact isRegular_of_isPrinted (isPrinted_of_isDigit (isDigit_of_mem_toDigits (digits ▸ inside)))

theorem isRegular_hexDigit (n : Nat) : isRegular (Operand.hexDigit n) = true := by
  by_cases small : n < 16
  · revert n
    decide
  · have beyond : Operand.hexDigit n = '0' := by
      simp [Operand.hexDigit, Nat.le_of_not_lt small]
    rw [beyond]
    rfl

theorem isRegular_of_mem_hexText {bs : List UInt8} {c : Char} (inside : c ∈ Operand.hexText bs) :
    isRegular c = true := by
  obtain ⟨b, -, h⟩ := List.mem_flatMap.mp inside
  simp only [List.mem_cons, List.not_mem_nil, or_false] at h
  rcases h with rfl | rfl <;> exact isRegular_hexDigit _

def Plain : Operand → Prop
  | .name s => ∀ c ∈ s.toList, isRegular c = true
  | _ => True

theorem token?_word {word rest : List Char} (filled : word ≠ [])
    (regular : ∀ c ∈ word, isRegular c = true) (ends : ∀ c ∈ rest.head?, isRegular c = false) :
    token? (word ++ rest) = some (.word word, rest) := by
  obtain ⟨c, cs, rfl⟩ := List.exists_cons_of_ne_nil filled
  have own : isRegular c = true := regular c (.head cs)
  have run := span_append (fun c inside => regular c (.tail _ inside)) ends
  simp [token?, own, ne_of_isRegular own (d := '/') rfl, ne_of_isRegular own (d := '<') rfl,
    ne_of_isRegular own (d := '[') rfl, run]

theorem token?_bytes (bs : List UInt8) (rest : List Char) :
    token? ((Operand.bytes bs).text ++ rest) = some (.bytes bs, rest) := by
  have inner : ∀ c ∈ Operand.hexText bs, (c == '>') = false := fun c inside =>
    beq_false_of_ne (ne_of_isRegular (isRegular_of_mem_hexText inside) rfl)
  have closed := Text.splitFirst?_append_cons inner (c := '>') rfl rest
  simp [Operand.text, token?, closed, hexBytes?_hexText]

theorem token?_list (xs : List Float32) (rest : List Char) :
    token? ((Operand.list xs).text ++ rest) = some (.list (xs.map singleText), rest) := by
  have regular : ∀ word ∈ xs.map singleText, ∀ c ∈ word, isRegular c = true := by
    intro word member c inside
    obtain ⟨x, -, rfl⟩ := List.mem_map.mp member
    exact isRegular_of_mem_singleText inside
  have inner : ∀ c ∈ Text.join [' '] (xs.map singleText), (c == ']') = false := by
    intro c inside
    rcases Text.mem_join inside with rfl | ⟨word, member, h⟩
    · rfl
    · exact beq_false_of_ne (ne_of_isRegular (regular word member c h) rfl)
  have closed := Text.splitFirst?_append_cons inner (c := ']') rfl rest
  have words : Text.fields isSpace (Text.join [' '] (xs.map singleText)) = xs.map singleText := by
    apply Text.fields_join rfl
    intro word member
    refine ⟨?_, fun c inside => isSpace_of_isRegular (regular word member c inside)⟩
    obtain ⟨x, -, rfl⟩ := List.mem_map.mp member
    exact singleText_ne_nil x
  simp [Operand.text, token?, closed, words]

theorem token?_text {x : Operand} (plain : Plain x) (cs : List Char) :
    token? (x.text ++ ' ' :: cs) = some (Token.of x, ' ' :: cs) := by
  have ends : ∀ c ∈ (' ' :: cs).head?, isRegular c = false := by simp [isRegular, isSpace]
  cases x with
  | whole n =>
    have digits : (Operand.whole n).text = Nat.toDigits 10 n := Nat.toList_repr
    exact token?_word (digits ▸ Nat.toDigits_ne_nil) (fun _ => isRegular_of_mem_whole) ends
  | real x => exact token?_word (singleText_ne_nil x) (fun _ => isRegular_of_mem_singleText) ends
  | name s => simp [Operand.text, Token.of, token?, span_append plain ends]
  | bytes bs => exact token?_bytes bs _
  | list xs => exact token?_list xs _

theorem tokens?_operands {operands : List Operand} (plain : ∀ x ∈ operands, Plain x)
    (cs : List Char) : tokens? (operands.flatMap (fun x => x.text ++ [' ']) ++ cs) =
      (tokens? cs).map (operands.map Token.of ++ ·) := by
  induction operands with
  | nil => simp
  | cons x operands ih =>
    have rest := ih fun y inside => plain y (.tail x inside)
    rw [List.flatMap_cons, List.append_assoc, List.append_assoc, List.singleton_append,
      tokens?_cons (token?_text (plain x (.head operands)) _), tokens?_space, rest, Option.map_map]
    rfl

/-- What stands on a line: plain operands, and a keyword that is one word. -/
structure PlainOperation (o : Operation) : Prop where
  operands : ∀ x ∈ o.operands, Plain x
  filled : o.keyword.toList ≠ []
  keyword : ∀ c ∈ o.keyword.toList, isRegular c = true

theorem PlainOperation.tokens? {o : Operation} (plain : PlainOperation o) :
    tokens? o.text = some (o.operands.map Token.of ++ [.word o.keyword.toList]) := by
  have last : token? (o.keyword.toList ++ []) = some (.word o.keyword.toList, []) :=
    token?_word plain.filled plain.keyword (by simp)
  rw [List.append_nil] at last
  rw [Operation.text, tokens?_operands plain.operands, tokens?_cons last, tokens?_eq]
  rfl

theorem ne_newline_of_mem_operand {x : Operand} (plain : Plain x) {c : Char} (inside : c ∈ x.text) :
    c ≠ '\n' := by
  cases x with
  | whole n => exact ne_of_isRegular (isRegular_of_mem_whole inside) rfl
  | real x => exact ne_of_isRegular (isRegular_of_mem_singleText inside) rfl
  | name s =>
    rcases List.mem_cons.mp inside with rfl | h
    · decide
    · exact ne_of_isRegular (plain c h) rfl
  | bytes bs =>
    simp only [Operand.text, List.mem_append, List.mem_cons, List.not_mem_nil, or_false] at inside
    rcases inside with (rfl | h) | rfl
    · decide
    · exact ne_of_isRegular (isRegular_of_mem_hexText h) rfl
    · decide
  | list xs =>
    simp only [Operand.text, List.mem_append, List.mem_cons, List.not_mem_nil, or_false] at inside
    rcases inside with (rfl | h) | rfl
    · decide
    · rcases Text.mem_join h with rfl | ⟨word, member, h⟩
      · decide
      · obtain ⟨x, -, rfl⟩ := List.mem_map.mp member
        exact ne_of_isRegular (isRegular_of_mem_singleText h) rfl
    · decide

theorem ne_newline_of_mem_text {o : Operation} (plain : PlainOperation o) {c : Char}
    (inside : c ∈ o.text) : c ≠ '\n' := by
  rcases List.mem_append.mp inside with h | h
  · obtain ⟨x, member, h⟩ := List.mem_flatMap.mp h
    rcases List.mem_append.mp h with h | h
    · exact ne_newline_of_mem_operand (plain.operands x member) h
    · rw [List.mem_singleton.mp h]
      decide
  · exact ne_of_isRegular (plain.keyword c h) rfl

end SvgPage.Content
