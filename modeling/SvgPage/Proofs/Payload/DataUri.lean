import Mathlib.Data.Bool.AllAny
import SvgPage.Proofs.Paint.Styling
import SvgPage.Proofs.Text.Ends

/-!
# Round trips of data URIs

Bytes that are written in Base64 are read back, whatever white space is put between the characters
and around the URI. The media type is read in two ways, once with the payload and once alone, but
both cut the same part from the URI. So an image has the type by which it was accepted.
-/

namespace SvgPage

namespace Base64

theorem value?_letter : ∀ {v : Nat}, v < 64 → value? (letter v) = some v := by decide

theorem ne_pad_of_value? {c : Char} {v : Nat} (digit : value? c = some v) : c ≠ '=' := by
  rintro rfl
  cases digit

theorem decode?_group {a b c d : Char} {i j k l : Nat} (first : value? a = some i)
    (second : value? b = some j) (third : value? c = some k) (fourth : value? d = some l)
    (rest : List Char) :
    decode? (a :: b :: c :: d :: rest) = (decode? rest).map fun more =>
      (i * 4 + j / 16).toUInt8 :: (j % 16 * 16 + k / 4).toUInt8 :: (k % 4 * 64 + l).toUInt8 ::
        more := by
  rw [decode?, first, second, third, fourth]
  · cases decode? rest <;> rfl
  · exact fun pad _ _ => ne_pad_of_value? third pad
  · exact fun pad _ => ne_pad_of_value? fourth pad

theorem toUInt8_eq {n : Nat} {byte : UInt8} (same : n = byte.toNat) : n.toUInt8 = byte := by
  rw [same]
  exact UInt8.ofNat_toNat

/-- Six bits at a time, three bytes are cut into four digits; padding stands for bytes that are
missing in the last group. -/
theorem decode?_encode (bytes : List UInt8) : decode? (encode bytes) = some bytes := by
  fun_induction encode bytes with
  | case1 => rfl
  | case2 a =>
    have small := a.toNat_lt
    have whole : (a.toNat / 4 * 4 + a.toNat % 4 * 16 / 16).toUInt8 = a := toUInt8_eq (by omega)
    have unused : a.toNat % 4 * 16 % 16 = 0 := by omega
    rw [decode?, value?_letter (by omega), value?_letter (by omega)]
    simp only [Option.bind_eq_bind, Option.bind_some, unused, whole, if_true]
  | case3 a b =>
    have small := a.toNat_lt
    have small' := b.toNat_lt
    have first : (a.toNat / 4 * 4 + (a.toNat % 4 * 16 + b.toNat / 16) / 16).toUInt8 = a :=
      toUInt8_eq (by omega)
    have second :
        ((a.toNat % 4 * 16 + b.toNat / 16) % 16 * 16 + b.toNat % 16 * 4 / 4).toUInt8 = b :=
      toUInt8_eq (by omega)
    have unused : b.toNat % 16 * 4 % 4 = 0 := by omega
    have digit : value? (letter (b.toNat % 16 * 4)) = some (b.toNat % 16 * 4) :=
      value?_letter (by omega)
    rw [decode?, value?_letter (by omega), value?_letter (by omega), digit]
    · simp only [Option.bind_eq_bind, Option.bind_some, unused, first, second, if_true]
    · exact ne_pad_of_value? digit
  | case4 a b c rest ih =>
    have small := a.toNat_lt
    have small' := b.toNat_lt
    have small'' := c.toNat_lt
    have first : (a.toNat / 4 * 4 + (a.toNat % 4 * 16 + b.toNat / 16) / 16).toUInt8 = a :=
      toUInt8_eq (by omega)
    have second : ((a.toNat % 4 * 16 + b.toNat / 16) % 16 * 16 +
        (b.toNat % 16 * 4 + c.toNat / 64) / 4).toUInt8 = b :=
      toUInt8_eq (by omega)
    have third : ((b.toNat % 16 * 4 + c.toNat / 64) % 4 * 64 + c.toNat % 64).toUInt8 = c :=
      toUInt8_eq (by omega)
    rw [decode?_group (value?_letter (by omega)) (value?_letter (by omega))
      (value?_letter (by omega)) (value?_letter (by omega)), ih, first, second, third]
    rfl

end Base64

namespace Text

variable {p q : Char → Bool}

/-- The first of two kinds of separators ends the first piece before the first separator of the
second kind. -/
theorem splitFirst?_either {cs head tail : List Char} (cut : splitFirst? q cs = some (head, tail)) :
    ∃ rest, splitFirst? (fun c => p c || q c) cs = some ((pieces p head).headD [], rest) := by
  induction cs generalizing head with
  | nil => cases cut
  | cons c cs ih =>
    unfold splitFirst? at cut
    split at cut
    · next stop =>
      cases cut
      exact ⟨tail, by rw [splitFirst?, stop, Bool.or_true, if_pos rfl, pieces, List.headD_cons]⟩
    · next goes =>
      obtain ⟨⟨front, back⟩, cut, same⟩ := Option.map_eq_some_iff.mp cut
      cases same
      obtain ⟨rest, found⟩ := ih cut
      by_cases part : p c = true
      · exact ⟨cs, by simp [splitFirst?, pieces, part]⟩
      · refine ⟨rest, ?_⟩
        rw [splitFirst?, if_neg (by simp [part, goes]), found, pieces, if_neg part]
        cases pieces p front <;> rfl

end Text

namespace DataUri

open Text

variable {cs : List Char}

theorem body?_eq_some_iff {rest : List Char} :
    body? cs = some rest ↔ trim cs = "data:".toList ++ rest :=
  ⟨eq_append_of_after?, fun spelled => by rw [body?, spelled, after?_append]⟩

theorem mimeOf_eq (name : List Char) :
    mimeOf name = if trim name = [] then "text/plain" else String.ofList (lower (trim name)) := by
  simp only [mimeOf, List.isEmpty_iff]

theorem trim_written (mime : List Char) {front payload back : List Char} (before : AllBlank front)
    (after : AllBlank back) :
    trim (front ++ ("data:".toList ++ mime ++ ";base64,".toList ++ payload) ++ back) =
      "data:".toList ++ (mime ++ ";base64".toList ++ ',' :: dropTail isBlank payload) := by
  have ends : dropTail isBlank (',' :: payload) = ',' :: dropTail isBlank payload := by
    rw [dropTail]
    cases dropTail isBlank payload <;> rfl
  have split : "data:".toList ++ mime ++ ";base64,".toList ++ payload =
      "data:".toList ++ mime ++ ";base64".toList ++ ',' :: payload := by simp
  have solid : ("data:".toList ++ mime ++ ";base64".toList ++ ',' :: payload).dropWhile isBlank =
      "data:".toList ++ mime ++ ";base64".toList ++ ',' :: payload :=
    List.dropWhile_cons_of_neg (by decide)
  rw [List.append_assoc front, trim, trimBy_between before after, trimBy, split, solid,
    dropTail_append_of_ne_nil _ (ends ▸ List.cons_ne_nil _ _), ends]
  simp only [List.append_assoc]

theorem filter_dropTail (p : Char → Bool) (cs : List Char) :
    (dropTail p cs).filter (!p ·) = cs.filter (!p ·) := by
  obtain ⟨tail, split, drops⟩ := exists_tail p cs
  have none : tail.filter (!p ·) = [] := by simpa using drops
  conv_rhs => rw [split, List.filter_append, none, List.append_nil]

theorem read?_written {mime front payload back : List Char} {bytes : List UInt8}
    (plain : ∀ c ∈ mime, c ≠ ',' ∧ c ≠ ';') (before : AllBlank front) (after : AllBlank back)
    (spelled : payload.filter (!isBlank ·) = Base64.encode bytes) :
    read? (front ++ ("data:".toList ++ mime ++ ";base64,".toList ++ payload) ++ back) =
      some ⟨mimeOf mime, bytes⟩ := by
  have whole : ∀ c ∈ mime ++ ";base64".toList, (c == ',') = false := by
    rw [List.forall_mem_append]
    exact ⟨fun c inside => by simpa using (plain c inside).1,
      List.all_iff_forall_prop.mp (by decide)⟩
  have cut : splitFirst? (· == ',') (mime ++ ";base64".toList ++ ',' :: dropTail isBlank payload) =
      some (mime ++ ";base64".toList, dropTail isBlank payload) :=
    splitFirst?_append_cons whole rfl _
  have header : pieces (· == ';') (mime ++ ";base64".toList) = [mime, "base64".toList] :=
    pieces_append_cons (p := (· == ';')) (fun c inside => by simpa using (plain c inside).2) rfl _
  have parts : parts? (front ++ ("data:".toList ++ mime ++ ";base64,".toList ++ payload) ++ back) =
      some ([mime, "base64".toList], dropTail isBlank payload) := by
    rw [parts?, body?_eq_some_iff.mpr (trim_written mime before after), Option.bind_some, cut,
      Option.map_some, ← header]
  have flagged : [mime, "base64".toList].any (fun part => trim part == "base64".toList) = true := by
    have word : (trim "base64".toList == "base64".toList) = true := by decide
    simp only [List.any_cons, word, Bool.true_or, Bool.or_true]
  have decoded : Base64.decode? ((dropTail isBlank payload).filter (!isBlank ·)) = some bytes := by
    rw [filter_dropTail, spelled, Base64.decode?_encode]
  simp only [read?, parts, Option.bind_eq_bind, Option.bind_some, flagged, if_true, decoded]
  rfl

/-- The two readings of the media type agree, except where there is none. -/
theorem mime?_of_read? {uri : DataUri} (read : read? cs = some uri) :
    ∃ name, mime? cs = some name ∧ uri.mime = if name = "" then "text/plain" else name := by
  obtain ⟨⟨header, payload⟩, parts, read⟩ := Option.bind_eq_some_iff.mp read
  obtain ⟨rest, body, parts⟩ := Option.bind_eq_some_iff.mp parts
  obtain ⟨⟨head, tail⟩, cut, same⟩ := Option.map_eq_some_iff.mp parts
  cases same
  obtain ⟨after, stop⟩ := splitFirst?_either (p := (· == ';')) cut
  have mime : uri.mime = mimeOf ((pieces (· == ';') head).headD []) := by
    dsimp only at read
    split at read
    · obtain ⟨bytes, -, found⟩ := Option.bind_eq_some_iff.mp read
      cases found
      rfl
    · cases read
      rfl
  let name := trim ((pieces (· == ';') head).headD [])
  have sniffed : mime? cs = some (String.ofList (lower name)) := by
    simp only [mime?, body, stop, Option.bind_eq_bind, Option.bind_some]
    rfl
  have blank : String.ofList (lower name) = "" ↔ name = [] := by
    rw [String.ofList_eq_empty_iff, lower, List.map_eq_nil_iff]
  refine ⟨_, sniffed, ?_⟩
  rw [mime, mimeOf_eq]
  simp only [blank]
  rfl

end DataUri

def ImageFormat.ofMime? (mime : String) : Option ImageFormat :=
  if mime = "image/png" then some .png
  else if mime = "image/jpeg" ∨ mime = "image/jpg" then some .jpeg
  else none

namespace Context

open Xml

theorem ofMime?_eq (mime : String) : ImageFormat.ofMime? mime =
    if mime = "image/png" ∨ mime = "image/jpeg" ∨ mime = "image/jpg" then
      some (if mime = "image/png" then .png else .jpeg)
    else none := by
  unfold ImageFormat.ofMime?
  by_cases png : mime = "image/png"
  · simp [png]
  · simp [png]

/-- An image is accepted by the type of its decoded data. -/
theorem imageData_eq_ok_iff {h : Head} {format : ImageFormat} {bytes : List UInt8} :
    imageData h = .ok (format, bytes) ↔ ∃ uri, DataUri.read? (h.link?.getD "").toList = some uri ∧
      ImageFormat.ofMime? uri.mime = some format ∧ uri.bytes = bytes := by
  constructor
  · intro read
    obtain ⟨mime, sniffed, read⟩ := exists_of_bind_eq_ok read
    split at read
    · next accepted =>
      obtain ⟨uri, decoded, read⟩ := exists_of_bind_eq_ok read
      rw [Properties.required_eq_ok_iff] at sniffed decoded
      obtain ⟨name, sniffed', same⟩ := DataUri.mime?_of_read? decoded
      cases sniffed.symm.trans sniffed'
      have filled : mime ≠ "" := by
        rintro rfl
        simp at accepted
      rw [if_neg filled] at same
      cases read
      exact ⟨uri, decoded, by rw [same, ofMime?_eq, if_pos accepted], rfl⟩
    · cases read
  · rintro ⟨uri, decoded, known, rfl⟩
    obtain ⟨name, sniffed, same⟩ := DataUri.mime?_of_read? decoded
    have filled : name ≠ "" := by
      rintro rfl
      rw [if_pos rfl] at same
      simp [same, ImageFormat.ofMime?] at known
    rw [if_neg filled] at same
    rw [same, ofMime?_eq] at known
    split at known
    · next accepted =>
      cases known
      simp only [imageData, sniffed, decoded, required]
      exact if_pos accepted
    · cases known

end Context

namespace DataUri

open Text Xml

/-- Base64 is read back, with white space anywhere in the payload and around the whole. Whatever is
read, the type that is read alone is the same, except that it is empty instead of plain text. So the
type that decides on an image is that of its data. -/
theorem round_trip :
    (∀ (mime front payload back : List Char) (bytes : List UInt8),
      (∀ c ∈ mime, c ≠ ',' ∧ c ≠ ';') → AllBlank front → AllBlank back →
        payload.filter (!isBlank ·) = Base64.encode bytes →
          read? (front ++ ("data:".toList ++ mime ++ ";base64,".toList ++ payload) ++ back) =
            some ⟨if trim mime = [] then "text/plain" else String.ofList (lower (trim mime)),
              bytes⟩) ∧
      (∀ cs uri, read? cs = some uri → ∃ name, mime? cs = some name ∧
        uri.mime = if name = "" then "text/plain" else name) ∧
      ∀ (h : Head) format bytes, Context.imageData h = .ok (format, bytes) ↔
        ∃ uri, read? (h.link?.getD "").toList = some uri ∧
          ImageFormat.ofMime? uri.mime = some format ∧ uri.bytes = bytes := by
  refine ⟨?_, fun cs uri => mime?_of_read?, fun h format bytes => Context.imageData_eq_ok_iff⟩
  intro mime front payload back bytes plain before after spelled
  rw [read?_written plain before after spelled, mimeOf_eq]

/-- Five bytes with white space in the last group, under a type in mixed letter case. -/
def greeting : String := "data: image/PNG;base64,aGVs bG8 ="

def greetingHead : Head := ⟨⟨none, "image"⟩, [⟨⟨none, "href"⟩, greeting⟩]⟩

/-- The bytes are read, and an image with the address is one of them in the format of the type. -/
theorem round_trip_greeting :
    read? ('\n' :: greeting.toList ++ ['\t']) = some ⟨"image/png", [104, 101, 108, 108, 111]⟩ ∧
      mime? ('\n' :: greeting.toList ++ ['\t']) = some "image/png" ∧
      Context.imageData greetingHead = .ok (.png, [104, 101, 108, 108, 111]) := by
  let uri : DataUri := ⟨"image/png", [104, 101, 108, 108, 111]⟩
  have plain : ∀ c ∈ " image/PNG".toList, c ≠ ',' ∧ c ≠ ';' :=
    List.all_iff_forall_prop.mp (by decide)
  have spelled : "aGVs bG8 =".toList.filter (!isBlank ·) = Base64.encode uri.bytes := by decide
  have parts : greeting.toList =
      "data:".toList ++ " image/PNG".toList ++ ";base64,".toList ++ "aGVs bG8 =".toList := by
    decide
  have read : read? ('\n' :: greeting.toList ++ ['\t']) = some uri := by
    rw [parts]
    exact round_trip.1 _ ['\n'] _ ['\t'] _ plain (by decide) (by decide) spelled
  have bare : read? greeting.toList = some uri := by
    rw [parts, ← List.append_nil ("data:".toList ++ _ ++ _ ++ _)]
    exact round_trip.1 _ [] _ [] _ plain (by decide) (by decide) spelled
  have link : greetingHead.link? = some greeting := by decide +kernel
  have data : Context.imageData greetingHead = .ok (.png, uri.bytes) :=
    (round_trip.2.2 _ _ _).mpr ⟨uri, by rw [link]; exact bare, by decide, rfl⟩
  obtain ⟨name, sniffed, same⟩ := round_trip.2.1 _ _ read
  refine ⟨read, ?_, data⟩
  split at same
  · exact absurd same (by decide)
  · rw [sniffed, ← same]

end DataUri

end SvgPage
