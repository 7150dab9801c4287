import Mathlib.Data.List.Induction
import Mathlib.Data.List.Nodup
import SvgPage.Image.Gallery
import SvgPage.Image.Raster

/-!
# Galleries with a history

A gallery knows a content by its digest and gives back what it keeps, before it looks at the format
that is asked for. So its answer is that of an empty gallery, but for one case: bytes that it keeps
in another format. What it keeps is never changed, and no identity is kept twice.
-/

namespace SvgPage

/-- No file is a picture in two formats. -/
def ImageDecoder.Exclusive (decode : ImageDecoder) : Prop :=
  ∀ bytes format format', (decode format bytes).isSome → (decode format' bytes).isSome →
    format = format'

namespace Raster

/-- The byte with which the files of a format begin. -/
def firstByte : ImageFormat → UInt8
  | .png => 0x89
  | .jpeg => 0xFF

theorem head?_of_beginning {bytes : List UInt8} {n : Nat} {first : UInt8} {rest : List UInt8}
    (begins : (bytes.toArray.extract 0 n).toList = first :: rest) : bytes.head? = some first := by
  rw [Array.toList_extract] at begins
  cases bytes with
  | nil => simp at begins
  | cons byte bytes =>
    cases n with
    | zero => simp at begins
    | succ n =>
      simp at begins
      exact congrArg some begins.1

theorem head?_of_size? {format : ImageFormat} {bytes : List UInt8}
    (reads : (size? format bytes).isSome) : bytes.head? = some (firstByte format) := by
  cases format with
  | png =>
    unfold size? pngSize? at reads
    dsimp only at reads
    split at reads
    · next begins => exact head?_of_beginning (beq_iff_eq.mp begins)
    · cases reads
  | jpeg =>
    unfold size? jpegSize? at reads
    dsimp only at reads
    split at reads
    · next begins => exact head?_of_beginning (beq_iff_eq.mp begins)
    · cases reads

theorem exclusive : ImageDecoder.Exclusive size? := by
  intro bytes format format' reads reads'
  have same := (head?_of_size? reads).symm.trans (head?_of_size? reads')
  revert same
  cases format <;> cases format' <;> decide

end Raster

namespace Gallery

abbrev Request := ImageFormat × List UInt8

/-- What a request gives where nothing is kept. -/
def fresh (decode : ImageDecoder) (r : Request) : Option ImageHandle :=
  (({} : Gallery).embed decode r.1 r.2).1

/-- The gallery after some requests. -/
def after (decode : ImageDecoder) (history : List Request) : Gallery :=
  history.foldl (fun g r => (g.embed decode r.1 r.2).2) {}

/-- The files of some requests are told apart by their digests. -/
def ToldApart (rs : List Request) : Prop :=
  ∀ r ∈ rs, ∀ r' ∈ rs, ResourceKey.ofContent r.2 = ResourceKey.ofContent r'.2 → r.2 = r'.2

/-- A file is kept in the format of the request that made it a picture. -/
def KeptAs (decode : ImageDecoder) (history : List Request) (bytes : List UInt8)
    (format : ImageFormat) : Prop :=
  (format, bytes) ∈ history ∧ (decode format bytes).isSome

variable {decode : ImageDecoder} {g : Gallery} {format : ImageFormat} {bytes : List UInt8}

theorem fresh_eq (decode : ImageDecoder) (format : ImageFormat) (bytes : List UInt8) :
    fresh decode (format, bytes) = (decode format bytes).map fun size =>
      ⟨ResourceKey.ofContent bytes, format, size.1, size.2⟩ := by
  have new : ({} : Gallery).find? (.ofContent bytes) = none := rfl
  rw [fresh, embed, new]
  cases decode format bytes <;> rfl

theorem embed_of_find? {p : Picture} (found : g.find? (.ofContent bytes) = some p)
    (format : ImageFormat) : g.embed decode format bytes = (some p.handle, g) := by
  rw [embed, found]

theorem embed_of_fresh (new : g.find? (.ofContent bytes) = none) (format : ImageFormat) :
    g.embed decode format bytes = (fresh decode (format, bytes),
      ⟨g.pictures ++ (fresh decode (format, bytes)).toList.map (⟨·, bytes⟩)⟩) := by
  rw [embed, new, fresh_eq]
  cases decode format bytes with
  | none => simp
  | some size => rfl

theorem find?_eq_some {key : ResourceKey} {p : Picture} (found : g.find? key = some p) :
    p ∈ g.pictures ∧ p.handle.identity = key :=
  ⟨List.mem_of_find?_eq_some found, by simpa using List.find?_some found⟩

theorem find?_eq_none {key : ResourceKey} (new : g.find? key = none) :
    ∀ p ∈ g.pictures, p.handle.identity ≠ key := by
  simpa using List.find?_eq_none.mp new

theorem identity_of_fresh {handle : ImageHandle}
    (made : fresh decode (format, bytes) = some handle) :
    handle.identity = .ofContent bytes ∧ handle.format = format := by
  rw [fresh_eq] at made
  obtain ⟨size, -, rfl⟩ := Option.map_eq_some_iff.mp made
  exact ⟨rfl, rfl⟩

theorem isSome_fresh : (fresh decode (format, bytes)).isSome = (decode format bytes).isSome := by
  rw [fresh_eq, Option.isSome_map]

theorem embed_of_failed (failed : (g.embed decode format bytes).1 = none) :
    (g.embed decode format bytes).2 = g := by
  cases found : g.find? (.ofContent bytes) with
  | some p =>
    rw [embed_of_find? found] at failed
    cases failed
  | none =>
    rw [embed_of_fresh found] at failed ⊢
    simp only at failed
    simp [failed]

/-- What a gallery keeps after some requests: each picture as one of them made it, and one for each
file that can be read. -/
structure Keeps (decode : ImageDecoder) (history : List Request) (g : Gallery) : Prop where
  made : ∀ p ∈ g.pictures, ∃ format, (format, p.bytes) ∈ history ∧
    fresh decode (format, p.bytes) = some p.handle
  kept : ∀ r ∈ history, (fresh decode r).isSome →
    ∃ p ∈ g.pictures, p.handle.identity = .ofContent r.2
  distinct : (g.pictures.map fun p => p.handle.identity).Nodup

theorem Keeps.embed {history : List Request} (h : Keeps decode history g) (format : ImageFormat)
    (bytes : List UInt8) :
    Keeps decode (history ++ [(format, bytes)]) (g.embed decode format bytes).2 := by
  have longer {r : Request} (member : r ∈ history) : r ∈ history ++ [(format, bytes)] :=
    List.mem_append_left _ member
  cases found : g.find? (.ofContent bytes) with
  | some p =>
    rw [embed_of_find? found]
    obtain ⟨member, same⟩ := find?_eq_some found
    refine ⟨fun p member => ?made, fun r member readable => ?kept, h.distinct⟩
    case made =>
      obtain ⟨format, old, made⟩ := h.made p member
      exact ⟨format, longer old, made⟩
    case kept =>
      obtain old | rfl := (List.mem_append.mp member).imp_right List.mem_singleton.mp
      · exact h.kept r old readable
      · exact ⟨p, ‹_›, same⟩
  | none =>
    rw [embed_of_fresh found]
    refine ⟨fun p member => ?made, fun r member readable => ?kept, ?distinct⟩
    case made =>
      obtain old | new := List.mem_append.mp member
      · obtain ⟨format, asked, made⟩ := h.made p old
        exact ⟨format, longer asked, made⟩
      · obtain ⟨handle, made, rfl⟩ := List.mem_map.mp new
        exact ⟨format, List.mem_append_right _ (.head _), Option.mem_toList.mp made⟩
    case kept =>
      obtain old | rfl := (List.mem_append.mp member).imp_right List.mem_singleton.mp
      · obtain ⟨p, kept, same⟩ := h.kept r old readable
        exact ⟨p, List.mem_append_left _ kept, same⟩
      · obtain ⟨handle, made⟩ := Option.isSome_iff_exists.mp readable
        refine ⟨⟨handle, bytes⟩, List.mem_append_right _ ?_, (identity_of_fresh made).1⟩
        exact List.mem_map_of_mem (Option.mem_toList.mpr made)
    case distinct =>
      cases made : fresh decode (format, bytes) with
      | none => simpa using h.distinct
      | some handle =>
        rw [Option.toList_some, List.map_singleton, List.map_append, List.map_singleton]
        refine h.distinct.append (List.nodup_singleton _) ?_
        rw [List.disjoint_singleton, (identity_of_fresh made).1]
        intro old
        obtain ⟨p, member, same⟩ := List.mem_map.mp old
        exact find?_eq_none found p member same

theorem keeps_after (decode : ImageDecoder) (history : List Request) :
    Keeps decode history (after decode history) := by
  induction history using List.reverseRecOn with
  | nil => exact ⟨nofun, nofun, List.nodup_nil⟩
  | append_singleton history r ih =>
    rw [after, List.foldl_concat]
    exact ih.embed r.1 r.2

/-- Bytes that are kept were made a picture by one of the requests. -/
theorem exists_request_of_find? {history : List Request} {r : Request} {p : Picture}
    (apart : ToldApart (r :: history))
    (found : (after decode history).find? (.ofContent r.2) = some p) :
    ∃ format, (format, r.2) ∈ history ∧ fresh decode (format, r.2) = some p.handle := by
  obtain ⟨member, same⟩ := find?_eq_some found
  obtain ⟨format, asked, made⟩ := (keeps_after decode history).made p member
  rw [(identity_of_fresh made).1] at same
  have bytes : p.bytes = r.2 := apart _ (.tail r asked) r (.head history) same
  rw [bytes] at asked made
  exact ⟨format, asked, made⟩

theorem KeptAs.embed_eq {history : List Request} {kept : ImageFormat}
    (h : KeptAs decode history bytes kept) (exclusive : decode.Exclusive)
    (apart : ToldApart ((format, bytes) :: history)) :
    ((after decode history).embed decode format bytes).1 = fresh decode (kept, bytes) := by
  obtain ⟨asked, readable⟩ := h
  rw [← isSome_fresh] at readable
  obtain ⟨p, member, same⟩ := (keeps_after decode history).kept _ asked readable
  cases found : (after decode history).find? (.ofContent bytes) with
  | none => exact absurd same (find?_eq_none found p member)
  | some p' =>
    obtain ⟨kept', -, made⟩ := exists_request_of_find? apart found
    have readable' : (fresh decode (kept', bytes)).isSome := Option.isSome_of_eq_some made
    rw [isSome_fresh] at readable readable'
    rw [embed_of_find? found, ← made, exclusive bytes kept kept' readable readable']

theorem embed_eq_fresh {history : List Request} (apart : ToldApart ((format, bytes) :: history))
    (new : ∀ kept, ¬KeptAs decode history bytes kept) :
    ((after decode history).embed decode format bytes).1 = fresh decode (format, bytes) := by
  cases found : (after decode history).find? (.ofContent bytes) with
  | none => rw [embed_of_fresh found]
  | some p =>
    obtain ⟨kept, asked, made⟩ := exists_request_of_find? apart found
    have readable : (fresh decode (kept, bytes)).isSome := Option.isSome_of_eq_some made
    rw [isSome_fresh] at readable
    exact absurd ⟨asked, readable⟩ (new kept)

/-- Where digests tell files apart and no file can be decoded in two formats, a request is answered
as by an empty gallery if and only if the file is not kept in another format. If it is, the answer
is that for the other format. No identity is kept twice, and a request that fails changes
nothing. -/
theorem embed_fresh_iff {decode : ImageDecoder} (exclusive : decode.Exclusive)
    {history : List Request} {format : ImageFormat} {bytes : List UInt8}
    (apart : ToldApart ((format, bytes) :: history)) :
    let g := after decode history
    ((g.embed decode format bytes).1 = fresh decode (format, bytes) ↔
        ∀ kept, KeptAs decode history bytes kept → kept = format) ∧
      (∀ kept, KeptAs decode history bytes kept →
        (g.embed decode format bytes).1 = fresh decode (kept, bytes)) ∧
      (g.pictures.map fun p => p.handle.identity).Nodup ∧
      ((g.embed decode format bytes).1 = none → (g.embed decode format bytes).2 = g) := by
  intro g
  refine ⟨⟨fun same kept h => ?_, fun only => ?_⟩, fun kept h => h.embed_eq exclusive apart,
    (keeps_after decode history).distinct, embed_of_failed⟩
  · have answer : fresh decode (kept, bytes) = fresh decode (format, bytes) :=
      (h.embed_eq exclusive apart).symm.trans same
    obtain ⟨handle, made⟩ := Option.isSome_iff_exists.mp (isSome_fresh.trans h.2)
    rw [made] at answer
    exact (identity_of_fresh made).2.symm.trans (identity_of_fresh answer.symm).2
  · by_cases kept : ∃ kept, KeptAs decode history bytes kept
    · obtain ⟨kept, h⟩ := kept
      obtain rfl := only kept h
      exact h.embed_eq exclusive apart
    · exact embed_eq_fresh apart (not_exists.mp kept)

def pixel : List UInt8 :=
  [0x89, 0x50, 0x4E, 0x47, 0x0D, 0x0A, 0x1A, 0x0A, 0x00, 0x00, 0x00, 0x0D, 0x49, 0x48, 0x44, 0x52,
    0x00, 0x00, 0x00, 0x01, 0x00, 0x00, 0x00, 0x01, 0x08, 0x00, 0x00, 0x00, 0x00, 0x3A, 0x7E, 0x9B,
    0x55, 0x00, 0x00, 0x00, 0x0A, 0x49, 0x44, 0x41, 0x54, 0x78, 0x9C, 0x63, 0x60, 0x04, 0x00, 0x00,
    0x03, 0x00, 0x02, 0x4B, 0xF5, 0xDD, 0xEA, 0x00, 0x00, 0x00, 0x00, 0x49, 0x45, 0x4E, 0x44, 0xAE,
    0x42, 0x60, 0x82]

theorem size?_pixel (format : ImageFormat) : Raster.size? format pixel =
    match format with
    | .png => some (1, 1)
    | .jpeg => none := by
  cases format <;> decide +kernel

/-- The pixel is found in a gallery that has refused another file. It is found in the other format
too, in which an empty gallery refuses it. -/
theorem embed_fresh_iff_pixel :
    let decode := Raster.size?
    let g := after decode [(.png, pixel), (.jpeg, [1, 2, 3])]
    let handle : ImageHandle := ⟨.ofContent pixel, .png, 1, 1⟩
    (g.embed decode .png pixel).1 = fresh decode (.png, pixel) ∧
      fresh decode (.png, pixel) = some handle ∧
      (g.embed decode .jpeg pixel).1 = fresh decode (.png, pixel) ∧
      fresh decode (.jpeg, pixel) = none := by
  intro decode g handle
  have png : decode .png pixel = some (1, 1) := size?_pixel .png
  have jpeg : decode .jpeg pixel = none := size?_pixel .jpeg
  have differ : ResourceKey.ofContent pixel ≠ ResourceKey.ofContent [1, 2, 3] := by decide +kernel
  have apart (format : ImageFormat) :
      ToldApart [(format, pixel), (.png, pixel), (.jpeg, [1, 2, 3])] := by
    simp [ToldApart, differ, differ.symm]
  have kept : KeptAs decode [(.png, pixel), (.jpeg, [1, 2, 3])] pixel .png :=
    ⟨.head _, by rw [png]; rfl⟩
  refine ⟨(embed_fresh_iff Raster.exclusive (apart .png)).1.mpr fun other h => ?_, ?_,
    (embed_fresh_iff Raster.exclusive (apart .jpeg)).2.1 .png kept, ?_⟩
  · exact Raster.exclusive pixel other .png h.2 kept.2
  · rw [fresh_eq, png]
    rfl
  · rw [fresh_eq, jpeg]
    rfl

/-- A request may be answered otherwise than by an empty gallery: what is kept in one format is
given for the other. -/
theorem not_embed_fresh : ¬∀ decode : ImageDecoder, decode.Exclusive →
    ∀ (history : List Request) (format : ImageFormat) (bytes : List UInt8),
      ToldApart ((format, bytes) :: history) →
        ((after decode history).embed decode format bytes).1 = fresh decode (format, bytes) := by
  intro all
  have apart : ToldApart [(.jpeg, pixel), (.png, pixel)] := by
    unfold ToldApart
    simp
  have kept : KeptAs Raster.size? [(.png, pixel)] pixel .png :=
    ⟨.head _, by rw [size?_pixel]; rfl⟩
  have same := (kept.embed_eq Raster.exclusive apart).symm.trans
    (all Raster.size? Raster.exclusive [(.png, pixel)] .jpeg pixel apart)
  rw [fresh_eq, fresh_eq, size?_pixel, size?_pixel] at same
  cases same

end Gallery

end SvgPage
