import Mathlib.Order.Monotone.Basic
import LexicalModes.Pattern
import LexicalModes.Proofs.Classify

/-!
Texts by byte offsets. An offset counts bytes of the UTF-8 form of a text, so it may fall inside a
character, where nothing can be cut out (`Bytes.get?`) and no search can start
(`Pattern.findInBytes`). The character positions of `Pattern.Text` have offsets too
(`Pattern.Text.byteAt`), and these fall between characters: what is cut out between two of them is
the part between the positions, and the next position is as many bytes further as the character has.
-/

namespace LexicalModes

open Pattern

/-- Why a computation on byte offsets does not come to its end. -/
inductive Halt (ε : Type)
  /-- A part of a text was asked for that the text does not have. -/
  | panics
  | fails (e : ε)

/-- The same for another kind of error. -/
def Halt.map {ε ε' : Type} (f : ε → ε') : Halt ε → Halt ε'
  | .panics => .panics
  | .fails e => .fails (f e)

/-- The piece is what the text has between the two offsets, which are in order, inside the text, and
boundaries of characters. -/
structure Slices (content piece : String) (first last : Nat) : Prop where
  ordered : first ≤ last
  inside : last ≤ content.utf8ByteSize
  starts : (String.Pos.Raw.mk first).IsValid content
  stops : (String.Pos.Raw.mk last).IsValid content
  bytes : content.toByteArray.extract first last = piece.toByteArray

namespace Bytes

variable (content : String)

/-- The boundary of a character at an offset, if there is one. -/
def boundary? (offset : Nat) : Option content.Pos :=
  if h : (String.Pos.Raw.mk offset).IsValid content then some (content.pos ⟨offset⟩ h) else none

/-- The part of a text between two offsets, if they are boundaries in order. -/
def get? (first last : Nat) : Option String := do
  let start ← boundary? content first
  let stop ← boundary? content last
  if start ≤ stop then some (String.extract start stop) else none

/-- The part of a text between two offsets, which have to be boundaries in order. -/
def slice {ε : Type} (first last : Nat) : Except (Halt ε) String :=
  match get? content first last with
  | some piece => .ok piece
  | none => .error .panics

/-- How many bytes the character at an offset has; one after the end of the text. -/
def charWidth (offset : Nat) : Nat :=
  ((boundary? content offset).bind String.Pos.get?).elim 1 Char.utf8Size

/-- How many characters are before an offset, if that is a boundary. -/
def position? (offset : Nat) : Option Nat :=
  (boundary? content offset).map fun p => (content.sliceTo p).copy.length

end Bytes

/-- The byte offset of a position. After the end of the text every position is a byte further. -/
def Pattern.Text.byteAt (text : Text) (i : Nat) : Nat :=
  (text.slice 0 i).utf8ByteSize + (i - text.size)

/-- The byte offsets of a span. -/
def Pattern.Span.inBytes {low size : Nat} (text : Text) (span : Span low size) : Nat × Nat :=
  (text.byteAt span.start, text.byteAt span.stop)

/-- What a search from a byte offset finds, in byte offsets; it does not start before `low`. -/
def Pattern.findInBytes (p : Pattern) (content : String) (low offset : Nat) :
    Except (Halt MatchError) (Option (Nat × Nat)) :=
  let text := Text.ofString content
  match Bytes.position? content low, Bytes.position? content offset with
  | some i, some j => (Option.map (Span.inBytes text)) <$> (p.findAfter? text i j).mapError .fails
  | _, _ => .error .panics

/-! ### Parts between offsets -/

namespace Bytes

variable {content : String} {offset first last : Nat}

theorem boundary?_eq_some {p : content.Pos} :
    boundary? content offset = some p ↔ p.offset = ⟨offset⟩ := by
  unfold boundary?
  split
  case isTrue hvalid =>
    rw [Option.some_inj, String.Pos.ext_iff, String.offset_pos]
    exact eq_comm
  case isFalse hvalid =>
    refine ⟨nofun, fun hoffset => absurd ?_ hvalid⟩
    rw [← hoffset]
    exact p.isValid

theorem boundary?_eq_none (h : content.utf8ByteSize < offset) : boundary? content offset = none :=
  dif_neg fun hvalid => absurd hvalid.le_utf8ByteSize (Nat.not_le.2 h)

theorem get?_eq_some {piece : String} :
    get? content first last = some piece ↔ Slices content piece first last := by
  constructor
  · intro h
    obtain ⟨start, hstart, h⟩ := Option.bind_eq_some_iff.1 h
    obtain ⟨stop, hstop, h⟩ := Option.bind_eq_some_iff.1 h
    rw [Option.ite_none_right_eq_some] at h
    obtain ⟨hle, h⟩ := h
    rw [boundary?_eq_some] at hstart hstop
    have hstops := stop.isValid
    rw [hstop] at hstops
    refine ⟨?_, hstops.le_utf8ByteSize, hstart ▸ start.isValid, hstops, ?_⟩
    · rw [String.Pos.le_iff, hstart, hstop] at hle
      exact hle
    · rw [← Option.some.inj h, String.toByteArray_extract, hstart, hstop]
  · intro h
    have hstart : boundary? content first = some (content.pos ⟨first⟩ h.starts) :=
      boundary?_eq_some.2 String.offset_pos
    have hstop : boundary? content last = some (content.pos ⟨last⟩ h.stops) :=
      boundary?_eq_some.2 String.offset_pos
    have hle : content.pos ⟨first⟩ h.starts ≤ content.pos ⟨last⟩ h.stops := by
      rw [String.Pos.le_iff, String.offset_pos, String.offset_pos]
      exact h.ordered
    simp only [get?, hstart, hstop, Option.bind_eq_bind, Option.bind_some, if_pos hle]
    rw [Option.some_inj, ← String.toByteArray_inj, String.toByteArray_extract, String.offset_pos,
      String.offset_pos]
    exact h.bytes

end Bytes

/-! ### Offsets of positions -/

namespace Pattern.Text

section

variable {text : Text} {i j : Nat}

theorem byteAt_of_le (hi : i ≤ text.size) : text.byteAt i = (text.slice 0 i).utf8ByteSize := by
  rw [byteAt, Nat.sub_eq_zero_of_le hi, Nat.add_zero]

@[simp] theorem byteAt_zero : text.byteAt 0 = 0 := by
  rw [byteAt_of_le (Nat.zero_le _), slice_eq_empty text (Nat.min_le_left 0 text.size)]
  rfl

/-- The bytes between two positions. -/
theorem byteAt_add_slice (hij : i ≤ j) (hj : j ≤ text.size) :
    text.byteAt i + (text.slice i j).utf8ByteSize = text.byteAt j := by
  rw [byteAt_of_le (hij.trans hj), byteAt_of_le hj, ← String.utf8ByteSize_append,
    slice_append_slice text (Nat.zero_le i) hij]

theorem slice_succ {c : Char} (hc : text[i]? = some c) :
    text.slice i (i + 1) = String.singleton c := by
  obtain ⟨hi, rfl⟩ := Array.getElem?_eq_some_iff.1 hc
  rw [slice, Array.extract_succ_right (Nat.lt_succ_self i) hi,
    Array.extract_eq_empty_of_le (Nat.min_le_left i text.size)]
  rfl

/-- The next position is as many bytes further as the character has. -/
theorem byteAt_succ_of_char {c : Char} (hc : text[i]? = some c) :
    text.byteAt (i + 1) = text.byteAt i + c.utf8Size := by
  obtain ⟨hi, -⟩ := Array.getElem?_eq_some_iff.1 hc
  rw [← byteAt_add_slice (Nat.le_succ i) hi, slice_succ hc, String.utf8ByteSize_singleton]

/-- After the end of the text, the next position is one byte further. -/
theorem byteAt_succ_of_size_le (hi : text.size ≤ i) : text.byteAt (i + 1) = text.byteAt i + 1 := by
  rw [byteAt, byteAt, slice_of_size_le text 0 hi, slice_of_size_le text 0 (Nat.le_succ_of_le hi)]
  omega

theorem byteAt_strictMono : StrictMono text.byteAt := by
  refine strictMono_nat_of_lt_succ fun i => ?_
  rcases Nat.lt_or_ge i text.size with hi | hi
  · rw [byteAt_succ_of_char (Array.getElem?_eq_getElem hi)]
    exact Nat.lt_add_of_pos_right (Char.utf8Size_pos _)
  · rw [byteAt_succ_of_size_le hi]
    exact Nat.lt_succ_self _

end

variable {content : String} {i j : Nat}

theorem byteAt_size : (ofString content).byteAt (ofString content).size = content.utf8ByteSize := by
  rw [byteAt_of_le (Nat.le_refl _), slice_ofString]

/-- The positions after the end of a text are those with an offset after the end. -/
theorem utf8ByteSize_lt_byteAt :
    content.utf8ByteSize < (ofString content).byteAt i ↔ (ofString content).size < i := by
  rw [← byteAt_size]
  exact byteAt_strictMono.lt_iff_lt

/-- A position inside the text is the boundary between the characters before and after it. -/
theorem exists_boundary_byteAt (hi : i ≤ (ofString content).size) :
    ∃ p, Bytes.boundary? content ((ofString content).byteAt i) = some p ∧
      p.Splits ((ofString content).slice 0 i)
        ((ofString content).slice i (ofString content).size) := by
  have happend : content = (ofString content).slice 0 i ++
      (ofString content).slice i (ofString content).size := by
    rw [slice_append_slice _ (Nat.zero_le i) hi, slice_ofString]
  have hvalid : (String.Pos.Raw.mk ((ofString content).byteAt i)).IsValid content := by
    refine String.Pos.Raw.isValid_iff_exists_append.2 ⟨_, _, happend, ?_⟩
    rw [byteAt_of_le hi]
    rfl
  refine ⟨content.pos _ hvalid, dif_pos hvalid, happend, ?_⟩
  rw [String.offset_pos, byteAt_of_le hi]
  rfl

theorem isValid_byteAt (hi : i ≤ (ofString content).size) :
    (String.Pos.Raw.mk ((ofString content).byteAt i)).IsValid content := by
  obtain ⟨p, hp, -⟩ := exists_boundary_byteAt hi
  rw [← Bytes.boundary?_eq_some.1 hp]
  exact p.isValid

/-- The characters before the offset of a position are counted by the position. -/
theorem position?_byteAt (hi : i ≤ (ofString content).size) :
    Bytes.position? content ((ofString content).byteAt i) = some i := by
  obtain ⟨p, hp, hsplits⟩ := exists_boundary_byteAt hi
  rw [Bytes.position?, hp, Option.map_some, hsplits.copy_sliceTo_eq, length_slice,
    Nat.min_eq_left hi, Nat.sub_zero]

theorem position?_eq_none (hi : (ofString content).size < i) :
    Bytes.position? content ((ofString content).byteAt i) = none := by
  rw [Bytes.position?, Bytes.boundary?_eq_none (utf8ByteSize_lt_byteAt.2 hi), Option.map_none]

/-- The next position is as many bytes further as the character at the offset has. -/
theorem byteAt_succ (i : Nat) : (ofString content).byteAt (i + 1) =
    (ofString content).byteAt i + Bytes.charWidth content ((ofString content).byteAt i) := by
  rcases Nat.lt_trichotomy i (ofString content).size with hi | rfl | hi
  · have hc := Array.getElem?_eq_getElem hi
    obtain ⟨p, hp, hsplits⟩ := exists_boundary_byteAt hi.le
    rw [← slice_append_slice _ (Nat.le_succ i) hi, slice_succ hc] at hsplits
    have hend := hsplits.ne_endPos_of_singleton
    obtain ⟨rest, hrest⟩ := hsplits.exists_eq_singleton_append hend
    have hget : (ofString content)[i] = p.get hend := by
      have hlist := congrArg String.toList hrest
      rw [String.toList_append, String.toList_append, String.toList_singleton,
        String.toList_singleton] at hlist
      exact (List.cons.inj hlist).1
    rw [byteAt_succ_of_char hc, Bytes.charWidth, hp, Option.bind_some,
      String.Pos.get?_eq_some_get hend, Option.elim_some, hget]
  · obtain ⟨p, hp, hsplits⟩ := exists_boundary_byteAt (Nat.le_refl (ofString content).size)
    have hend : p = content.endPos :=
      hsplits.eq_endPos_iff.2 (slice_eq_empty _ (Nat.min_le_left _ _))
    rw [byteAt_succ_of_size_le (Nat.le_refl _), Bytes.charWidth, hp, Option.bind_some, hend,
      String.Pos.get?_endPos, Option.elim_none]
  · rw [byteAt_succ_of_size_le hi.le, Bytes.charWidth,
      Bytes.boundary?_eq_none (utf8ByteSize_lt_byteAt.2 hi), Option.bind_none, Option.elim_none]

/-- The bytes before a position are those of the text before it. -/
theorem extract_zero_byteAt (hi : i ≤ (ofString content).size) :
    content.toByteArray.extract 0 ((ofString content).byteAt i) =
      ((ofString content).slice 0 i).toByteArray := by
  have hcontent : content.toByteArray = ((ofString content).slice 0 i).toByteArray ++
      ((ofString content).slice i (ofString content).size).toByteArray := by
    rw [← String.toByteArray_append, slice_append_slice _ (Nat.zero_le i) hi, slice_ofString]
  rw [congrArg (ByteArray.extract · 0 ((ofString content).byteAt i)) hcontent]
  exact ByteArray.extract_append_eq_left (byteAt_of_le hi)

/-- **Slices.** Positions in order inside the text cut out a slice of it. -/
theorem slices_slice (hij : i ≤ j) (hj : j ≤ (ofString content).size) :
    Slices content ((ofString content).slice i j) ((ofString content).byteAt i)
      ((ofString content).byteAt j) where
  ordered := byteAt_strictMono.monotone hij
  inside := (byteAt_strictMono.monotone hj).trans_eq byteAt_size
  starts := isValid_byteAt (hij.trans hj)
  stops := isValid_byteAt hj
  bytes := by
    -- What comes after the slice is cut off first.
    have hinner : ∀ first last, content.toByteArray.extract first last =
        (content.toByteArray.extract 0 last).extract first last := by
      intro first last
      rw [ByteArray.extract_extract, Nat.zero_add, Nat.zero_add, Nat.min_self]
    rw [hinner, extract_zero_byteAt hj, ← slice_append_slice _ (Nat.zero_le i) hij,
      String.toByteArray_append]
    refine ByteArray.extract_append_eq_right (byteAt_of_le (hij.trans hj)) ?_
    rw [← byteAt_add_slice hij hj, byteAt_of_le (hij.trans hj)]
    rfl

/-! ### Parts between positions -/

theorem get?_byteAt (hij : i ≤ j) (hj : j ≤ (ofString content).size) :
    Bytes.get? content ((ofString content).byteAt i) ((ofString content).byteAt j) =
      some ((ofString content).slice i j) :=
  Bytes.get?_eq_some.2 (slices_slice hij hj)

/-- A part that ends after the end of the text is none. -/
theorem get?_eq_none {first last : Nat} (h : content.utf8ByteSize < last) :
    Bytes.get? content first last = none :=
  Option.eq_none_iff_forall_ne_some.2 fun _ hpiece =>
    absurd (Bytes.get?_eq_some.1 hpiece).inside (Nat.not_le.2 h)

/-- The character at a position, or nothing after the end of the text. -/
theorem get?_charWidth (i : Nat) :
    (Bytes.get? content ((ofString content).byteAt i) ((ofString content).byteAt i +
        Bytes.charWidth content ((ofString content).byteAt i))).getD "" =
      (ofString content).slice i (i + 1) := by
  rw [← byteAt_succ]
  rcases Nat.lt_or_ge i (ofString content).size with hi | hi
  · rw [get?_byteAt (Nat.le_succ i) hi, Option.getD_some]
  · rw [get?_eq_none (utf8ByteSize_lt_byteAt.2 (Nat.lt_succ_of_le hi)), Option.getD_none,
      slice_eq_empty _ (by omega)]

/-- The rest of the text from a position on, or nothing after the end of the text. -/
theorem get?_rest (i : Nat) :
    (Bytes.get? content ((ofString content).byteAt i) content.utf8ByteSize).getD "" =
      (ofString content).slice i (ofString content).size := by
  rcases Nat.lt_or_ge (ofString content).size i with hi | hi
  · have hnone : Bytes.get? content ((ofString content).byteAt i) content.utf8ByteSize = none := by
      rw [Bytes.get?, Bytes.boundary?_eq_none (utf8ByteSize_lt_byteAt.2 hi)]
      rfl
    rw [hnone, Option.getD_none, slice_eq_empty _ (by omega)]
  · rw [← byteAt_size, get?_byteAt hi (Nat.le_refl _), Option.getD_some]

theorem slice_byteAt {ε : Type} (hij : i ≤ j) (hj : j ≤ (ofString content).size) :
    (Bytes.slice content ((ofString content).byteAt i) ((ofString content).byteAt j) :
      Except (Halt ε) String) = .ok ((ofString content).slice i j) := by
  rw [Bytes.slice, get?_byteAt hij hj]

end Pattern.Text

/-- A search from the offsets of positions is the search from the positions. -/
theorem Pattern.findInBytes_byteAt (p : Pattern) {content : String} {low i : Nat}
    (hlow : low ≤ (Text.ofString content).size) (hi : i ≤ (Text.ofString content).size) :
    p.findInBytes content ((Text.ofString content).byteAt low)
        ((Text.ofString content).byteAt i) =
      (Option.map (Span.inBytes (.ofString content))) <$>
        (p.findAfter? (.ofString content) low i).mapError .fails := by
  simp only [findInBytes, Text.position?_byteAt hlow, Text.position?_byteAt hi]

end LexicalModes
