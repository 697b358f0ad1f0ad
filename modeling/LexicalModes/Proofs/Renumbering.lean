import LexicalModes.Proofs.Pieces

/-!
Joining patterns keeps every reference inside its own pattern. Splitting the joined text gives back
the pieces of the patterns (`reads_renumbered`), each reference with the groups of the patterns
before added to its number, so the groups that the references mean have moved by just as much. A
number that reaches the bound starts again at zero, and a reference to the group of number zero is
an escape for the reader of pieces; as long as that does not happen, joining in two steps is the
same as joining at once.
-/

namespace LexicalModes

/-! ### Numbers of references -/

/-- A digit is written the way its value is. -/
theorem digitChar_of_isDigit {c : Char} (h : c.isDigit = true) :
    c.toNat - '0'.toNat < 10 ∧ (c.toNat - '0'.toNat).digitChar = c := by
  obtain ⟨hlow, hhigh⟩ := Char.isDigit_iff_toNat.1 h
  have hlt : c.toNat - '0'.toNat < 10 := by
    simp only [Char.reduceToNat] at hlow hhigh ⊢
    omega
  refine ⟨hlt, Char.toNat_inj.1 ?_⟩
  rw [Nat.toNat_digitChar_of_lt_ten hlt]
  simp only [Char.reduceToNat] at hlow ⊢
  omega

/-- Digits behind a number that is not zero are the last digits of the number they make with it. -/
theorem toDigits_append_digits {digits : List Char} (hdigits : ∀ d ∈ digits, d.isDigit = true)
    {start : Nat} (hstart : 0 < start) :
    0 < Nat.ofDigitChars 10 digits start ∧
      Nat.toDigits 10 start ++ digits = Nat.toDigits 10 (Nat.ofDigitChars 10 digits start) := by
  induction digits generalizing start with
  | nil => exact ⟨hstart, List.append_nil _⟩
  | cons d digits ih =>
      obtain ⟨hlt, hd⟩ := digitChar_of_isDigit (hdigits d List.mem_cons_self)
      have hlonger : 0 < 10 * start + (d.toNat - '0'.toNat) := by omega
      obtain ⟨hpos, htext⟩ := ih (fun e he => hdigits e (List.mem_cons_of_mem _ he)) hlonger
      rw [Nat.ofDigitChars_cons]
      refine ⟨hpos, ?_⟩
      rw [← htext, ← Nat.toDigits_append_toDigits (by decide) hstart hlt,
        Nat.toDigits_of_lt_base hlt, hd, List.append_assoc, List.singleton_append]

namespace Piece

/-- The number of a reference is not zero, and is written with the digits that were read. -/
theorem number_of_reference {c : Char} {digits : List Char} (hc : ('1' ≤ c && c ≤ '9') = true)
    (hdigits : ∀ d ∈ digits, d.isDigit = true) :
    0 < number (c :: digits) ∧ (number (c :: digits)).repr.toList = c :: digits := by
  simp only [Bool.and_eq_true, decide_eq_true_eq, Char.le_def, UInt32.le_iff_toNat_le] at hc
  obtain ⟨hlow, hhigh⟩ := hc
  have hone : 0 < c.toNat - '0'.toNat := Nat.sub_pos_of_lt hlow
  obtain ⟨hlt, hdigit⟩ := digitChar_of_isDigit
    (Char.isDigit_iff_toNat.2 ⟨Nat.le_of_lt hlow, hhigh⟩)
  obtain ⟨hpos, htext⟩ := toDigits_append_digits hdigits hone
  have hnumber : number (c :: digits) = Nat.ofDigitChars 10 digits (c.toNat - '0'.toNat) := by
    rw [number, List.foldl_cons, Nat.mul_zero, Nat.zero_add]
    rfl
  rw [hnumber, Nat.toList_repr, ← htext, Nat.toDigits_of_lt_base hlt, hdigit]
  exact ⟨hpos, rfl⟩

theorem number_repr (n : Nat) : number n.repr.toList = n := by
  rw [Nat.toList_repr]
  exact Nat.ofDigitChars_ten_toDigits

/-- What a piece is when its text is read again after such an offset was added to its number. -/
def renumbered (offset : Nat) : Piece → Piece
  | .reference digits =>
    if number digits < referenceBound then
      let sum := (number digits + offset) % referenceBound
      if sum = 0 then .copied ['\\', '0'] else .reference sum.repr.toList
    else .reference digits
  | piece => piece

theorem isOpening_renumbered (offset : Nat) (piece : Piece) :
    (piece.renumbered offset).isOpening = piece.isOpening := by
  cases piece with
  | opening | copied => rfl
  | reference digits =>
      simp only [renumbered]
      split
      · split <;> rfl
      · rfl

end Piece

/-! ### Splitting a renumbered text -/

/-- A bracket closes at the same place if nothing follows. -/
theorem classLength?_take {text : List Char} {n : Nat} (h : classLength? text = some n) :
    classLength? (text.take n) = some n := by
  fun_induction classLength? text generalizing n with
  | case1 => cases h
  | case2 => cases h; rfl
  | case3 => cases h
  | case4 c rest hc ih =>
      obtain ⟨m, hm, rfl⟩ := Option.map_eq_some_iff.1 h
      simp [classLength?, hc, ih hm]
  | case5 => cases h
  | case6 c rest hclose hescape hlast ih =>
      obtain ⟨m, hm, rfl⟩ := Option.map_eq_some_iff.1 h
      have hne : c ≠ '\\' := by
        intro hc
        cases rest with
        | nil => exact hlast hc rfl
        | cons d others => exact hescape d others hc rfl
      rw [List.take_succ_cons, classLength?_cons hclose hne, ih hm, Option.map_some]

/-- A number that is not zero is written with a first digit that is not zero. -/
theorem exists_toDigits_eq_cons {n : Nat} (hn : n ≠ 0) :
    ∃ c digits, Nat.toDigits 10 n = c :: digits ∧ ('1' ≤ c && c ≤ '9') = true := by
  induction n using Nat.strongRecOn with
  | ind n ih =>
      by_cases hlt : n < 10
      · refine ⟨n.digitChar, [], Nat.toDigits_of_lt_base hlt, ?_⟩
        simp only [Bool.and_eq_true, decide_eq_true_eq, Char.le_def, UInt32.le_iff_toNat_le,
          Char.toNat_val, Nat.toNat_digitChar_of_lt_ten hlt, Char.reduceToNat]
        omega
      · obtain ⟨c, digits, htext, hc⟩ := ih (n / 10) (by omega) (by omega)
        refine ⟨c, digits ++ [(n % 10).digitChar], ?_, hc⟩
        rw [Nat.toDigits_of_base_le (by decide) (Nat.le_of_not_lt hlt), htext, List.cons_append]

/-- Digits after a backslash are read as a reference, before a text that starts otherwise. -/
theorem First.of_digits {c : Char} {digits more : List Char} (hc : ('1' ≤ c && c ≤ '9') = true)
    (hdigits : ∀ d ∈ digits, d.isDigit = true) (hend : ∀ d ∈ more.head?, d.isDigit = false) :
    First ('\\' :: c :: digits ++ more) (.reference (c :: digits)) more := by
  obtain ⟨htake, hdrop⟩ := takeWhile_dropWhile_append Char.isDigit digits hend
  rw [List.takeWhile_eq_self_iff.2 hdigits] at htake
  rw [List.dropWhile_eq_nil_iff.2 hdigits, List.nil_append] at hdrop
  have hfirst := @First.reference c (digits ++ more) hc
  rwa [htake, hdrop] at hfirst

/-- A piece that is not loose is read as such after renumbering, before a text that starts as it did
or with a bar. -/
theorem First.renumbered {text rest more : List Char} {piece : Piece} (h : First text piece rest)
    (hbracket : piece ≠ .copied ['[']) (hescape : piece ≠ .copied ['\\']) (offset : Nat)
    (hmore : ∀ c ∈ more.head?, c ∈ rest.head? ∨ c = '|') :
    First (piece.shifted offset ++ more) (piece.renumbered offset) more := by
  cases h with
  | @bracket body n hn =>
      have hlength : (body.take n).length = n := List.length_take_of_le (classLength?_le hn)
      have hfirst := First.bracket (classLength?_append (classLength?_take hn) more)
      rwa [List.take_left' hlength, List.drop_left' hlength] at hfirst
  | looseBracket => exact absurd rfl hbracket
  | marked => exact .marked
  | opening hhead =>
      refine .opening fun hquestion => ?_
      rcases hmore _ hquestion with hrest | hbar
      · exact hhead hrest
      · exact absurd hbar (by decide)
  | @reference c body hc =>
      have hdigits : ∀ d ∈ body.takeWhile Char.isDigit, d.isDigit = true :=
        fun d hd => List.mem_takeWhile_imp hd
      have hend : ∀ d ∈ more.head?, d.isDigit = false := by
        intro d hd
        rcases hmore d hd with hrest | rfl
        · have hnot := List.head?_dropWhile_not Char.isDigit body
          rw [hrest] at hnot
          simpa using hnot
        · rfl
      simp only [Piece.shifted, Piece.renumbered]
      by_cases hrange : Piece.number (c :: body.takeWhile Char.isDigit) < Piece.referenceBound
      · rw [if_pos hrange, if_pos hrange]
        generalize (Piece.number (c :: body.takeWhile Char.isDigit) + offset) %
          Piece.referenceBound = sum
        -- Zero is no number of a group: the sum that is zero is read as an escape.
        by_cases hzero : sum = 0
        · rw [if_pos hzero, hzero]
          exact .escape (by decide) (by decide)
        · rw [if_neg hzero, Nat.toList_repr]
          obtain ⟨e, digits, htext, he⟩ := exists_toDigits_eq_cons hzero
          rw [htext]
          refine .of_digits he (fun d hd => ?_) hend
          have hmem : d ∈ Nat.toDigits 10 sum := htext ▸ List.mem_cons_of_mem e hd
          exact Nat.isDigit_of_mem_toDigits (by decide) (by decide) hmem
      · rw [if_neg hrange, if_neg hrange]
        exact .of_digits hc hdigits hend
  | escape hc hline => exact .escape hc hline
  | looseEscape => exact absurd rfl hescape
  | plain hb ho he => exact .plain hb ho he

/-- **A renumbered text is split into the renumbered pieces** of a closed one, before the end or a
bar. -/
theorem Reads.renumbered {text more : List Char} {ps qs : List Piece} (hp : Reads text ps)
    (hclosed : ∀ piece ∈ ps, piece ≠ .copied ['['] ∧ piece ≠ .copied ['\\']) (offset : Nat)
    (hmore : ∀ c ∈ more.head?, c = '|') (hq : Reads more qs) :
    Reads (ps.flatMap (Piece.shifted offset) ++ more)
      (ps.map (Piece.renumbered offset) ++ qs) := by
  induction hp with
  | nil => exact hq
  | @cons text rest piece others hfirst hrest ih =>
      obtain ⟨hbracket, hescape⟩ := hclosed _ List.mem_cons_self
      rw [List.flatMap_cons, List.append_assoc, List.map_cons, List.cons_append]
      refine .cons (hfirst.renumbered hbracket hescape offset fun c hc => ?_)
        (ih fun other hother => hclosed other (List.mem_cons_of_mem _ hother))
      rw [hrest.head?_flatMap_shifted, Option.mem_def, Option.or_eq_some_iff] at hc
      exact hc.imp id fun h => hmore c h.2

/-- The pieces of patterns as they are read again, when so many groups come before the first. -/
def renumberAll : Nat → List String → List (List Piece)
  | _, [] => []
  | offset, p :: rest =>
    (pieces p).map (Piece.renumbered offset) :: renumberAll (offset + groupCount p) rest

theorem reads_intercalate_shiftAll {ps : List String} (hclosed : ∀ p ∈ ps, Closed p)
    (offset : Nat) :
    Reads ("|".intercalate (shiftAll offset ps)).toList
      ([.copied ['|']].intercalate (renumberAll offset ps)) := by
  induction ps generalizing offset with
  | nil => exact .nil
  | cons p ps ih =>
      have hp : Closed p := hclosed p List.mem_cons_self
      have hrest := ih fun q hq => hclosed q (List.mem_cons_of_mem _ hq)
      cases ps with
      | nil =>
          have hreads := (reads_pieces p).renumbered hp offset (by simp) .nil
          simpa [shiftAll, renumberAll, toList_shiftReferences] using hreads
      | cons q rest =>
          have hbar : Reads ('|' :: _) (.copied ['|'] :: _) :=
            .cons (.plain (by decide) (by decide) (by decide)) (hrest (offset + groupCount p))
          have hreads := (reads_pieces p).renumbered hp offset (by simp) hbar
          rw [← toList_shiftReferences] at hreads
          simpa [shiftAll, renumberAll, String.intercalate_cons_cons, List.intercalate,
            List.intersperse] using hreads

/-- Patterns joined by bars are split into their own pieces, renumbered, with the bars between. -/
theorem pieces_compose {ps : List String} (hclosed : ∀ p ∈ ps, Closed p) :
    pieces (compose ps "|") = [.copied ['|']].intercalate (renumberAll 0 ps) :=
  (reads_pieces _).unique (reads_intercalate_shiftAll hclosed 0)

/-! ### Groups by number -/

/-- The piece at the position opens the group of the number. -/
def OpensGroup (ps : List Piece) (number position : Nat) : Prop :=
  ps[position]? = some .opening ∧ (ps.take position).countP Piece.isOpening + 1 = number

/-- A later position has more groups before it, so a number has one position. -/
theorem OpensGroup.not_lt {ps : List Piece} {number i j : Nat} (hi : OpensGroup ps number i)
    (hj : OpensGroup ps number j) : ¬i < j := by
  intro hlt
  have hsucc : (ps.take (i + 1)).countP Piece.isOpening =
      (ps.take i).countP Piece.isOpening + 1 := by
    rw [List.take_add_one, hi.1, List.countP_append]
    rfl
  have hle : (ps.take (i + 1)).countP Piece.isOpening ≤ (ps.take j).countP Piece.isOpening :=
    (List.take_prefix_take_left hlt).sublist.countP_le
  have hnumber := hi.2.trans hj.2.symm
  omega

theorem OpensGroup.unique {ps : List Piece} {number i j : Nat} (hi : OpensGroup ps number i)
    (hj : OpensGroup ps number j) : i = j :=
  Nat.le_antisymm (Nat.le_of_not_lt (hj.not_lt hi)) (Nat.le_of_not_lt (hi.not_lt hj))

theorem exists_opensGroup {ps : List Piece} {n : Nat} (hn : 1 ≤ n)
    (hle : n ≤ ps.countP Piece.isOpening) : ∃ position, OpensGroup ps n position := by
  induction ps generalizing n with
  | nil => exact absurd (Nat.le_trans hn hle) (by decide)
  | cons piece ps ih =>
      rw [List.countP_cons] at hle
      cases piece with
      | opening =>
          by_cases hone : n = 1
          · exact ⟨0, rfl, hone.symm⟩
          · simp only [Piece.isOpening, if_true] at hle
            obtain ⟨position, hopening, hcount⟩ := @ih (n - 1) (by omega) (by omega)
            refine ⟨position + 1, hopening, ?_⟩
            simp only [List.take_succ_cons, List.countP_cons, Piece.isOpening, if_true]
            omega
      | reference | copied =>
          obtain ⟨position, hopening, hcount⟩ := ih hn hle
          exact ⟨position + 1, hopening, hcount⟩

theorem countP_map_renumbered (offset : Nat) (ps : List Piece) :
    (ps.map (Piece.renumbered offset)).countP Piece.isOpening = ps.countP Piece.isOpening := by
  rw [List.countP_map]
  exact List.countP_congr fun piece _ => by
    rw [Function.comp_apply, Piece.isOpening_renumbered]

/-- Between other pieces, the groups are further on and have numbers that are higher by the groups
before. -/
theorem OpensGroup.renumbered {ps : List Piece} {n i : Nat} (h : OpensGroup ps n i) (offset : Nat)
    (front back : List Piece) :
    OpensGroup (front ++ ps.map (Piece.renumbered offset) ++ back)
      (n + front.countP Piece.isOpening) (front.length + i) := by
  obtain ⟨hopening, hcount⟩ := h
  have hlt := (List.getElem?_eq_some_iff.1 hopening).1
  refine ⟨?_, ?_⟩
  · rw [List.append_assoc, List.getElem?_append_right (Nat.le_add_right _ _),
      Nat.add_sub_cancel_left, List.getElem?_append_left (by simpa using hlt), List.getElem?_map,
      hopening]
    rfl
  · rw [List.append_assoc, List.take_length_add_append, List.countP_append,
      List.take_append_of_le_length (by simpa using hlt.le), ← List.map_take,
      countP_map_renumbered]
    omega

theorem intercalate_renumberAll_cons (offset : Nat) (p q : String) (rest : List String) :
    [Piece.copied ['|']].intercalate (renumberAll offset (p :: q :: rest)) =
      (pieces p).map (Piece.renumbered offset) ++ .copied ['|'] ::
        [Piece.copied ['|']].intercalate (renumberAll (offset + groupCount p) (q :: rest)) := by
  simp [renumberAll, List.intercalate]

theorem countP_intercalate_renumberAll (offset : Nat) (ps : List String) :
    ([Piece.copied ['|']].intercalate (renumberAll offset ps)).countP Piece.isOpening =
      groupTotal ps := by
  induction ps generalizing offset with
  | nil => rfl
  | cons p ps ih =>
      cases ps with
      | nil =>
          rw [renumberAll, renumberAll, List.intercalate_singleton, countP_map_renumbered]
          rfl
      | cons q rest =>
          rw [intercalate_renumberAll_cons, List.countP_append, countP_map_renumbered,
            List.countP_cons, ih]
          rfl

/-- The pieces of one of the patterns are found between those of the others. -/
theorem exists_pieces_around (before : List String) (p : String) (after : List String)
    (offset : Nat) :
    ∃ front back, [Piece.copied ['|']].intercalate (renumberAll offset (before ++ p :: after)) =
        front ++ (pieces p).map (Piece.renumbered (offset + groupTotal before)) ++ back ∧
      front.countP Piece.isOpening = groupTotal before := by
  induction before generalizing offset with
  | nil =>
      cases after with
      | nil => exact ⟨[], [], by simp [renumberAll], rfl⟩
      | cons q rest => exact ⟨[], _, intercalate_renumberAll_cons offset p q rest, rfl⟩
  | cons q before ih =>
      obtain ⟨front, back, hpieces, hcount⟩ := ih (offset + groupCount q)
      have hcons : ∃ r rest, before ++ p :: after = r :: rest := by
        cases before with
        | nil => exact ⟨_, _, rfl⟩
        | cons r before => exact ⟨_, _, rfl⟩
      obtain ⟨r, rest, hrest⟩ := hcons
      refine ⟨(pieces q).map (Piece.renumbered offset) ++ .copied ['|'] :: front, back, ?_, ?_⟩
      · rw [List.cons_append, hrest, intercalate_renumberAll_cons, ← hrest, hpieces,
          groupTotal_cons, Nat.add_assoc]
        simp
      · rw [List.countP_append, countP_map_renumbered, List.countP_cons, hcount]
        rfl

/-! ### Joining in two steps -/

/-- Without groups before, a piece keeps its text. -/
theorem First.shifted_zero {text rest : List Char} {piece : Piece} (h : First text piece rest) :
    piece.shifted 0 = piece.text := by
  cases h with
  | @reference c body hc =>
      obtain ⟨-, hdigits⟩ := Piece.number_of_reference hc fun d hd => List.mem_takeWhile_imp hd
      simp only [Piece.shifted, Piece.text]
      split
      · rename_i hrange
        rw [Nat.add_zero, Nat.mod_eq_of_lt hrange, hdigits]
      · rfl
  | bracket | looseBracket | marked | opening | escape | looseEscape | plain => rfl

theorem Reads.flatMap_shifted_zero {text : List Char} {ps : List Piece} (h : Reads text ps) :
    ps.flatMap (Piece.shifted 0) = text ∧ ps.flatMap Piece.text = text := by
  induction h with
  | nil => exact ⟨rfl, rfl⟩
  | cons hfirst _ ih =>
      rw [List.flatMap_cons, List.flatMap_cons, ih.1, ih.2, hfirst.shifted_zero,
        ← hfirst.eq_append]
      exact ⟨rfl, rfl⟩

theorem shiftReferences_zero (p : String) : shiftReferences 0 p = p := by
  rw [shiftReferences, (reads_pieces p).flatMap_shifted_zero.1, String.ofList_toList]

namespace Piece

/-- The number of a reference still fits when so many groups come before its pattern. -/
def Fits (offset : Nat) : Piece → Prop
  | .reference digits => number digits < referenceBound → number digits + offset < referenceBound
  | _ => True

instance (offset : Nat) : (piece : Piece) → Decidable (piece.Fits offset)
  | .reference digits => inferInstanceAs (Decidable (number digits < referenceBound → _))
  | .opening => isTrue trivial
  | .copied _ => isTrue trivial

end Piece

/-- The numbers of all references still fit when so many groups come before the first pattern. -/
def AllFit : Nat → List String → Prop
  | _, [] => True
  | offset, p :: rest =>
    (∀ piece ∈ pieces p, piece.Fits offset) ∧ AllFit (offset + groupCount p) rest

instance : (offset : Nat) → (ps : List String) → Decidable (AllFit offset ps)
  | _, [] => isTrue trivial
  | offset, p :: rest =>
    have := instDecidableAllFit (offset + groupCount p) rest
    inferInstanceAs (Decidable ((∀ piece ∈ pieces p, piece.Fits offset) ∧ _))

/-- Numbers that fit can be raised in two steps. -/
theorem First.shifted_renumbered {text rest : List Char} {piece : Piece}
    (h : First text piece rest) {offset : Nat} (hfits : piece.Fits offset) (further : Nat) :
    (piece.renumbered offset).shifted further = piece.shifted (offset + further) := by
  cases h with
  | @reference c body hc =>
      have hdigits : ∀ d ∈ body.takeWhile Char.isDigit, d.isDigit = true :=
        fun d hd => List.mem_takeWhile_imp hd
      obtain ⟨hpos, -⟩ := Piece.number_of_reference hc hdigits
      simp only [Piece.renumbered, Piece.shifted]
      by_cases hrange : Piece.number (c :: body.takeWhile Char.isDigit) < Piece.referenceBound
      · have hsum := hfits hrange
        rw [if_pos hrange, if_pos hrange, Nat.mod_eq_of_lt hsum, if_neg (by omega)]
        simp only [Piece.number_repr, if_pos hsum, Nat.add_assoc]
      · rw [if_neg hrange, if_neg hrange]
        simp only [if_neg hrange]
  | bracket | looseBracket | marked | opening | escape | looseEscape | plain => rfl

theorem Reads.flatMap_shifted_renumbered {text : List Char} {ps : List Piece}
    (h : Reads text ps) {offset : Nat} (hfits : ∀ piece ∈ ps, piece.Fits offset) (further : Nat) :
    (ps.map (Piece.renumbered offset)).flatMap (Piece.shifted further) =
      ps.flatMap (Piece.shifted (offset + further)) := by
  induction h with
  | nil => rfl
  | cons hfirst _ ih =>
      rw [List.map_cons, List.flatMap_cons, List.flatMap_cons,
        hfirst.shifted_renumbered (hfits _ List.mem_cons_self),
        ih fun piece hpiece => hfits piece (List.mem_cons_of_mem _ hpiece)]

theorem flatMap_shifted_renumberAll {qs : List String} {offset : Nat} (hfits : AllFit offset qs)
    (further : Nat) :
    ([Piece.copied ['|']].intercalate (renumberAll offset qs)).flatMap (Piece.shifted further) =
      ("|".intercalate (shiftAll (offset + further) qs)).toList := by
  induction qs generalizing offset with
  | nil => rfl
  | cons q qs ih =>
      obtain ⟨hq, hqs⟩ := hfits
      have hfirst := (reads_pieces q).flatMap_shifted_renumbered hq further
      rw [← toList_shiftReferences] at hfirst
      cases qs with
      | nil =>
          simp only [renumberAll, List.intercalate_singleton, shiftAll,
            String.intercalate_singleton, hfirst]
      | cons r rest =>
          have hrest := ih hqs
          rw [Nat.add_right_comm] at hrest
          rw [intercalate_renumberAll_cons, List.flatMap_append, List.flatMap_cons, hfirst, hrest]
          simp [shiftAll, Piece.shifted, String.intercalate_cons_cons]

/-- Patterns that were joined are renumbered together as they would be one by one. -/
theorem shiftReferences_compose {qs : List String} (hclosed : ∀ q ∈ qs, Closed q)
    (hfits : AllFit 0 qs) (offset : Nat) :
    shiftReferences offset (compose qs "|") = "|".intercalate (shiftAll offset qs) := by
  apply String.toList_injective
  rw [toList_shiftReferences, pieces_compose hclosed, flatMap_shifted_renumberAll hfits,
    Nat.zero_add]

/-- Joining what was joined before is the same as joining at once, as long as the numbers fit. -/
theorem compose_compose {ps qs : List String} (hps : ∀ p ∈ ps, Closed p)
    (hqs : ∀ q ∈ qs, Closed q) (hpsNe : ps ≠ []) (hqsNe : qs ≠ []) (hfits : AllFit 0 qs) :
    compose [compose ps "|", compose qs "|"] "|" = compose (ps ++ qs) "|" := by
  have hcount : groupCount (compose ps "|") = groupTotal ps := by
    rw [groupCount, pieces_compose hps, countP_intercalate_renumberAll]
  have hps' : shiftAll 0 ps ≠ [] := by
    rw [← List.length_pos_iff, length_shiftAll, List.length_pos_iff]
    exact hpsNe
  have hqs' : shiftAll (0 + groupTotal ps) qs ≠ [] := by
    rw [← List.length_pos_iff, length_shiftAll, List.length_pos_iff]
    exact hqsNe
  calc compose [compose ps "|", compose qs "|"] "|"
      = compose ps "|" ++ "|" ++ shiftReferences (0 + groupTotal ps) (compose qs "|") := by
        rw [compose, shiftAll, shiftAll, shiftAll, shiftReferences_zero, hcount,
          String.intercalate_cons_cons, String.intercalate_singleton]
    _ = "|".intercalate (shiftAll 0 ps) ++ "|" ++
          "|".intercalate (shiftAll (0 + groupTotal ps) qs) := by
        rw [shiftReferences_compose hqs hfits, compose]
    _ = compose (ps ++ qs) "|" := by
        rw [compose, shiftAll_append, String.intercalate_append_of_ne_nil hps' hqs']

/-- The number of a reference that was read is not zero, so renumbering makes it a reference again
if the sum fits. -/
theorem Reads.renumbered_reference {text : List Char} {ps : List Piece} (h : Reads text ps)
    {digits : List Char} (hmem : .reference digits ∈ ps) {offset : Nat}
    (hsum : Piece.number digits + offset < Piece.referenceBound) :
    (Piece.reference digits).renumbered offset =
      .reference (Piece.number digits + offset).repr.toList := by
  induction h with
  | nil => cases hmem
  | cons hfirst _ ih =>
      rcases List.mem_cons.1 hmem with rfl | hmem
      · cases hfirst with
        | @reference c body hc =>
            have hdigits : ∀ d ∈ body.takeWhile Char.isDigit, d.isDigit = true :=
              fun d hd => List.mem_takeWhile_imp hd
            obtain ⟨hpos, -⟩ := Piece.number_of_reference hc hdigits
            rw [Piece.renumbered, if_pos (by omega), Nat.mod_eq_of_lt hsum, if_neg (by omega)]
      · exact ih hmem

/-- **References stay inside their patterns.** The pieces of a text are all of it, and joining a
single pattern leaves it as it is. Closed patterns joined by bars are split into their own pieces in
order, with the bars between them: each piece is the same but for the numbers of references, to
which the groups of the patterns before are added, and the group of each number in a pattern has in
the joined text the number that references to it have there. Joining what was joined before is the
same as joining all at once, as long as the numbers fit. -/
theorem references_stay_inside :
    (∀ p, (pieces p).flatMap Piece.text = p.toList ∧ ∀ separator, compose [p] separator = p) ∧
    ∀ ps, (∀ p ∈ ps, Closed p) →
      pieces (compose ps "|") = [.copied ['|']].intercalate (renumberAll 0 ps) ∧
      (∀ before p after, ps = before ++ p :: after → ∃ start,
        (∀ i piece, (pieces p)[i]? = some piece →
          (pieces (compose ps "|"))[start + i]? = some (piece.renumbered (groupTotal before))) ∧
        (∀ i digits, (pieces p)[i]? = some (.reference digits) →
          Piece.number digits + groupTotal before < Piece.referenceBound →
          (pieces (compose ps "|"))[start + i]? =
            some (.reference (Piece.number digits + groupTotal before).repr.toList)) ∧
        ∀ n, 1 ≤ n → n ≤ groupCount p → ∃ i, OpensGroup (pieces p) n i ∧
          ∀ j, OpensGroup (pieces (compose ps "|")) (n + groupTotal before) j ↔ j = start + i) ∧
      ∀ qs, (∀ q ∈ qs, Closed q) → ps ≠ [] → qs ≠ [] → AllFit 0 qs →
        compose [compose ps "|", compose qs "|"] "|" = compose (ps ++ qs) "|" := by
  refine ⟨fun p => ⟨(reads_pieces p).flatMap_shifted_zero.2, fun separator => ?_⟩, ?_⟩
  · rw [compose, shiftAll, shiftAll, shiftReferences_zero, String.intercalate_singleton]
  · intro ps hclosed
    refine ⟨pieces_compose hclosed, ?_,
      fun qs hqs hpsNe hqsNe hfits => compose_compose hclosed hqs hpsNe hqsNe hfits⟩
    rintro before p after rfl
    obtain ⟨front, back, hpieces, hcount⟩ := exists_pieces_around before p after 0
    rw [Nat.zero_add, ← pieces_compose hclosed] at hpieces
    have hat : ∀ i piece, (pieces p)[i]? = some piece →
        (pieces (compose (before ++ p :: after) "|"))[front.length + i]? =
          some (piece.renumbered (groupTotal before)) := by
      intro i piece hi
      have hlt := (List.getElem?_eq_some_iff.1 hi).1
      rw [hpieces, List.append_assoc, List.getElem?_append_right (Nat.le_add_right _ _),
        Nat.add_sub_cancel_left, List.getElem?_append_left (by simpa using hlt),
        List.getElem?_map, hi, Option.map_some]
    refine ⟨front.length, hat, fun i digits hi hsum => ?_, fun n hn hle => ?_⟩
    · rw [hat i _ hi, (reads_pieces p).renumbered_reference (List.mem_of_getElem? hi) hsum]
    · obtain ⟨i, hi⟩ := exists_opensGroup hn hle
      have hmoved := hi.renumbered (groupTotal before) front back
      rw [← hpieces, hcount] at hmoved
      exact ⟨i, hi, fun j => ⟨fun hj => hj.unique hmoved, fun hj => hj ▸ hmoved⟩⟩

/-- A pattern whose class holds a parenthesis is joined after another one, and both once more after
themselves. -/
theorem references_stay_inside_sample :
    (∀ p ∈ ["(a)\\1", "[(]\\1(b)"], Closed p) ∧
      (∃ start i, OpensGroup (pieces "[(]\\1(b)") 1 i ∧
        (∀ j, OpensGroup (pieces "(a)\\1|[(]\\2(b)") 2 j ↔ j = start + i) ∧
        (pieces "(a)\\1|[(]\\2(b)")[start + 1]? = some (.reference ['2'])) ∧
      compose ["(a)\\1|[(]\\2(b)", "(a)\\1|[(]\\2(b)"] "|" =
        "(a)\\1|[(]\\2(b)|(a)\\3|[(]\\4(b)" := by
  have hclosed : ∀ p ∈ ["(a)\\1", "[(]\\1(b)"], Closed p := by decide +kernel
  have hcompose : compose ["(a)\\1", "[(]\\1(b)"] "|" = "(a)\\1|[(]\\2(b)" := by decide +kernel
  have htotal : groupTotal ["(a)\\1"] = 1 := by decide +kernel
  obtain ⟨-, hjoined⟩ := references_stay_inside
  obtain ⟨-, haround, htwice⟩ := hjoined _ hclosed
  obtain ⟨start, -, hreference, hgroup⟩ := haround ["(a)\\1"] "[(]\\1(b)" [] rfl
  rw [htotal, hcompose] at hreference hgroup
  obtain ⟨i, hi, hopens⟩ := hgroup 1 (by decide) (by decide +kernel)
  have htext := htwice _ hclosed (by decide) (by decide) (by decide +kernel)
  rw [hcompose] at htext
  refine ⟨hclosed, ⟨start, i, hi, hopens, ?_⟩, ?_⟩
  · have hnumber : (Piece.number ['1'] + 1).repr.toList = ['2'] := by decide +kernel
    rw [hreference 1 ['1'] (by decide +kernel) (by decide +kernel), hnumber]
  · rw [htext]
    decide +kernel

end LexicalModes
