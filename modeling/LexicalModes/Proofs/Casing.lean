import LexicalModes.Unicode.Lowercase
import Mathlib.Data.List.Basic

/-!
Characters that lower-casing keeps, and does not look past. White space, the bar, the plus sign and
digits are steady: no one has case or is looked through for a sigma's neighbours, each is its own
lower case, and nothing else is lower-cased to one. The table of general categories is gone through
once to show this, as runs of which none with a telling category meets a steady character. So a
text is lower-cased on each side of a steady character on its own (`lowerAfter_append_cons`).
-/

namespace LexicalModes.Unicode

/-! ### Ranges of code points -/

/-- The code point is in one of the ranges. -/
def Within (ranges : List (Nat × Nat)) (code : Nat) : Prop :=
  ∃ r ∈ ranges, r.1 ≤ code ∧ code ≤ r.2

instance (ranges : List (Nat × Nat)) (code : Nat) : Decidable (Within ranges code) :=
  inferInstanceAs (Decidable (∃ r ∈ ranges, _))

/-- Whether the lists have no code point in common. -/
def apart (ranges others : List (Nat × Nat)) : Bool :=
  ranges.all fun r => others.all fun o => Nat.blt r.2 o.1 || Nat.blt o.2 r.1

theorem not_within_of_apart {ranges others : List (Nat × Nat)} (h : apart ranges others = true)
    {code : Nat} (hcode : Within others code) : ¬Within ranges code := by
  rintro ⟨r, hr, hlow, hhigh⟩
  obtain ⟨o, ho, hfirst, hlast⟩ := hcode
  have hapart := List.all_eq_true.1 (List.all_eq_true.1 h r hr) o ho
  simp only [Bool.or_eq_true, Nat.blt_eq] at hapart
  omega

theorem within_of_containsCode {s : CharSet} {code : Nat} (h : s.containsCode code = true) :
    Within s.ranges.toList code := by
  rw [CharSet.containsCode] at h
  split at h
  case h_1 r hr =>
    rw [lastAtMost?] at hr
    refine ⟨r, Array.mem_toList_iff.2 (Array.mem_of_getElem? hr), ?_⟩
    simpa using h
  case h_2 => cases h

/-- Ranges that touch are joined, and no code point comes in between. -/
theorem within_of_coalesce {current : Nat × Nat} {ranges : List (Nat × Nat)} {code : Nat}
    (h : Within (CharSet.coalesce current ranges) code) : Within (current :: ranges) code := by
  induction ranges generalizing current with
  | nil => exact h
  | cons next rest ih =>
      rw [CharSet.coalesce] at h
      by_cases htouch : next.1 ≤ current.2 + 1
      · rw [if_pos htouch] at h
        obtain ⟨r, hr, hlow, hhigh⟩ := ih h
        rcases List.mem_cons.1 hr with rfl | hr
        · by_cases hcurrent : code ≤ current.2
          · exact ⟨current, List.mem_cons_self, hlow, hcurrent⟩
          · exact ⟨next, by simp, by omega, by omega⟩
        · exact ⟨r, List.mem_cons_of_mem _ (List.mem_cons_of_mem _ hr), hlow, hhigh⟩
      · rw [if_neg htouch] at h
        obtain ⟨r, hr, hcode⟩ := h
        rcases List.mem_cons.1 hr with rfl | hr
        · exact ⟨r, List.mem_cons_self, hcode⟩
        · obtain ⟨found, hfound, hcode⟩ := ih ⟨r, hr, hcode⟩
          exact ⟨found, List.mem_cons_of_mem _ hfound, hcode⟩

theorem within_of_ofSorted {ranges : List (Nat × Nat)} {code : Nat}
    (h : Within (CharSet.ofSorted ranges).ranges.toList code) : Within ranges code := by
  cases ranges with
  | nil => exact h
  | cons first rest => exact within_of_coalesce h

theorem within_of_union {a b : CharSet} {code : Nat}
    (h : Within (a.union b).ranges.toList code) :
    Within a.ranges.toList code ∨ Within b.ranges.toList code := by
  obtain ⟨r, hr, hcode⟩ := within_of_ofSorted h
  rcases List.mem_merge.1 hr with hr | hr
  · exact .inl ⟨r, hr, hcode⟩
  · exact .inr ⟨r, hr, hcode⟩

/-! ### Labelled runs -/

/-- The last code point before the first of these runs. -/
def lastBefore {α : Type} : List (Nat × α) → Nat
  | [] => lastCode
  | next :: _ => next.1 - 1

/-- Whether no run whose label satisfies the test has a code point in these ranges. -/
def spares {α : Type} (test : α → Bool) (codes : List (Nat × Nat)) : List (Nat × α) → Bool
  | [] => true
  | run :: rest =>
    (codes.all (fun o => Nat.blt o.2 run.1 || Nat.blt (lastBefore rest) o.1) || !test run.2) &&
      spares test codes rest

theorem zip_lastBefore {α : Type} (run : Nat × α) (rest : List (Nat × α)) :
    (run :: rest).zip (((run :: rest).drop 1).map (·.1 - 1) ++ [lastCode]) =
      (run, lastBefore rest) :: rest.zip ((rest.drop 1).map (·.1 - 1) ++ [lastCode]) := by
  cases rest <;> rfl

theorem not_within_of_spares {α : Type} {test : α → Bool} {codes : List (Nat × Nat)}
    {runs : Array (Nat × α)} (h : spares test codes runs.toList = true) {code : Nat}
    (hcode : Within codes code) : ¬Within (CharSet.ofLabels test runs).ranges.toList code := by
  intro hwithin
  have hlabelled := within_of_ofSorted hwithin
  generalize runs.toList = starts at h hlabelled
  induction starts with
  | nil =>
      obtain ⟨r, hr, -⟩ := hlabelled
      cases hr
  | cons run rest ih =>
      obtain ⟨first, label⟩ := run
      rw [spares, Bool.and_eq_true, Bool.or_eq_true, List.all_eq_true] at h
      obtain ⟨hrun, hrest⟩ := h
      rw [zip_lastBefore] at hlabelled
      by_cases htest : test label = true
      · obtain ⟨o, ho, hlow, hhigh⟩ := hcode
        obtain ⟨r, hr, hfirst, hlast⟩ := hlabelled
        have hapart := hrun.resolve_right (by simp [htest]) o ho
        simp only [Bool.or_eq_true, Nat.blt_eq] at hapart
        simp only [List.filterMap_cons, htest, if_true] at hr
        rcases List.mem_cons.1 hr with rfl | hr
        · simp only at hfirst hlast
          omega
        · exact ih hrest ⟨r, hr, hfirst, hlast⟩
      · simp only [List.filterMap_cons, htest] at hlabelled
        exact ih hrest hlabelled

/-- First code point and label of each run, of which the first is being read. -/
def runsFrom (first : Nat) (label : List Char) (length : Nat) : List Char → List (Nat × List Char)
  | [] => if length = 0 then [] else [(first, label)]
  | c :: rest =>
    if c.isAlpha then
      if length = 0 then runsFrom first (label ++ [c]) 0 rest
      else (first, label) :: runsFrom (first + length) [c] 0 rest
    else runsFrom first label (10 * length + (c.toNat - '0'.toNat)) rest

theorem runs_foldl_feed (r : RunReader) (chars : List Char) :
    (chars.foldl RunReader.feed r).finish.runs.toList = r.runs.toList ++
      (runsFrom r.first r.label.toList r.length chars).map fun run =>
        (run.1, String.ofList run.2) := by
  induction chars generalizing r with
  | nil =>
      rw [List.foldl_nil, RunReader.finish, runsFrom]
      by_cases hlength : r.length = 0 <;> simp [hlength]
  | cons c rest ih =>
      rw [List.foldl_cons, ih, RunReader.feed, runsFrom]
      by_cases hletter : c.isAlpha = true
      · rw [if_pos hletter, if_pos hletter, RunReader.finish]
        by_cases hlength : r.length = 0 <;> simp [hlength]
      · rw [if_neg hletter, if_neg hletter]

theorem toList_readRuns (lines : List String) : (readRuns lines).toList =
    (runsFrom 0 [] 0 (lines.flatMap String.toList)).map fun run =>
      (run.1, String.ofList run.2) := by
  rw [readRuns, runs_foldl_feed, String.toList_join]
  rfl

/-! ### Steady characters -/

/-- The code points of white space, the plus sign, digits and the bar. -/
def steadyCodes : List (Nat × Nat) :=
  [(9, 13), (32, 32), (43, 43), (48, 57), (124, 124), (0x85, 0x85), (0xA0, 0xA0), (0x1680, 0x1680),
   (0x2000, 0x200A), (0x2028, 0x2029), (0x202F, 0x202F), (0x205F, 0x205F), (0x3000, 0x3000)]

/-- The character is white space, a plus sign, a digit or a bar. -/
def IsSteady (c : Char) : Prop := Within steadyCodes c.toNat

instance (c : Char) : Decidable (IsSteady c) := inferInstanceAs (Decidable (Within _ _))

theorem isSteady_of_isWhiteSpace {c : Char} (h : isWhiteSpace c = true) : IsSteady c := by
  have hcodes : ∀ r ∈ whiteSpace.ranges.toList, r ∈ steadyCodes := by decide +kernel
  rw [isWhiteSpace] at h
  split at h
  · simp only [Bool.or_eq_true, Bool.and_eq_true, beq_iff_eq, decide_eq_true_eq] at h
    rcases h with h | h
    · exact ⟨(32, 32), by decide, by simp only; omega⟩
    · exact ⟨(9, 13), by decide, h⟩
  · obtain ⟨r, hr, hcode⟩ := within_of_containsCode h
    exact ⟨r, hcodes r hr, hcode⟩

theorem isSteady_bar : IsSteady '|' := by decide

theorem runs_eq : Category.runs.toList =
    (runsFrom 0 [] 0 (Category.encodedRuns.flatMap String.toList)).map fun run =>
      (run.1, Category.ofLabel (String.ofList run.2)) := by
  rw [Category.runs, Array.toList_map, toList_readRuns, List.map_map]
  rfl

/-- No run of a category with case or of one that is looked through has a steady character. -/
theorem spares_runs : spares [Category.mn, .me, .cf, .lm, .sk, .lu, .ll, .lt].contains steadyCodes
    Category.runs.toList = true := by
  rw [runs_eq, Category.encodedRuns]
  simp only [List.flatMap_cons, List.flatMap_nil]
  -- The characters of the text are laid out first; the kernel would decode its bytes.
  repeat rw [String.toList_ofList]
  decide +kernel

theorem spares_mono {α : Type} {test other : α → Bool} (himp : ∀ a, other a = true → test a = true)
    {codes : List (Nat × Nat)} {runs : List (Nat × α)} (h : spares test codes runs = true) :
    spares other codes runs = true := by
  induction runs with
  | nil => rfl
  | cons run rest ih =>
      rw [spares, Bool.and_eq_true, Bool.or_eq_true] at h ⊢
      refine ⟨h.1.imp_right fun hnot => ?_, ih h.2⟩
      simp only [Bool.not_eq_true'] at hnot ⊢
      exact Bool.eq_false_iff.2 fun htrue => Bool.eq_false_iff.1 hnot (himp _ htrue)

theorem not_within_ofCategories {members : List Category}
    (hmembers : members ⊆ [Category.mn, .me, .cf, .lm, .sk, .lu, .ll, .lt]) {c : Char}
    (h : IsSteady c) : ¬Within (ofCategories members).ranges.toList c.toNat := by
  apply not_within_of_spares (spares_mono _ spares_runs) h
  intro category hmem
  simp only [List.contains_iff_mem] at hmem ⊢
  exact hmembers hmem

/-- The sets of single characters have no steady one. -/
theorem apart_others : apart midWord.ranges.toList steadyCodes = true ∧
    apart otherLowercase.ranges.toList steadyCodes = true ∧
    apart otherUppercase.ranges.toList steadyCodes = true := by
  decide +kernel

theorem isCaseIgnorable_of_isSteady {c : Char} (h : IsSteady c) : isCaseIgnorable c = false := by
  rw [← Bool.not_eq_true]
  intro hignorable
  obtain ⟨hmid, -, -⟩ := apart_others
  rcases within_of_union (within_of_containsCode hignorable) with hcategory | hother
  · exact not_within_ofCategories (by simp) h hcategory
  · exact not_within_of_apart hmid h hother

/-- What case does to the first 128 characters leaves the steady ones alone. -/
theorem steady_below {c : Char} (h : c.toNat < 128) :
    (IsSteady c → c.isAlpha = false ∧ c.toLower = c) ∧ (IsSteady c.toLower → c.toLower = c) := by
  have hall : ∀ n < 128, (IsSteady (Char.ofNat n) → (Char.ofNat n).isAlpha = false ∧
      (Char.ofNat n).toLower = Char.ofNat n) ∧
      (IsSteady (Char.ofNat n).toLower → (Char.ofNat n).toLower = Char.ofNat n) := by
    decide +kernel
  have hc := hall c.toNat h
  rwa [Char.ofNat_toNat] at hc

theorem isCased_of_isSteady {c : Char} (h : IsSteady c) : isCased c = false := by
  rw [← Bool.not_eq_true, isCased]
  split
  case isTrue hsmall =>
    simp [((steady_below hsmall).1 h).1]
  case isFalse =>
    intro hcased
    obtain ⟨-, hlower, hupper⟩ := apart_others
    rcases within_of_union (within_of_containsCode hcased) with hfirst | hother
    · rcases within_of_union hfirst with hcategory | hother
      · exact not_within_ofCategories (by simp) h hcategory
      · exact not_within_of_apart hlower h hother
    · exact not_within_of_apart hupper h hother

/-! ### Lower case -/

/-- No run of the lower case mapping has a steady character in it, and none but that of the first
128 characters has one in its image. -/
theorem lowerRuns_apart : ∀ r ∈ lowerRuns, ∀ o ∈ steadyCodes, 0 < o.1 ∧
    (r.last < o.1 ∨ o.2 < r.first) ∧
    (r.last < 128 ∨ r.last + r.offset < o.1 ∨ o.2 < r.first + r.offset) := by
  decide +kernel

theorem mapRuns_cases (runs : List CaseRun) (code : Nat) : mapRuns runs code = code ∨
    ∃ run ∈ runs, run.first ≤ code ∧ code ≤ run.last ∧ mapRuns runs code = run.image code := by
  rw [mapRuns]
  split
  case h_1 run hrun =>
    have hcovers := List.find?_some hrun
    simp only [CaseRun.covers, Bool.and_eq_true, decide_eq_true_eq] at hcovers
    exact .inr ⟨run, List.mem_of_find?_eq_some hrun, hcovers.1.1, hcovers.1.2, rfl⟩
  case h_2 => exact .inl rfl

theorem mapRuns_of_within {code : Nat} (h : Within steadyCodes code) :
    mapRuns lowerRuns code = code := by
  obtain ⟨o, ho, hlow, hhigh⟩ := h
  refine (mapRuns_cases lowerRuns code).resolve_right ?_
  rintro ⟨run, hrun, hfirst, hlast, -⟩
  obtain ⟨-, hsource, -⟩ := lowerRuns_apart run hrun o ho
  omega

theorem mapRuns_eq_of_within {code : Nat} (hlarge : 128 ≤ code)
    (h : Within steadyCodes (mapRuns lowerRuns code)) : mapRuns lowerRuns code = code := by
  obtain ⟨o, ho, hlow, hhigh⟩ := h
  refine (mapRuns_cases lowerRuns code).resolve_right ?_
  rintro ⟨run, hrun, hfirst, hlast, himage⟩
  obtain ⟨hpos, -, hapart⟩ := lowerRuns_apart run hrun o ho
  rw [himage, CaseRun.image] at hlow hhigh
  omega

theorem lowerChar_of_isSteady {c : Char} (h : IsSteady c) : lowerChar c = [c] := by
  rw [lowerChar]
  split
  case isTrue hsmall =>
    rw [((steady_below hsmall).1 h).2]
  case isFalse hlarge =>
    have hdotted : c.toNat ≠ 0x130 := by
      intro heq
      rw [IsSteady, heq] at h
      exact absurd h (by decide)
    rw [if_neg (by simpa using hdotted), mapRuns_of_within h, Char.ofNat_toNat]

theorem toNat_ofNat_of_isSteady {n : Nat} (h : IsSteady (Char.ofNat n)) :
    (Char.ofNat n).toNat = n := by
  by_cases hvalid : n.isValidChar
  · rw [Char.ofNat, dif_pos hvalid]
    rfl
  · rw [Char.ofNat, dif_neg hvalid] at h
    exact absurd h (by decide)

theorem eq_of_mem_lowerChar {c d : Char} (hd : d ∈ lowerChar c) (h : IsSteady d) : d = c := by
  rw [lowerChar] at hd
  split at hd
  case isTrue hsmall =>
    rw [List.mem_singleton] at hd
    rw [hd] at h ⊢
    exact (steady_below hsmall).2 h
  case isFalse hlarge =>
    split at hd
    case isTrue =>
      rcases List.mem_pair.1 hd with rfl | rfl <;> exact absurd h (by decide)
    case isFalse =>
      rw [List.mem_singleton] at hd
      rw [hd] at h ⊢
      have hcode := toNat_ofNat_of_isSteady h
      rw [IsSteady, hcode] at h
      rw [mapRuns_eq_of_within (by omega) h, Char.ofNat_toNat]

theorem lowerChar_ne_nil (c : Char) : lowerChar c ≠ [] := by
  rw [lowerChar]
  split
  · simp
  · split <;> simp

theorem not_isSteady_lowerSigma (before after : List Char) :
    ¬IsSteady (lowerSigma before after) := by
  rw [lowerSigma]
  split <;> decide

/-! ### Lower case around a steady character -/

theorem meetsCased_append {b : Char} (hb : IsSteady b) (neighbours further : List Char) :
    meetsCased (neighbours ++ b :: further) = meetsCased neighbours := by
  rw [meetsCased, meetsCased, List.dropWhile_append]
  cases hmeets : neighbours.dropWhile isCaseIgnorable with
  | nil =>
      rw [List.isEmpty_nil, if_pos rfl,
        List.dropWhile_cons_of_neg (by simp [isCaseIgnorable_of_isSteady hb])]
      exact isCased_of_isSteady hb
  | cons c rest => rfl

/-- What comes before a steady character does not count. -/
theorem lowerAfter_append_before {b : Char} (hb : IsSteady b) (before further text : List Char) :
    lowerAfter (before ++ b :: further) text = lowerAfter before text := by
  induction text generalizing before with
  | nil => rfl
  | cons c rest ih =>
      rw [lowerAfter, lowerAfter, ← List.cons_append, ih, lowerSigma, lowerSigma,
        meetsCased_append hb]

theorem ne_capitalSigma_of_isSteady {b : Char} (hb : IsSteady b) : (b == capitalSigma) = false := by
  rw [beq_eq_false_iff_ne]
  rintro rfl
  exact absurd hb (by decide)

/-- The texts on the two sides of a steady character are lower-cased on their own. -/
theorem lowerAfter_append_cons {b : Char} (hb : IsSteady b) (before text rest : List Char) :
    lowerAfter before (text ++ b :: rest) = lowerAfter before text ++ b :: lowerAfter [] rest := by
  induction text generalizing before with
  | nil =>
      have hself := lowerAfter_append_before hb [] before rest
      rw [List.nil_append] at hself
      change lowerAfter before (b :: rest) = b :: lowerAfter [] rest
      rw [lowerAfter, ne_capitalSigma_of_isSteady hb, lowerChar_of_isSteady hb, hself]
      rfl
  | cons c text ih =>
      rw [List.cons_append, lowerAfter, lowerAfter, ih, lowerSigma, lowerSigma,
        meetsCased_append hb, List.append_assoc]

theorem eq_of_mem_lowerAfter {before text : List Char} {d : Char}
    (hd : d ∈ lowerAfter before text) (h : IsSteady d) : d ∈ text := by
  induction text generalizing before with
  | nil => exact hd
  | cons c rest ih =>
      rw [lowerAfter, List.mem_append] at hd
      rcases hd with hd | hd
      · split at hd
        · rw [List.mem_singleton] at hd
          exact absurd (hd ▸ h) (not_isSteady_lowerSigma before rest)
        · rw [eq_of_mem_lowerChar hd h]
          exact List.mem_cons_self
      · exact List.mem_cons_of_mem _ (ih hd)

theorem lowerAfter_eq_nil {before text : List Char} : lowerAfter before text = [] ↔ text = [] := by
  cases text with
  | nil => simp [lowerAfter]
  | cons c rest =>
      rw [lowerAfter]
      split <;> simp [lowerChar_ne_nil]

/-- A text of steady characters is its own lower case. -/
theorem lowerAfter_of_steady {before text : List Char} (h : ∀ c ∈ text, IsSteady c) :
    lowerAfter before text = text := by
  induction text generalizing before with
  | nil => rfl
  | cons c rest ih =>
      obtain ⟨hc, hrest⟩ := List.forall_mem_cons.1 h
      rw [lowerAfter, ne_capitalSigma_of_isSteady hc, lowerChar_of_isSteady hc, ih hrest]
      rfl

/-- No other text has it for its lower case. -/
theorem steady_of_lowerAfter {before text : List Char}
    (h : ∀ d ∈ lowerAfter before text, IsSteady d) : ∀ c ∈ text, IsSteady c := by
  induction text generalizing before with
  | nil => simp
  | cons c rest ih =>
      rw [lowerAfter, List.forall_mem_append] at h
      obtain ⟨hfirst, hrest⟩ := h
      refine List.forall_mem_cons.2 ⟨?_, ih hrest⟩
      split at hfirst
      · exact absurd (hfirst _ List.mem_cons_self) (not_isSteady_lowerSigma before rest)
      · obtain ⟨d, more, hlower⟩ := List.exists_cons_of_ne_nil (lowerChar_ne_nil c)
        have hmem : d ∈ lowerChar c := by simp [hlower]
        have hd := hfirst d hmem
        exact eq_of_mem_lowerChar hmem hd ▸ hd

end LexicalModes.Unicode
